import HeapSampler.Proofs.Frame
import HeapSampler.Proofs.Ownership

/-!
# Every sampled allocation is accounted for

An allocation whose sample draw is admitted can end in five ways: its record is pushed onto the
ledger and put under its handle, it is dropped because as many captures as allowed are in
progress, because the ledger is full (before the capture or after it), or because the heap
index is, or its capture fails.  The collector counts three of them itself, in its drop counts,
and the first shows in the ledger until a return thins the record out.

`BeginOutcome` and `FinishOutcome` list the ways the two halves of an allocation end, one
constructor each, so that an allocation ends in exactly one of them.  A `Tally`, read off a
history by recursion, counts what the collector does not: the admitted draws, the failed
captures and the records thinned out.  The tally is `Balanced` against the collector at every
step, with the captures in progress as the one term that is not yet settled
(`History.tally_balanced`); at an export, none is in progress, and the admitted allocations are
exactly what the export reports plus what the tally holds (`sampled_allocations_accounted`).

## Main definitions

* `Collector.BeginOutcome`, `Collector.FinishOutcome` — how the halves of an allocation end.
* `Rate.rejections` — how many of a run of draws a rate refuses.
* `Tally`, `EventRun.tally`, `History.tally`, `Tally.Balanced`.

## Main results

* `Collector.beginAlloc_outcome`, `Collector.finishAlloc_outcome`.
* `Collector.settleAll_ledger_length` — a return thins one record per refused draw.
* `History.tally_balanced`, `sampled_allocations_accounted`.
-/

namespace HeapSampler

namespace Collector

variable {c c' : Collector}

/-! ### How an allocation ends -/

/-- The ways the first half of an allocation with the sample draw `draw`, `d` captures in
progress, can end, once the object under its handle is forgotten (`c₀`): the sampling rate
refuses the draw and nothing is counted; or it admits the draw and the allocation is dropped and
counted once, because as many captures as allowed are in progress, or the ledger is full, or the
heap index is (the ledger not); or a capture is asked for with the collector's method. -/
inductive BeginOutcome (c : Collector) (draw : UInt32) (d : Nat) (c₀ : Collector) :
    Collector → Option CaptureMethod → Prop
  /-- The draw is not admitted. -/
  | notAdmitted : c.sampleRate.admits draw = false → BeginOutcome c draw d c₀ c₀ none
  /-- As many captures as allowed are in progress. -/
  | busy : c.sampleRate.admits draw = true → maxCaptureDepth ≤ d →
      BeginOutcome c draw d c₀ { c₀ with dropped.noLock := c₀.dropped.noLock + 1 } none
  /-- The ledger is full. -/
  | ledgerFull : c.sampleRate.admits draw = true → d < maxCaptureDepth → c₀.ledger.isFull = true →
      BeginOutcome c draw d c₀ { c₀ with dropped.ledgerFull := c₀.dropped.ledgerFull + 1 } none
  /-- The heap index is full, the ledger not. -/
  | heapFull : c.sampleRate.admits draw = true → d < maxCaptureDepth → c₀.ledger.isFull = false →
      c₀.heap.isFull = true →
      BeginOutcome c draw d c₀ { c₀ with dropped.heapFull := c₀.dropped.heapFull + 1 } none
  /-- The stack is to be captured. -/
  | capture : c.sampleRate.admits draw = true → d < maxCaptureDepth → c₀.ledger.isFull = false →
      c₀.heap.isFull = false → BeginOutcome c draw d c₀ c₀ (some c.method)

theorem beginAlloc_outcome {h : UInt64} {draw : UInt32} {d : Nat} {c₁ : Collector}
    {m : Option CaptureMethod} (hb : c.beginAlloc h draw d = .ok (c₁, m)) :
    ∃ c₀, c.evict h = .ok c₀ ∧ SameCounts c c₀ ∧ BeginOutcome c draw d c₀ c₁ m := by
  obtain ⟨c₀, he, hd⟩ := beginAlloc_eq_ok hb
  obtain ⟨hrate, hmethod⟩ := evict_settings he
  refine ⟨c₀, he, SameCounts.of_evict he, ?_⟩
  rcases sampleDecision_cases c₀ draw d with ⟨ha, e⟩ | ⟨ha, hd', e⟩ | ⟨ha, hd', hroom, e⟩ | ⟨ha, hd', hc, e⟩ <;>
    rw [hrate] at ha
  · rw [hd] at e
    cases e
    exact .notAdmitted ha
  · rw [hd] at e
    cases e
    exact .busy ha hd'
  · rw [hd] at e
    cases e
    rcases checkRoom_cases c₀ with ⟨hl, hc⟩ | ⟨hl, hh, hc⟩ | ⟨-, -, hc⟩
    · rw [hc]
      exact .ledgerFull ha hd' hl
    · rw [hc]
      exact .heapFull ha hd' hl hh
    · rw [hc] at hroom; cases hroom
  · rw [hd] at e
    cases e
    obtain ⟨-, hl, hh⟩ := checkRoom_true (by rw [hc])
    rw [hmethod]
    exact .capture ha hd' hl hh

/-- The ways the second half of an allocation of handle `h` can take `c` to `c'`, once its
capture handed back the stack: the room is checked again, and the allocation is dropped and
counted once because the ledger is full, or the heap index is (the ledger not); or the new
record, named `c.store.nextId`, is pushed onto the ledger and put under `h`. -/
inductive FinishOutcome (c : Collector) (h : UInt64) : Collector → Prop
  /-- The ledger filled up during the capture. -/
  | ledgerFull : c.ledger.isFull = true →
      FinishOutcome c h { c with dropped.ledgerFull := c.dropped.ledgerFull + 1 }
  /-- The heap index filled up during the capture. -/
  | heapFull : c.ledger.isFull = false → c.heap.isFull = true →
      FinishOutcome c h { c with dropped.heapFull := c.dropped.heapFull + 1 }
  /-- The record is made and held by both containers. -/
  | pushed {c' : Collector} : c.ledger.isFull = false → c.heap.isFull = false →
      c'.ledger.records = c.store.nextId :: c.ledger.records →
      c'.heap.get? h = some c.store.nextId → c'.dropped = c.dropped → FinishOutcome c h c'

theorem finishAlloc_outcome {h size : UInt64} {frames : List Frame}
    (hf : c.finishAlloc h size frames = .ok c') : FinishOutcome c h c' := by
  rcases finishAlloc_eq_ok hf with ⟨hroom, rfl⟩ | ⟨hc, hm⟩
  · rcases checkRoom_cases c with ⟨hl, hc⟩ | ⟨hl, hh, hc⟩ | ⟨-, -, hc⟩
    · rw [hc]
      exact .ledgerFull hl
    · rw [hc]
      exact .heapFull hl hh
    · rw [hc] at hroom; cases hroom
  · obtain ⟨-, hl, hh⟩ := checkRoom_true (by rw [hc])
    -- The enrolled collector, before the record it displaces is let go.
    have he : SameCounts (c.enroll h size frames) c' ∧ c'.heap = (c.enroll h size frames).heap := by
      cases hg : c.heap.get? h with
      | none => rw [hg] at hm; rw [hm]; exact ⟨SameCounts.refl _, rfl⟩
      | some old =>
        rw [hg] at hm
        exact ⟨(SameCounts.updateRecord _ old _).trans (SameCounts.of_release hm),
          (heap_of_release hm).trans (updateRecord_heap _ _ _)⟩
    refine .pushed hl hh he.1.records ?_ he.1.dropped
    rw [he.2, enroll_heap]
    exact HeapIndex.get?_insert_self _ _ _

end Collector

/-! ### Thinning -/

/-- The number of the draws `i`, …, `i + n - 1` that a rate does not admit. -/
def Rate.rejections (r : Rate) (draws : Nat → UInt32) : Nat → Nat → Nat
  | _, 0 => 0
  | i, n + 1 => (if r.admits (draws i) then 0 else 1) + r.rejections draws (i + 1) n

namespace Collector

variable {c c' : Collector}

/-- Settling a record of the ledger takes it out exactly when the retain rate refuses its draw. -/
theorem settle_ledger {probe : UInt64 → Option UInt64} {id : RecordId} {draw : UInt32}
    (hs : c.settle probe id draw = .ok c') (hid : id ∈ c.ledger.records) :
    c'.ledger.records =
      if c.retainRate.admits draw then c.ledger.records else c.ledger.records.erase id := by
  rw [settle_eq] at hs
  cases hm : c.measure probe id with
  | error e => rw [hm] at hs; cases hs
  | ok c₁ =>
    rw [hm] at hs
    have e₁ := SameCounts.of_measure hm
    have hrate := (settled_of_measure hm).retainRate
    rcases thin_eq_ok hs with ⟨ha, rfl⟩ | ⟨ha, -, hr⟩ | ⟨-, hn, -⟩
    · rw [← hrate, if_pos ha, e₁.records]
    · rw [← hrate, if_neg (by rw [ha]; exact Bool.false_ne_true), (SameCounts.of_release hr).records,
        e₁.records]
    · exact absurd (e₁.records ▸ hid) hn

/-- Settling distinct records of the ledger takes out one record for each draw the retain rate
refuses. -/
theorem settleAll_ledger_length {probe : UInt64 → Option UInt64} {draws : Nat → UInt32} {i : Nat}
    {ids : List RecordId} (hs : settleAll probe draws c i ids = .ok c') (hnd : ids.Nodup)
    (hsub : ∀ x ∈ ids, x ∈ c.ledger.records) :
    c'.ledger.records.length + c.retainRate.rejections draws i ids.length = c.ledger.records.length := by
  induction ids generalizing c i with
  | nil => cases hs; rfl
  | cons id ids ih =>
    simp only [settleAll, bind, Except.bind] at hs
    cases h₁ : c.settle probe id (draws i) with
    | error e => rw [h₁] at hs; cases hs
    | ok c₁ =>
      rw [h₁] at hs
      have hid := hsub id List.mem_cons_self
      have hl := settle_ledger h₁ hid
      rw [List.nodup_cons] at hnd
      -- The other records are still in the ledger: only `id` may have left it.
      have hsub₁ : ∀ x ∈ ids, x ∈ c₁.ledger.records := by
        intro x hx
        have hx' := hsub x (List.mem_cons_of_mem id hx)
        rw [hl]
        split
        · exact hx'
        · have hne : x ≠ id := fun e => hnd.1 (by rw [← e]; exact hx)
          exact (List.mem_erase_of_ne hne).2 hx'
      have ih₁ := ih hs hnd.2 hsub₁
      rw [(settled_of_settle h₁).retainRate] at ih₁
      simp only [List.length_cons, Rate.rejections]
      rw [hl] at ih₁
      split at ih₁
      · rename_i ha
        rw [if_pos ha]
        omega
      · rename_i ha
        rw [if_neg ha, List.length_erase_of_mem hid] at *
        have hpos : 0 < c.ledger.records.length := List.length_pos_of_mem hid
        omega

end Collector

/-! ### The tally -/

/-- What the sampled allocations of a run came to, besides what the collector counts itself. -/
structure Tally where
  /-- Allocations whose sample draw was admitted. -/
  admitted : Nat := 0
  /-- Captures that failed. -/
  failed : Nat := 0
  /-- Records taken out of the ledger because the retain rate refused their draw. -/
  thinned : Nat := 0

namespace Tally

/-- An allocation on `c` with the sample draw `draw`. -/
def afterDraw (c : Collector) (draw : UInt32) (g : Tally) : Tally :=
  if c.sampleRate.admits draw then { g with admitted := g.admitted + 1 } else g

/-- A capture failed. -/
def afterFailure (g : Tally) : Tally := { g with failed := g.failed + 1 }

/-- A return on `c` with the retain draws `draws`: one record leaves the ledger for each of its
pending records whose draw the retain rate refuses. -/
def afterReturn (c : Collector) (draws : Nat → UInt32) (g : Tally) : Tally :=
  { g with thinned := g.thinned +
      c.retainRate.rejections draws 0 (c.ledger.records.take c.pending).length }

end Tally

/-- The tally of a run of events, from the tally before it. -/
def EventRun.tally {d : Nat} {c c' : Collector} : EventRun d c c' → Tally → Tally
  | .nil _ _, g => g
  | .free _ _ rest, g => rest.tally g
  | @EventRun.ret _ c _ _ _ draws _ rest, g => rest.tally (g.afterReturn c draws)
  | @EventRun.alloc _ c _ _ _ draw _ rest, g => rest.tally (g.afterDraw c draw)
  | @EventRun.allocFailed _ c _ _ _ _ draw _ _ nested rest, g =>
    rest.tally (nested.tally (g.afterDraw c draw)).afterFailure
  | @EventRun.allocCaptured _ c _ _ _ _ _ _ draw _ _ _ nested _ rest, g =>
    rest.tally (nested.tally (g.afterDraw c draw))

/-- The tally of a history since its last start that cleared the collector, or export. -/
def History.tally {c : Collector} : History c → Tally
  | .new .. => {}
  | @History.start c _ _ prev _ _ => if c.running then prev.tally else {}
  | .stop prev _ => prev.tally
  | .configure prev _ _ => prev.tally
  | .setSampleRate prev _ _ => prev.tally
  | .setRetainRate prev _ _ => prev.tally
  | .setMaxAllocationSamples prev _ => prev.tally
  | .setMaxHeapSamples prev _ => prev.tally
  | .setMethod prev _ => prev.tally
  | .relocate prev _ _ => prev.tally
  | .flush _ _ _ _ => {}
  | .events prev run => run.tally prev.tally

/-! ### The tally is balanced -/

namespace Tally

/-- Every admitted allocation is accounted for: its record is in the ledger or was thinned
out, it was dropped and counted, its capture failed, or its capture is one of the `d` in
progress. -/
def Balanced (g : Tally) (c : Collector) (d : Nat) : Prop :=
  g.admitted = c.ledger.records.length + g.thinned + c.dropped.noLock + c.dropped.ledgerFull +
    c.dropped.heapFull + g.failed + d

open Collector

variable {g : Tally} {c c' : Collector} {d : Nat}

theorem Balanced.same (hb : g.Balanced c d) (hs : SameCounts c c') : g.Balanced c' d := by
  unfold Balanced at hb ⊢
  rw [hs.records, hs.dropped]
  exact hb

/-- The first half of an allocation that asks for no capture: an admitted draw is dropped and
counted at once. -/
theorem Balanced.beginAlloc_none {h : UInt64} {draw : UInt32} (hb : g.Balanced c d)
    (hc : c.beginAlloc h draw d = .ok (c', none)) : (g.afterDraw c draw).Balanced c' d := by
  obtain ⟨c₀, -, e, ho⟩ := beginAlloc_outcome hc
  have hb₀ := hb.same e
  unfold Balanced at hb₀ ⊢
  unfold afterDraw
  cases ho with
  | notAdmitted ha =>
    rw [if_neg (by rw [ha]; exact Bool.false_ne_true)]
    exact hb₀
  | busy ha _ =>
    rw [if_pos ha]
    dsimp only
    omega
  | ledgerFull ha _ _ =>
    rw [if_pos ha]
    dsimp only
    omega
  | heapFull ha _ _ _ =>
    rw [if_pos ha]
    dsimp only
    omega

/-- The first half of an allocation that asks for a capture: the draw was admitted, and the
capture is in progress. -/
theorem Balanced.beginAlloc_some {h : UInt64} {draw : UInt32} {m : CaptureMethod}
    (hb : g.Balanced c d) (hc : c.beginAlloc h draw d = .ok (c', some m)) :
    (g.afterDraw c draw).Balanced c' (d + 1) := by
  obtain ⟨c₀, -, e, ho⟩ := beginAlloc_outcome hc
  have hb₀ := hb.same e
  unfold Balanced at hb₀ ⊢
  unfold afterDraw
  cases ho with
  | capture ha _ _ _ =>
    rw [if_pos ha]
    dsimp only
    omega

/-- The second half of an allocation ends its capture: the record is pushed, or the allocation
is dropped and counted. -/
theorem Balanced.finishAlloc {h size : UInt64} {frames : List Frame} (hb : g.Balanced c (d + 1))
    (hf : c.finishAlloc h size frames = .ok c') : g.Balanced c' d := by
  unfold Balanced at hb ⊢
  cases finishAlloc_outcome hf with
  | ledgerFull _ =>
    dsimp only
    omega
  | heapFull _ _ =>
    dsimp only
    omega
  | pushed _ _ hl _ hd =>
    rw [hl, hd, List.length_cons]
    omega

/-- A failed capture ends the allocation with nothing counted by the collector. -/
theorem Balanced.failure (hb : g.Balanced c (d + 1)) : g.afterFailure.Balanced c d := by
  unfold Balanced afterFailure at *
  dsimp only
  omega

/-- A return: each record thinned out of the ledger is tallied. -/
theorem Balanced.onReturn {probe : UInt64 → Option UInt64} {draws : Nat → UInt32}
    (hb : g.Balanced c d) (hl : c.ledger.records.Nodup) (hr : c.onReturn probe draws = .ok c') :
    (g.afterReturn c draws).Balanced c' d := by
  unfold Balanced afterReturn at *
  dsimp only
  by_cases hp : c.pending = 0
  · rcases onReturn_eq_ok hr with ⟨-, rfl⟩ | ⟨hp', -⟩
    · rw [hp, List.take_zero]
      simp only [List.length_nil, Rate.rejections, Nat.add_zero]
      exact hb
    · exact absurd hp hp'
  · obtain ⟨c₂, hs, e, rfl⟩ := onReturn_frame hp hr
    have hlen := settleAll_ledger_length hs (hl.sublist (List.take_sublist _ _))
      (fun x hx => List.mem_of_mem_take hx)
    dsimp only
    rw [e.dropped]
    omega

/-- After a start that cleared the collector, or an export, nothing is owed. -/
theorem balanced_reset (hl : c.ledger.records = []) (hd : c.dropped = {}) : ({} : Tally).Balanced c 0 := by
  unfold Balanced
  rw [hl, hd]
  rfl

end Tally

open Collector

/-- Every run of events keeps the tally balanced, captures included.  The ledger's records stay
distinct along the way, which a return needs to thin one record per refused draw. -/
theorem EventRun.tally_balanced {d : Nat} {c c' : Collector} (r : EventRun d c c') {g : Tally}
    (hb : g.Balanced c d) (ho : c.OwnedWith [] []) : (r.tally g).Balanced c' d := by
  induction r generalizing g with
  | nil => exact hb
  | free h hs rest ih => exact ih (hb.same (SameCounts.of_evict hs)) (ho.evict hs)
  | ret probe draws hs rest ih => exact ih (hb.onReturn ho.ledger_nodup hs) (ho.onReturn hs)
  | alloc h draw hs rest ih => exact ih (hb.beginAlloc_none hs) (ho.beginAlloc hs)
  | allocFailed h draw m hs nested rest ihn ih =>
    have ho₁ := ho.beginAlloc hs
    exact ih (ihn (hb.beginAlloc_some hs) ho₁).failure
      (owned_invariant.toEventInvariant.run nested ho₁)
  | allocCaptured h size draw m frames hs nested hf rest ihn ih =>
    have ho₁ := ho.beginAlloc hs
    have ho₂ := owned_invariant.toEventInvariant.run nested ho₁
    exact ih ((ihn (hb.beginAlloc_some hs) ho₁).finishAlloc hf) (ho₂.finishAlloc hf)

/-- Every history leaves its tally balanced, with no capture in progress. -/
theorem History.tally_balanced {c : Collector} (t : History c) : t.tally.Balanced c 0 := by
  induction t with
  | new => exact Tally.balanced_reset rfl rfl
  | @start c c' r prev hooks hs ih =>
    simp only [History.tally]
    rcases start_eq_ok hs with ⟨hr, rfl⟩ | ⟨hr, c₁, hc, e⟩
    · rw [if_pos hr]
      exact ih
    · rw [if_neg (by rw [hr]; exact Bool.false_ne_true)]
      obtain ⟨hl, -, -, hd⟩ := clear_frame hc
      rcases e with rfl | rfl
      · exact Tally.balanced_reset hl hd
      · exact Tally.balanced_reset hl hd
  | @stop c prev unhooks ih =>
    simp only [History.tally]
    rcases stop_fst c unhooks with e | e
    · rw [e]; exact ih
    · rw [e]; exact ih.same ⟨rfl, rfl, rfl, rfl⟩
  | configure prev s hs ih =>
    simp only [History.tally]
    rw [configure_eq_ok hs]
    exact ih.same ⟨rfl, rfl, rfl, rfl⟩
  | setSampleRate prev p hs ih =>
    simp only [History.tally]
    rw [setSampleRate_eq_ok hs]
    exact ih.same ⟨rfl, rfl, rfl, rfl⟩
  | setRetainRate prev p hs ih =>
    simp only [History.tally]
    rw [setRetainRate_eq_ok hs]
    exact ih.same ⟨rfl, rfl, rfl, rfl⟩
  | setMaxAllocationSamples prev n ih => exact ih.same ⟨rfl, rfl, rfl, rfl⟩
  | setMaxHeapSamples prev n ih => exact ih.same ⟨rfl, rfl, rfl, rfl⟩
  | setMethod prev m ih => exact ih.same ⟨rfl, rfl, rfl, rfl⟩
  | relocate prev remap hs ih => exact ih.same (SameCounts.of_relocate hs)
  | flush prev probe time hs ih =>
    obtain ⟨hl, -, -, hd⟩ := flush_frame hs
    exact Tally.balanced_reset hl hd
  | events prev run ih => exact run.tally_balanced ih (owned_invariant.holds prev)

/-- Every sampled allocation is accounted for.  The first half of an allocation forgets the
object under its handle, which counts nothing and pushes nothing, and then ends in exactly one
way of `BeginOutcome`: not admitted, or admitted and dropped and counted once, or admitted and
captured.  A capture that fails ends the allocation there; one that hands back the stack ends in
exactly one way of `FinishOutcome`: dropped and counted once, or the record pushed and put
under its handle.  So at every export, the allocations admitted since the last start that
cleared the collector, or export, are the records it exports from the ledger, those thinned out
by returns, the three drop counts it reports, and the failed captures. -/
theorem sampled_allocations_accounted :
    (∀ {c c₁ : Collector} {h : UInt64} {draw : UInt32} {d : Nat} {m : Option CaptureMethod},
      c.beginAlloc h draw d = .ok (c₁, m) →
        ∃ c₀, c.evict h = .ok c₀ ∧ SameCounts c c₀ ∧ BeginOutcome c draw d c₀ c₁ m) ∧
      (∀ {c c' : Collector} {h size : UInt64} {frames : List Frame},
        c.finishAlloc h size frames = .ok c' → FinishOutcome c h c') ∧
      (∀ {c c' : Collector} (t : History c) {probe : UInt64 → Option UInt64} {time : Int64}
        {report : FlushReport}, c.flush probe time = .ok (c', .ok report) →
          t.tally.admitted = report.stats.allocationSamples + t.tally.thinned +
            report.stats.dropped.noLock + report.stats.dropped.ledgerFull +
            report.stats.dropped.heapFull + t.tally.failed) := by
  refine ⟨beginAlloc_outcome, finishAlloc_outcome, ?_⟩
  intro c c' t probe time report hf
  obtain ⟨c₁, -, -, hr⟩ := flush_eq_ok hf
  have hb := t.tally_balanced
  unfold Tally.Balanced at hb
  -- The report counts the ledger's records and the drops as they were before the export.
  cases hp : Profile.ofRecords c₁.strings.snapshot c₁.strings.vocabulary time
      (c₁.recordsOf c.ledger.records) (c₁.recordsOf (c₁.heap.entries.map (·.2))) with
  | error e => rw [hp] at hr; cases hr
  | ok p =>
    rw [hp] at hr
    cases hr
    dsimp only
    omega

/-- An export whose profile was written, read off its outcome. -/
theorem Except.exists_eq_ok_ok {ε ε' α β : Type} {x : Except ε (α × Except ε' β)}
    (h : (x.toOption.bind fun p => p.2.toOption).isSome) : ∃ a b, x = .ok (a, .ok b) := by
  rcases x with e | ⟨a, e' | b⟩
  · cases h
  · cases h
  · exact ⟨a, b, rfl⟩

/-- After `sharedFrameHistory` an export accounts for the two admitted allocations, with nothing
thinned out and no capture failed. -/
theorem allocations_accounted_after_shared_frames :
    ∃ (c : Collector) (t : History c) (c' : Collector) (report : FlushReport),
      c.flush (fun _ => some 24) 0 = .ok (c', .ok report) ∧
      t.tally.admitted = 2 ∧ t.tally.thinned = 0 ∧ t.tally.failed = 0 ∧
      t.tally.admitted = report.stats.allocationSamples + t.tally.thinned +
        report.stats.dropped.noLock + report.stats.dropped.ledgerFull +
        report.stats.dropped.heapFull + t.tally.failed := by
  obtain ⟨c', report, hf⟩ :=
    Except.exists_eq_ok_ok (x := sharedFrameHistory.1.flush (fun _ => some 24) 0) (by decide +kernel)
  exact ⟨_, sharedFrameHistory.2, c', report, hf, by decide +kernel, by decide +kernel,
    by decide +kernel, sampled_allocations_accounted.2.2 _ hf⟩

end HeapSampler
