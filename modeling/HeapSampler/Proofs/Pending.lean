import HeapSampler.Proofs.Frame
import HeapSampler.Proofs.Run

/-!
# The records waiting for their size

An allocation that is sampled pushes its record onto the front of the ledger and counts it as
pending; the next return measures the first `pending` records of the ledger, and then none is
pending.  The count is kept apart from the list it describes, which returns thin and which
starts and exports empty, so nothing in the code ties the two together.

This file proves that they never drift apart.  A `SizeLog`, read off a history by recursion,
records what the ledger ought to start with: the records pushed since the last start that
cleared the collector, export, or return that found something pending, the most recent first,
with the records that earlier returns measured.  Every call and event keeps the log true of the
collector (`History.sizeLog_valid`), so a return never finds more pending than the ledger holds,
and measures every record once at most.

## Main definitions

* `SizeLog`, `EventRun.sizeLog`, `History.sizeLog` — what a history pushed and measured.

## Main results

* `History.sizeLog_valid` — the log of every history is true of the collector it leads to.
* `pending_records_pushed_since_reset` — the pending records are the ones pushed since the last
  reset, and a return measures each record once at most.
-/

namespace HeapSampler

/-! ### The log of a history -/

/-- What the returns of a run have to do with the records it pushed. -/
structure SizeLog where
  /-- The records pushed since the last reset, the most recent first. -/
  pushed : List RecordId
  /-- The records that earlier returns measured. -/
  measured : List RecordId

namespace SizeLog

/-- A start or an export: what was pushed before no longer waits. -/
def reset (g : SizeLog) : SizeLog := { g with pushed := [] }

/-- A return on `c` measures the first `c.pending` records of the ledger, unless none is
pending; then what was pushed no longer waits. -/
def afterReturn (c : Collector) (g : SizeLog) : SizeLog :=
  if c.pending = 0 then g else ⟨[], g.measured ++ c.ledger.records.take c.pending⟩

/-- The second half of an allocation on `c` pushes a record, named `c.store.nextId`, when
there is room. -/
def afterCapture (c : Collector) (g : SizeLog) : SizeLog :=
  if c.checkRoom.2 then { g with pushed := c.store.nextId :: g.pushed } else g

end SizeLog

/-- The log of a run of events, from the log before it. -/
def EventRun.sizeLog {d : Nat} {c c' : Collector} : EventRun d c c' → SizeLog → SizeLog
  | .nil _ _, g => g
  | .free _ _ rest, g => rest.sizeLog g
  | @EventRun.ret _ c _ _ _ _ _ rest, g => rest.sizeLog (g.afterReturn c)
  | .alloc _ _ _ rest, g => rest.sizeLog g
  | .allocFailed _ _ _ _ nested rest, g => rest.sizeLog (nested.sizeLog g)
  | @EventRun.allocCaptured _ _ _ c₂ _ _ _ _ _ _ _ _ nested _ rest, g =>
    rest.sizeLog ((nested.sizeLog g).afterCapture c₂)

/-- The log of a history: a start that clears (one on a stopped collector) and an export reset
it. -/
def History.sizeLog {c : Collector} : History c → SizeLog
  | .new .. => ⟨[], []⟩
  | @History.start c _ _ prev _ _ => if c.running then prev.sizeLog else prev.sizeLog.reset
  | .stop prev _ => prev.sizeLog
  | .configure prev _ _ => prev.sizeLog
  | .setSampleRate prev _ _ => prev.sizeLog
  | .setRetainRate prev _ _ => prev.sizeLog
  | .setMaxAllocationSamples prev _ => prev.sizeLog
  | .setMaxHeapSamples prev _ => prev.sizeLog
  | .setMethod prev _ => prev.sizeLog
  | .relocate prev _ _ => prev.sizeLog
  | .flush prev _ _ _ => prev.sizeLog.reset
  | .events prev run => run.sizeLog prev.sizeLog

/-! ### The log is true -/

namespace SizeLog

/-- The log tells the truth about `c`: the pending records are the first of the ledger and are
those pushed since the last reset, and the records measured before are older ones. -/
structure Valid (g : SizeLog) (c : Collector) : Prop where
  /-- The pending records are the ones pushed since the last reset. -/
  take_pending : c.ledger.records.take c.pending = g.pushed
  /-- No more are pending than the ledger holds. -/
  pending_le : c.pending ≤ c.ledger.records.length
  /-- Every record the log names was made already. -/
  lt_nextId : ∀ id ∈ g.pushed ++ g.measured, id < c.store.nextId
  /-- A measured record is not pending again. -/
  disjoint : ∀ id ∈ g.measured, id ∉ g.pushed

namespace Valid

variable {g : SizeLog} {c c' : Collector}

/-- The log looks at the ledger, the pending count and the next name only. -/
theorem of_eq (hv : g.Valid c) (hl : c'.ledger.records = c.ledger.records) (hp : c'.pending = c.pending)
    (hn : c'.store.nextId = c.store.nextId) : g.Valid c' where
  take_pending := by rw [hl, hp]; exact hv.take_pending
  pending_le := by rw [hl, hp]; exact hv.pending_le
  lt_nextId := by rw [hn]; exact hv.lt_nextId
  disjoint := hv.disjoint

theorem same (hv : g.Valid c) (hs : Collector.SameCounts c c') : g.Valid c' :=
  hv.of_eq hs.records hs.pending hs.nextId

/-- The first half of an allocation forgets a handle and counts drops only. -/
theorem beginAlloc {h : UInt64} {draw : UInt32} {d : Nat} {m : Option CaptureMethod}
    (hv : g.Valid c) (hb : c.beginAlloc h draw d = .ok (c', m)) : g.Valid c' := by
  obtain ⟨c₀, he, hd⟩ := Collector.beginAlloc_eq_ok hb
  have e := Collector.sampleDecision_fst c₀ draw d
  rw [hd] at e
  dsimp only at e
  exact (hv.same (Collector.SameCounts.of_evict he)).of_eq (by rw [e]) (by rw [e]) (by rw [e])

theorem reset (hv : g.Valid c) (hp : c'.pending = 0) (hn : c'.store.nextId = c.store.nextId) :
    g.reset.Valid c' where
  take_pending := by rw [hp, List.take_zero]; rfl
  pending_le := by rw [hp]; exact Nat.zero_le _
  lt_nextId id hid := by
    rw [hn]
    exact hv.lt_nextId id (List.mem_append_right _ (by simpa [SizeLog.reset] using hid))
  disjoint _ _ h := by cases h

theorem afterReturn (hv : g.Valid c) (hp0 : c.pending ≠ 0) (hp : c'.pending = 0)
    (hn : c'.store.nextId = c.store.nextId) : (g.afterReturn c).Valid c' := by
  rw [SizeLog.afterReturn, if_neg hp0, hv.take_pending]
  refine ⟨by rw [hp, List.take_zero], by rw [hp]; exact Nat.zero_le _, fun id hid => ?_,
    fun _ _ h => by cases h⟩
  rw [hn]
  refine hv.lt_nextId id ?_
  simp only [List.nil_append, List.mem_append] at hid ⊢
  exact hid.symm

theorem push (hv : g.Valid c) (hl : c'.ledger.records = c.store.nextId :: c.ledger.records)
    (hp : c'.pending = c.pending + 1) (hn : c'.store.nextId = c.store.nextId + 1) :
    ({ g with pushed := c.store.nextId :: g.pushed } : SizeLog).Valid c' where
  take_pending := by rw [hl, hp, List.take_succ_cons, hv.take_pending]
  pending_le := by rw [hl, hp, List.length_cons]; exact Nat.succ_le_succ hv.pending_le
  lt_nextId id hid := by
    rw [hn]
    simp only [List.cons_append, List.mem_cons] at hid
    rcases hid with rfl | hid
    · exact Nat.lt_succ_self _
    · exact Nat.lt_succ_of_lt (hv.lt_nextId id hid)
  disjoint id hid h := by
    rcases List.mem_cons.1 h with rfl | h
    · exact Nat.lt_irrefl _ (hv.lt_nextId _ (List.mem_append_right _ hid))
    · exact hv.disjoint id hid h

end Valid

end SizeLog

open Collector

/-- Every run of events keeps the log true, captures included. -/
theorem EventRun.sizeLog_valid {d : Nat} {c c' : Collector} (r : EventRun d c c') {g : SizeLog}
    (hv : g.Valid c) : (r.sizeLog g).Valid c' := by
  induction r generalizing g with
  | nil => exact hv
  | free h hs rest ih => exact ih (hv.same (SameCounts.of_evict hs))
  | @ret d c c₁ c₂ probe draws hs rest ih =>
    simp only [EventRun.sizeLog]
    by_cases hp : c.pending = 0
    · rcases onReturn_eq_ok hs with ⟨-, rfl⟩ | ⟨hp', -⟩
      · rw [SizeLog.afterReturn, if_pos hp]
        exact ih hv
      · exact absurd hp hp'
    · obtain ⟨c₃, -, e, rfl⟩ := onReturn_frame hp hs
      exact ih (hv.afterReturn hp rfl e.nextId)
  | alloc h draw hs rest ih => exact ih (hv.beginAlloc hs)
  | allocFailed h draw m hs nested rest ihn ih => exact ih (ihn (hv.beginAlloc hs))
  | @allocCaptured d c c₁ c₂ c₃ c₄ h size draw m frames hs nested hf rest ihn ih =>
    simp only [EventRun.sizeLog]
    have hv₂ := ihn (hv.beginAlloc hs)
    refine ih ?_
    rw [SizeLog.afterCapture]
    rcases finishAlloc_frame hf with ⟨hroom, he⟩ | ⟨hc, hl, hp, hn, -⟩
    · rw [if_neg (by rw [hroom]; exact Bool.false_ne_true)]
      have e := checkRoom_fst c₂
      exact (hv₂.of_eq (by rw [e]) (by rw [e]) (by rw [e])).same he
    · rw [if_pos (by rw [hc])]
      exact hv₂.push hl hp hn

/-- Every history leaves its log true. -/
theorem History.sizeLog_valid {c : Collector} (t : History c) : t.sizeLog.Valid c := by
  induction t with
  | new => exact ⟨rfl, Nat.zero_le _, (fun _ h => by cases h), fun _ h => by cases h⟩
  | @start c c' r prev hooks hs ih =>
    simp only [History.sizeLog]
    rcases start_eq_ok hs with ⟨hr, rfl⟩ | ⟨hr, c₁, hc, e⟩
    · rw [if_pos hr]
      exact ih
    · rw [if_neg (by rw [hr]; exact Bool.false_ne_true)]
      obtain ⟨-, hp, hn, -⟩ := clear_frame hc
      rcases e with rfl | rfl
      · exact ih.reset hp hn
      · exact ih.reset hp hn
  | @stop c prev unhooks ih =>
    simp only [History.sizeLog]
    rcases stop_fst c unhooks with e | e
    · rw [e]; exact ih
    · rw [e]; exact ih.same ⟨rfl, rfl, rfl, rfl⟩
  | configure prev s hs ih =>
    simp only [History.sizeLog]
    rw [configure_eq_ok hs]
    exact ih.same ⟨rfl, rfl, rfl, rfl⟩
  | setSampleRate prev p hs ih =>
    simp only [History.sizeLog]
    rw [setSampleRate_eq_ok hs]
    exact ih.same ⟨rfl, rfl, rfl, rfl⟩
  | setRetainRate prev p hs ih =>
    simp only [History.sizeLog]
    rw [setRetainRate_eq_ok hs]
    exact ih.same ⟨rfl, rfl, rfl, rfl⟩
  | setMaxAllocationSamples prev n ih => exact ih.same ⟨rfl, rfl, rfl, rfl⟩
  | setMaxHeapSamples prev n ih => exact ih.same ⟨rfl, rfl, rfl, rfl⟩
  | setMethod prev m ih => exact ih.same ⟨rfl, rfl, rfl, rfl⟩
  | relocate prev remap hs ih => exact ih.same (SameCounts.of_relocate hs)
  | flush prev probe time hs ih =>
    obtain ⟨-, hp, hn, -⟩ := flush_frame hs
    exact ih.reset hp hn
  | events prev run ih => exact run.sizeLog_valid ih


/-- The records waiting for their size are the first of the ledger, and exactly those pushed
since the last start, export or return that measured something, the most recent first.  So a
return never finds more pending than the ledger holds: it settles exactly those records and
leaves none pending.  A record an earlier return measured is never pending again, and a return
leaves it as it is. -/
theorem pending_records_pushed_since_reset {c : Collector} (t : History c) :
    c.ledger.records.take c.pending = t.sizeLog.pushed ∧
      c.pending ≤ c.ledger.records.length ∧
      (∀ probe draws, c.onReturn probe draws =
        if c.pending = 0 then .ok c
        else (Collector.settleAll probe draws c 0 t.sizeLog.pushed).map
          fun c₁ => { c₁ with pending := 0 }) ∧
      (∀ id ∈ t.sizeLog.measured, id ∉ t.sizeLog.pushed) ∧
      (∀ probe draws c', c.onReturn probe draws = .ok c' →
        ∀ id ∈ t.sizeLog.measured, c'.store.get? id = c.store.get? id) := by
  have hv := t.sizeLog_valid
  refine ⟨hv.take_pending, hv.pending_le, fun probe draws => ?_, hv.disjoint, ?_⟩
  · rw [Collector.onReturn_eq_settleAll hv.pending_le, hv.take_pending]
  · intro probe draws c' hr id hid
    by_cases hp : c.pending = 0
    · rw [Collector.onReturn_eq_settleAll hv.pending_le, if_pos hp] at hr
      cases hr
      rfl
    · obtain ⟨c₂, -, e, rfl⟩ := Collector.onReturn_frame hp hr
      refine e.get? id ?_
      rw [hv.take_pending]
      exact hv.disjoint id hid

/-- After `sharedFrameHistory` both records wait for their size, the most recent first, and they
are the first two of the ledger. -/
theorem pending_after_shared_frames :
    ∃ (c : Collector) (t : History c), c.pending = 2 ∧ t.sizeLog.pushed = [1, 0] ∧
      c.ledger.records.take c.pending = t.sizeLog.pushed ∧ c.pending ≤ c.ledger.records.length :=
  ⟨_, sharedFrameHistory.2, by decide +kernel, by decide +kernel,
    (pending_records_pushed_since_reset sharedFrameHistory.2).1,
    (pending_records_pushed_since_reset sharedFrameHistory.2).2.1⟩

end HeapSampler
