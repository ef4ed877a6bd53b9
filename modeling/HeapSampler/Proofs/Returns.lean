import HeapSampler.Proofs.Relocation
import HeapSampler.Proofs.Handles
import HeapSampler.Proofs.Pending
import HeapSampler.Bench.Collector

/-!
# Returns from calls

A return from a call settles the records waiting for their size, the most recent first, one at
a time with the host's answers and one draw each: a record whose object the host reports live
takes its size, and one whose object is gone loses its handle and its heap entry; then it stays
in the ledger only if the retain rate admits its draw.

Each step is described on a collector whose records are kept right (`OwnedWith`) and whose tables
count the stored frames (`TablesHold`).  A record's heap entry is then under its own handle, so
the entry a step takes out is the record's own, and every letting go succeeds.  The steps are
composed along the batch with the ledger read as the records kept so far, then the records still
to settle, then the rest (`settleAll_spec`).

## Main definitions

* `Rate.retained` — the records of a batch that a rate keeps.
* `SampleRecord.measured` — a pending record once its object is measured.
* `Collector.goneEntry` — the heap entries a return takes out.
* `Collector.Returned` — what a return leaves.

## Main results

* `Collector.settle_spec` — one pending record settled.
* `Collector.settleAll_spec` — a batch of pending records settled.
* `return_settles_pending` — a return on a collector reached along a history whose sites the
  hash tells apart succeeds and does what `Returned` says; with nothing pending, or with the lock
  held by a capture, nothing changes.
-/

namespace HeapSampler

/-- The records of a batch that a rate keeps, in order, the record at place `i` drawing
`draws (start + i)`. -/
def Rate.retained {α : Type} (r : Rate) (draws : Nat → UInt32) : Nat → List α → List α
  | _, [] => []
  | i, x :: xs =>
    if r.admits (draws i) then x :: r.retained draws (i + 1) xs else r.retained draws (i + 1) xs

/-- A rate keeps some of a batch's records, in order. -/
theorem Rate.retained_sublist {α : Type} (r : Rate) (draws : Nat → UInt32) (i : Nat) (l : List α) :
    (r.retained draws i l).Sublist l := by
  induction l generalizing i with
  | nil => exact List.Sublist.slnil
  | cons x l ih =>
    rw [Rate.retained]
    split
    · exact (ih (i + 1)).cons_cons x
    · exact (ih (i + 1)).cons x

/-- A rate keeps of a batch what it keeps of its head, then what it keeps of its tail. -/
theorem Rate.retained_cons {α : Type} (r : Rate) (draws : Nat → UInt32) (i : Nat) (x : α)
    (l : List α) : r.retained draws i (x :: l) = r.retained draws i [x] ++ r.retained draws (i + 1) l := by
  by_cases ha : r.admits (draws i) <;> simp [Rate.retained, ha]

/-- A pending record once its object is measured: it takes the size of a live object, and loses
the handle of a dead one. -/
def SampleRecord.measured (probe : UInt64 → Option UInt64) (r : SampleRecord) : SampleRecord :=
  match (if r.handle = 0 then none else probe r.handle) with
  | some size => r.resolveSize size
  | none => r.clearHandle

/-- Clearing an absent handle changes nothing. -/
theorem SampleRecord.clearHandle_of_handle_eq_zero {r : SampleRecord} (h : r.handle = 0) :
    r.clearHandle = r := by
  obtain ⟨bt, allocated, current, handle⟩ := r
  dsimp only at h
  subst h
  rfl

namespace Collector

/-- A heap entry that settling the records `ids` takes out: one of theirs, under a handle whose
object the host reports gone. -/
def goneEntry (probe : UInt64 → Option UInt64) (ids : List RecordId) (e : UInt64 × RecordId) :
    Bool :=
  decide (e.2 ∈ ids) && e.1 != 0 && (probe e.1).isNone

variable {s : Collector} {P : Set (UInt64 × Int64)}

/-! ### One pending record -/

/-- A record of the ledger that the heap index also holds has two holders. -/
theorem OwnedWith.two_owners (ho : s.OwnedWith [] []) {x : RecordId} (hx : x ∈ s.ledger.records)
    {k : UInt64} (hk : (k, x) ∈ s.heap.entries) : 2 ≤ s.store.owners x := by
  have hl : 0 < s.ledger.records.count x := List.count_pos_iff.2 hx
  have hh : 0 < s.heap.records.count x := List.count_pos_iff.2 (HeapIndex.mem_records.2 ⟨k, hk⟩)
  rw [ho.owners_eq_count]
  omega

/-- With records kept right, settling the record `x` takes out the heap entries under its own
handle, and those only when it has one and the host reports its object gone. -/
theorem OwnedWith.goneEntry_singleton (probe : UInt64 → Option UInt64) (ho : s.OwnedWith [] [])
    {x : RecordId} {r : SampleRecord} (hr : s.store.get? x = some r) {e : UInt64 × RecordId}
    (he : e ∈ s.heap.entries) :
    goneEntry probe [x] e = (e.1 == r.handle && r.handle != 0 && (probe r.handle).isNone) := by
  by_cases hex : e.2 = x
  · -- The record's entry is under its own handle.
    obtain ⟨r', hr', hk⟩ := ho.entry_handle e.1 e.2 he
    rw [hex, hr, Option.some.injEq] at hr'
    have hk' : e.1 = r.handle := by rw [← hk, hr']
    simp [goneEntry, hex, hk']
  · by_cases h0 : r.handle = 0
    · simp [goneEntry, hex, h0]
    -- The record's own handle holds the record, so another record's entry is elsewhere.
    obtain hm | hm := ho.handle_entry x r hr h0
    swap
    · cases hm
    have hk : e.1 ≠ r.handle := by
      intro hk
      have hge : s.heap.get? e.1 = some e.2 := (HeapIndex.get?_eq_some_iff ho.handles_nodup).2 he
      rw [hk, (HeapIndex.get?_eq_some_iff ho.handles_nodup).2 hm] at hge
      exact hex (Option.some.inj hge).symm
    simp [goneEntry, hex, hk]

/-- Measuring a pending record: it takes its measurement, and the heap index lets go of it when
its object is gone. -/
theorem measure_spec (probe : UInt64 → Option UInt64) (ho : s.OwnedWith [] []) (ht : s.TablesHold P)
    {x : RecordId}
    (hx : x ∈ s.ledger.records) {r : SampleRecord} (hr : s.store.get? x = some r) :
    ∃ s₁, s.measure probe x = .ok s₁ ∧
      s₁ = { s with
        heap := { s.heap with entries := s.heap.entries.filter fun e => !goneEntry probe [x] e },
        store := s₁.store, locations := s₁.locations, strings := s₁.strings } ∧
      s₁.store.get? x = some (r.measured probe) ∧ ∀ y ≠ x, s₁.store.get? y = s.store.get? y := by
  have hh : s.handleOf x = r.handle := handleOf_eq hr
  -- While the object is not reported gone, no entry goes.
  have hkeep : r.handle = 0 ∨ probe r.handle ≠ none →
      s.heap.entries.filter (fun e => !goneEntry probe [x] e) = s.heap.entries := by
    intro hlive
    rw [List.filter_eq_self]
    intro e he
    rw [ho.goneEntry_singleton probe hr he]
    rcases hlive with h0 | hp
    · simp [h0]
    · simp [Option.isSome_iff_ne_none, hp]
  by_cases h0 : r.handle = 0
  · -- No handle: nothing is measured.
    refine ⟨s, by simp [measure, hh, h0], by rw [hkeep (.inl h0)], ?_, fun _ _ => rfl⟩
    rw [hr, SampleRecord.measured, if_pos h0]
    exact (congrArg some (SampleRecord.clearHandle_of_handle_eq_zero h0)).symm
  cases hp : probe r.handle with
  | some size =>
    -- A live object: the record takes its size.
    refine ⟨s.updateRecord x (·.resolveSize size), by simp [measure, hh, h0, hp], ?_, ?_,
      fun y hy => store_get?_of_updateRecord s _ hy⟩
    · rw [hkeep (.inr (by rw [hp]; exact Option.some_ne_none size))]
      rfl
    · rw [updateRecord_store, RecordStore.get?_update, if_pos rfl, hr, SampleRecord.measured,
        if_neg h0, hp]
      rfl
  | none =>
    -- A dead object: its entry goes, and the heap index lets go of the record.
    obtain hm | hm := ho.handle_entry x r hr h0
    swap
    · cases hm
    have hg : s.heap.get? r.handle = some x := (HeapIndex.get?_eq_some_iff ho.handles_nodup).2 hm
    have hrem : s.heap.removeIfSame r.handle x = ((s.heap.remove r.handle).1, some x) := by
      rw [HeapIndex.removeIfSame_of_get? hg]
      exact Prod.ext rfl (by rw [HeapIndex.remove_snd, hg])
    have ht₀ : ({ s with heap := (s.heap.remove r.handle).1 } : Collector).TablesHold P :=
      ht.of_eq rfl rfl rfl
    obtain ⟨s₁, h₁⟩ := ht₀.release_ok x
    have hmeasure : s.measure probe x = .ok (s₁.updateRecord x SampleRecord.clearHandle) := by
      simp only [measure, hh, if_neg h0, hp, hrem]
      rw [h₁]
      rfl
    have hfilter : s.heap.entries.filter (fun e => !goneEntry probe [x] e) =
        s.heap.entries.filter (·.1 != r.handle) := by
      refine List.filter_congr fun e he => ?_
      simp [ho.goneEntry_singleton probe hr he, h0, hp, bne]
    have hs₁ : s₁.store = (s.store.release x).1 := by
      rw [release_eq_ok h₁]
    refine ⟨_, hmeasure, ?_, ?_, fun y hy => ?_⟩
    · rw [hfilter, ← HeapIndex.remove_fst, release_eq_ok h₁]
      rfl
    · have h2 := ho.two_owners hx hm
      rw [updateRecord_store, RecordStore.get?_update, if_pos rfl, hs₁,
        RecordStore.get?_release_self, if_neg (by omega), hr, SampleRecord.measured, if_neg h0, hp]
      rfl
    · rw [store_get?_of_updateRecord _ _ hy, hs₁, RecordStore.get?_release_of_ne hy]

/-- Thinning a record of the ledger: it stays if the retain rate admits its draw; otherwise it
leaves the ledger and is let go of, and is gone unless the heap index still holds it. -/
theorem thin_spec (ho : s.OwnedWith [] []) (ht : s.TablesHold P) {x : RecordId}
    (hx : x ∈ s.ledger.records) (draw : UInt32) :
    ∃ s', s.thin x draw = .ok s' ∧
      s' = { s with
        ledger := { s.ledger with
          records := if s.retainRate.admits draw then s.ledger.records else s.ledger.records.erase x },
        store := s'.store, locations := s'.locations, strings := s'.strings } ∧
      s'.store.get? x = (if x ∈ s'.holdings then s.store.get? x else none) ∧
      ∀ y ≠ x, s'.store.get? y = s.store.get? y := by
  cases ha : s.retainRate.admits draw
  · -- Refused: the ledger lets go of the record.
    have ht₀ : ({ s with ledger := { s.ledger with records := s.ledger.records.erase x } } :
        Collector).TablesHold P :=
      ht.of_eq rfl rfl rfl
    obtain ⟨s', h'⟩ := ht₀.release_ok x
    have hthin : s.thin x draw = .ok s' := by
      simp only [thin, ha, Bool.false_eq_true, ite_false, Ledger.unlink, if_pos hx]
      exact h'
    have hs' : s'.store = (s.store.release x).1 := by
      rw [release_eq_ok h']
    -- The ledger held the record once; what is left of its holders is the heap index.
    have hc := ho.recordsOwned.owners_eq x
    rw [if_pos hx] at hc
    have hmem : x ∈ s'.holdings ↔ x ∈ s.heap.records := by
      rw [release_eq_ok h', holdings, List.mem_append]
      exact ⟨fun h => h.resolve_left (ho.ledger_nodup.not_mem_erase), .inr⟩
    refine ⟨s', hthin, ?_, ?_, fun y hy => ?_⟩
    · simp only [Bool.false_eq_true, ite_false]
      rw [release_eq_ok h']
    · rw [hs', RecordStore.get?_release_self]
      by_cases hh : x ∈ s.heap.records
      · rw [if_pos hh] at hc
        rw [if_neg (by omega), if_pos (hmem.2 hh)]
      · rw [if_neg hh] at hc
        rw [if_pos (by omega), if_neg (fun h => hh (hmem.1 h))]
    · rw [hs', RecordStore.get?_release_of_ne hy]
  · -- Admitted: nothing changes.
    have hthin : s.thin x draw = .ok s := by
      simp [thin, ha]
    refine ⟨s, hthin, by simp only [ite_true], ?_, fun _ _ => rfl⟩
    rw [if_pos (show x ∈ s.holdings from List.mem_append_left _ hx)]

/-- **Settling one pending record.**  On a collector whose records are kept right and whose
tables count the stored frames, settling a record of the ledger succeeds: the record takes its
measurement, its heap entry goes when its object is gone, it leaves the ledger when the retain
rate refuses its draw, and it stays stored as long as a container holds it.  No other record
changes. -/
theorem settle_spec (probe : UInt64 → Option UInt64) (ho : s.OwnedWith [] []) (ht : s.TablesHold P)
    {x : RecordId}
    (hx : x ∈ s.ledger.records) (draw : UInt32) :
    ∃ s', s.settle probe x draw = .ok s' ∧
      s' = { s with
        ledger := { s.ledger with
          records := if s.retainRate.admits draw then s.ledger.records else s.ledger.records.erase x },
        heap := { s.heap with entries := s.heap.entries.filter fun e => !goneEntry probe [x] e },
        store := s'.store, locations := s'.locations, strings := s'.strings } ∧
      s'.store.get? x = (if x ∈ s'.holdings then (s.store.get? x).map (·.measured probe) else none) ∧
      ∀ y ≠ x, s'.store.get? y = s.store.get? y := by
  obtain ⟨r, hr⟩ := ho.counts.exists_get? (List.mem_append_left _ (List.mem_append_left _ hx))
  obtain ⟨s₁, hm, e₁, hx₁, hy₁⟩ := measure_spec probe ho ht hx hr
  have ho₁ : s₁.OwnedWith [] [] := ho.measure hm
  have ht₁ : s₁.TablesHold P := ht.releases (measure_releases hm)
  have hl₁ : x ∈ s₁.ledger.records := by
    rw [e₁]
    exact hx
  obtain ⟨s', hthin, e', hx', hy'⟩ := thin_spec ho₁ ht₁ hl₁ draw
  refine ⟨s', by rw [settle_eq, hm]; exact hthin, e'.trans ?_, ?_, fun y hy => ?_⟩
  · rw [e₁]
  · rw [hx', hx₁, hr]
    rfl
  · rw [hy' y hy, hy₁ y hy]

/-! ### A batch of pending records -/

/-- Settling `x` and then `ids` takes out the entries that settling `x :: ids` takes out. -/
theorem goneEntry_cons (probe : UInt64 → Option UInt64) (x : RecordId) (ids : List RecordId)
    (e : UInt64 × RecordId) :
    goneEntry probe (x :: ids) e = (goneEntry probe [x] e || goneEntry probe ids e) := by
  unfold goneEntry
  cases (e.1 != 0) <;> cases (probe e.1).isNone <;> simp

/-- **Settling a batch of pending records.**  On a collector whose records are kept right and
whose tables count the stored frames, with the ledger made of the records `kept`, a batch `ids`
of distinct records, then the rest, settling the batch with the draws from `i` on succeeds.  The
ledger becomes `kept`, the records of the batch that the retain rate keeps, then the rest; the
heap index loses the entries of the batch's dead objects; each record of the batch takes its
measurement and stays stored as long as a container holds it; no other record changes. -/
theorem settleAll_spec (probe : UInt64 → Option UInt64) (draws : Nat → UInt32) {ids : List RecordId}
    (hnd : ids.Nodup) :
    ∀ {s : Collector} {i : Nat} {kept rest : List RecordId}, s.OwnedWith [] [] →
      s.TablesHold P → s.ledger.records = kept ++ ids ++ rest → (∀ x ∈ ids, x ∉ kept) →
      ∃ s', settleAll probe draws s i ids = .ok s' ∧
        s' = { s with
          ledger := { s.ledger with records := kept ++ s.retainRate.retained draws i ids ++ rest },
          heap := { s.heap with entries := s.heap.entries.filter fun e => !goneEntry probe ids e },
          store := s'.store, locations := s'.locations, strings := s'.strings } ∧
        (∀ x ∈ ids, s'.store.get? x =
          if x ∈ s'.holdings then (s.store.get? x).map (·.measured probe) else none) ∧
        ∀ y ∉ ids, s'.store.get? y = s.store.get? y := by
  induction ids with
  | nil =>
    intro s i kept rest _ _ hl _
    refine ⟨s, rfl, ?_, fun x hx => absurd hx List.not_mem_nil, fun _ _ => rfl⟩
    have hheap : s.heap.entries.filter (fun e => !goneEntry probe [] e) = s.heap.entries := by
      simp [goneEntry]
    rw [hheap, Rate.retained, ← hl]
  | cons x ids ih =>
    intro s i kept rest ho ht hl hfresh
    rw [List.nodup_cons] at hnd
    have hx : x ∈ s.ledger.records := by
      rw [hl]
      simp
    obtain ⟨s₁, h₁, e₁, hx₁, hy₁⟩ := settle_spec probe ho ht hx (draws i)
    have h₁' : settleAll probe draws s i [x] = .ok s₁ := by
      simp only [settleAll, bind, Except.bind, h₁]
    have ho₁ : s₁.OwnedWith [] [] := ho.settleAll h₁'
    have ht₁ : s₁.TablesHold P := ht.releases (settleAll_releases h₁')
    -- The record just settled joins the kept ones, or leaves the ledger.
    set kept₁ := kept ++ s.retainRate.retained draws i [x]
    have hl₁ : s₁.ledger.records = kept₁ ++ ids ++ rest := by
      rw [e₁]
      dsimp only
      rw [hl]
      by_cases ha : s.retainRate.admits (draws i)
      · simp [kept₁, Rate.retained, ha]
      · simp only [kept₁, Rate.retained, ha, Bool.false_eq_true, ite_false, List.append_nil,
          List.append_assoc, List.cons_append]
        rw [List.erase_append_right _ (hfresh x List.mem_cons_self), List.erase_cons_head]
    have hfresh₁ : ∀ y ∈ ids, y ∉ kept₁ := by
      intro y hy hk
      rcases List.mem_append.1 hk with hk | hk
      · exact hfresh y (List.mem_cons_of_mem x hy) hk
      · have hyx : y = x := List.mem_singleton.1 ((Rate.retained_sublist _ _ _ _).subset hk)
        exact hnd.1 (hyx ▸ hy)
    obtain ⟨s', h', e', hx', hy'⟩ := ih hnd.2 (i := i + 1) ho₁ ht₁ hl₁ hfresh₁
    have hrate : s₁.retainRate = s.retainRate := by rw [e₁]
    have hheap₁ : s₁.heap.entries = s.heap.entries.filter fun e => !goneEntry probe [x] e := by
      rw [e₁]
    -- The record just settled is held afterwards exactly when it was held right after its step.
    have hheld : x ∈ s'.holdings ↔ x ∈ s₁.holdings := by
      have hxr : x ∉ s₁.retainRate.retained draws (i + 1) ids :=
        fun h => hnd.1 ((Rate.retained_sublist _ _ _ _).subset h)
      have hled : x ∈ s'.ledger.records ↔ x ∈ s₁.ledger.records := by
        rw [e', hl₁]
        simp [hxr, hnd.1]
      have hkeep : x ∈ s'.heap.records ↔ x ∈ s₁.heap.records := by
        rw [HeapIndex.mem_records, HeapIndex.mem_records, e']
        simp [goneEntry, hnd.1]
      rw [holdings, holdings, List.mem_append, List.mem_append, hled, hkeep]
    refine ⟨s', ?_, e'.trans ?_, fun y hy => ?_, fun y hy => ?_⟩
    · simp only [settleAll, bind, Except.bind, h₁]
      exact h'
    · rw [hrate, hheap₁, List.filter_filter]
      have hled : kept₁ ++ s.retainRate.retained draws (i + 1) ids ++ rest =
          kept ++ s.retainRate.retained draws i (x :: ids) ++ rest := by
        rw [Rate.retained_cons, ← List.append_assoc]
      have hgone : (s.heap.entries.filter fun e =>
          !goneEntry probe ids e && !goneEntry probe [x] e) =
          s.heap.entries.filter fun e => !goneEntry probe (x :: ids) e := by
        refine List.filter_congr fun e _ => ?_
        rw [goneEntry_cons probe x ids e, Bool.not_or, Bool.and_comm]
      rw [hled, hgone, e₁]
    · rcases List.mem_cons.1 hy with rfl | hy
      · rw [hy' y hnd.1, hx₁, if_congr hheld.symm rfl rfl]
      · have hne : y ≠ x := fun e => hnd.1 (e ▸ hy)
        rw [hx' y hy, hy₁ y hne]
    · rw [List.mem_cons, not_or] at hy
      rw [hy' y hy.2, hy₁ y hy.1]

/-! ### A return -/

/-- What a return leaves of `c` in `c'`, with the host's answers `probe` and the retain draws
`draws`: nothing pending; in the ledger, the pending records that the retain rate keeps, then the
older ones; in the heap index, every entry but those of pending records whose objects are gone;
each pending record measured, and stored as long as a container holds it; every other record as
it was. -/
structure Returned (probe : UInt64 → Option UInt64) (draws : Nat → UInt32) (c c' : Collector) :
    Prop where
  /-- Only the pending count, the two containers, the store and the tables change. -/
  eq : c' = { c with
    pending := 0,
    ledger := { c.ledger with
      records := c.retainRate.retained draws 0 (c.ledger.records.take c.pending) ++
        c.ledger.records.drop c.pending },
    heap := { c.heap with
      entries := c.heap.entries.filter fun e => !goneEntry probe (c.ledger.records.take c.pending) e },
    store := c'.store, locations := c'.locations, strings := c'.strings }
  /-- A pending record is measured, and is gone once no container holds it. -/
  pending_get? : ∀ x ∈ c.ledger.records.take c.pending,
    c'.store.get? x = if x ∈ c'.holdings then (c.store.get? x).map (·.measured probe) else none
  /-- Every other record is as it was. -/
  other_get? : ∀ y ∉ c.ledger.records.take c.pending, c'.store.get? y = c.store.get? y

/-- A return on a collector whose records are kept right and whose tables count the stored
frames, with records pending and no more than the ledger holds, does what `Returned` says. -/
theorem onReturn_spec {c : Collector} (ho : c.OwnedWith [] []) (ht : c.TablesHold P)
    (hle : c.pending ≤ c.ledger.records.length) (hp : c.pending ≠ 0)
    (probe : UInt64 → Option UInt64) (draws : Nat → UInt32) :
    ∃ c', c.onReturn probe draws = .ok c' ∧ Returned probe draws c c' := by
  have hnd : (c.ledger.records.take c.pending).Nodup :=
    ho.ledger_nodup.sublist (List.take_sublist _ _)
  have hl : c.ledger.records = [] ++ c.ledger.records.take c.pending ++ c.ledger.records.drop c.pending := by
    rw [List.nil_append, List.take_append_drop]
  obtain ⟨c₁, hs, e₁, hx₁, hy₁⟩ :=
    settleAll_spec probe draws hnd (i := 0) ho ht hl fun _ _ h => List.not_mem_nil h
  refine ⟨{ c₁ with pending := 0 }, ?_, ⟨?_, hx₁, hy₁⟩⟩
  · rw [onReturn_eq_settleAll hle, if_neg hp, hs]
    rfl
  · rw [e₁, List.nil_append]

end Collector

/-- **A return settles exactly the pending records.**  In a collector that a history reaches, if
the location hash tells apart the sites the history interned and records are pending, a return
succeeds whatever the host answers and whatever the draws: it settles the pending records, the
first ones of the ledger, and no other (`Collector.Returned`).  With nothing pending a return
changes nothing, and a return from another thread while a capture holds the lock is skipped. -/
theorem return_settles_pending :
    (∀ (c : Collector) (t : History c), Set.InjOn (Function.uncurry locationId) {p | p ∈ t.sites} →
      c.pending ≠ 0 → ∀ probe draws,
        ∃ c', c.onReturn probe draws = .ok c' ∧ Collector.Returned probe draws c c') ∧
    (∀ (c : Collector) probe draws, c.pending = 0 → c.onReturn probe draws = .ok c) ∧
    ∀ (b : Bench.CollectorBench) (d : Nat), d ≠ 0 →
      b.simpleStep d .onReturnElsewhere = .ok (b, .ok) := by
  refine ⟨fun c t hfree hp probe draws => ?_, fun c probe draws hp => ?_, fun b d hd => ?_⟩
  · have ho : c.OwnedWith [] [] := Collector.owned_invariant.holds t
    have ht : c.TablesHold {p | p ∈ t.sites} := History.tablesHold hfree t fun _ hp => hp
    have hle : c.pending ≤ c.ledger.records.length := (pending_records_pushed_since_reset t).2.1
    exact Collector.onReturn_spec ho ht hle hp probe draws
  · rw [Collector.onReturn, if_pos hp]
    rfl
  · rw [Bench.CollectorBench.simpleStep, if_neg hd]
    rfl

/-- After `sharedFrameHistory` both records are pending; with the object of handle `7` gone, a
return settles them, letting go of the heap entry of `7` while the record of `8` keeps their
shared function and location. -/
theorem return_settles_shared_frames :
    ∃ (c : Collector) (t : History c), Set.InjOn (Function.uncurry locationId) {p | p ∈ t.sites} ∧
      c.pending = 2 ∧ ∃ c', c.onReturn (fun h => if h = 7 then none else some 24) (fun _ => 0) = .ok c' ∧
        Collector.Returned (fun h => if h = 7 then none else some 24) (fun _ => 0) c c' := by
  have hp : sharedFrameHistory.1.pending = 2 := by
    decide +kernel
  exact ⟨_, _, sharedFrameHistory_injOn, hp,
    return_settles_pending.1 _ _ sharedFrameHistory_injOn (by rw [hp]; decide) _ _⟩

/-- A started collector that keeps no record past a return sampled two objects, one in each
function of `locationId_collision` at line `0`.  Both frames were interned as one location, in
the first function. -/
noncomputable def unretainedHistory : Σ c, History c :=
  ⟨_, .events (@History.start _ _ (.ok ()) (.new Rate.always Rate.never .fast 4 4) (.ok ()) rfl)
    (.allocCaptured 1 40 0 .fast
      [{ functionId := 15368651960797290627, name := "a", file := "f", startLine := 1 }]
      rfl (.nil _ _) rfl
      (.allocCaptured 2 40 0 .fast
        [{ functionId := 2981100479311591759, name := "b", file := "g", startLine := 1 }]
        rfl (.nil _ _) rfl (.nil _ _)))⟩

/-- Without the hash telling the sites apart a return can abort: with both objects gone and no
record kept, letting go of both records releases the first function twice. -/
theorem return_aborts_on_collision :
    ¬Set.InjOn (Function.uncurry locationId) {p | p ∈ unretainedHistory.2.sites} ∧
      unretainedHistory.1.pending ≠ 0 ∧
      ∃ e, unretainedHistory.1.onReturn (fun _ => none) (fun _ => 0) = .error e := by
  refine ⟨History.not_injOn_of_collision (by decide +kernel) (by decide +kernel), by decide +kernel, ?_⟩
  apply Except.exists_error_of_toBool
  decide +kernel

end HeapSampler
