import HeapSampler.Proofs.Frame
import HeapSampler.Proofs.Ownership

/-!
# Handles freed and reused

The host names objects by handles, and it may give the handle of a freed object to a new one
without reporting the free.  The heap index keeps one record per handle, so an allocation first
forgets whatever the index holds under its handle, on every path the allocation then takes: not
sampled, dropped, captured, or with a capture that fails.  The capture itself may fire further
events, among them allocations of the same handle.

A free forgets exactly the record under its handle (`Collector.Forgets`): the entry goes, the
record loses its handle, and the heap index lets go of it, which takes the record out of the
store unless the ledger still holds it.  An allocation of a handle, on any path and at any depth
of captures, leaves the record that was under the handle out of the heap index and without its
handle, changes the ledger only by pushing its own record, and leaves under the handle its own
record or one that an allocation fired during its capture pushed
(`Collector.AllocCall.Reuses`).  The events of the capture are arbitrary; what any run of events
can do is summed up by `Collector.Pushes`: the heap index only loses entries and gains entries of
new records, and an old record never gets its handle back.

## Main definitions

* `Collector.Pushes`, `EventRun.pushes` — the heap entries a run of events pushes.
* `Collector.Midway` — the collectors at which the host can fire an event.
* `Collector.AllocCall` — one allocation event, with the events of its capture.
* `Collector.Forgets`, `Collector.AllocCall.Reuses` — what a free and an allocation leave.

## Main results

* `Collector.Pushes.run` — what a run of events can do to the heap index.
* `Collector.OwnedWith.forgets`, `Collector.AllocCall.reuses`.
* `Collector.Midway.reuse_handle` — frees and allocations of a handle, wherever the host fires
  them.
-/

namespace HeapSampler

namespace HeapIndex

/-- The lookup of a handle finds one of the entries under it. -/
theorem mem_of_get? {ix : HeapIndex} {h : UInt64} {r : RecordId} (hg : ix.get? h = some r) :
    (h, r) ∈ ix.entries := by
  obtain ⟨e, he, rfl⟩ := Option.map_eq_some_iff.1 hg
  have hk : e.1 = h := by simpa using List.find?_some he
  rw [← hk]
  exact List.mem_of_find?_eq_some he

/-- With no entry under a handle, dropping its entries drops nothing. -/
theorem filter_of_get?_eq_none {ix : HeapIndex} {h : UInt64} (hg : ix.get? h = none) :
    ix.entries.filter (·.1 != h) = ix.entries := by
  rw [List.filter_eq_self]
  rintro ⟨k, x⟩ he
  have hk : k ≠ h := fun e => get?_eq_none_iff.1 hg x (e ▸ he)
  simpa using hk

/-- Removing a handle keeps the entries under the others, in order. -/
theorem remove_fst (ix : HeapIndex) (h : UInt64) :
    (ix.remove h).1 = { ix with entries := ix.entries.filter (·.1 != h) } := by
  unfold remove
  split
  · rfl
  · rename_i hg
    rw [filter_of_get?_eq_none hg]

end HeapIndex

namespace RecordStore

/-- Letting go of a record with one owner left takes it out, and one with more keeps it. -/
theorem get?_release_self (s : RecordStore) (id : RecordId) :
    (s.release id).1.get? id = if s.owners id ≤ 1 then none else s.get? id := by
  rw [get?_eq, find?_release, if_pos rfl, owners_eq, get?_eq]
  cases s.find? id with
  | none => simp
  | some e => by_cases h : e.owners ≤ 1 <;> simp [h]

theorem owners_release_self (s : RecordStore) (id : RecordId) :
    (s.release id).1.owners id = s.owners id - 1 := by
  rw [owners_eq, find?_release, if_pos rfl, owners_eq]
  cases s.find? id with
  | none => rfl
  | some e =>
    by_cases h : e.owners ≤ 1
    · simp only [Option.bind_some, h, ite_true, Option.map_none, Option.getD_none, Option.map_some,
        Option.getD_some]
      omega
    · simp [h]

/-- A release hands back the record it lets go of, and only one with a single owner left. -/
theorem release_snd_eq_some {s : RecordStore} {id : RecordId} {r : SampleRecord}
    (h : (s.release id).2 = some r) : s.get? id = some r ∧ s.owners id ≤ 1 := by
  rw [release_snd] at h
  rw [get?_eq, owners_eq]
  cases hf : s.find? id with
  | none =>
    rw [hf] at h
    cases h
  | some e =>
    rw [hf, Option.bind_some] at h
    by_cases ho : e.owners ≤ 1
    · rw [if_pos ho, Option.some.injEq] at h
      subst h
      exact ⟨rfl, ho⟩
    · rw [if_neg ho] at h
      cases h

theorem owners_update (s : RecordStore) (id x : RecordId) (f : SampleRecord → SampleRecord) :
    (s.update id f).owners x = s.owners x := by
  rw [owners_eq, owners_eq, find?_update]
  cases s.find? x with
  | none => rfl
  | some e => by_cases h : x = id <;> simp [h]

/-- A new record leaves the others as they were. -/
theorem get?_add_of_ne (s : RecordStore) (r : SampleRecord) (n : Nat) {x : RecordId}
    (hx : x ≠ s.nextId) : (s.add r n).1.get? x = s.get? x := by
  simp [add, get?, find?, List.find?_append, Ne.symm hx]

end RecordStore

namespace Collector

variable {c c' c₁ c₂ : Collector}

/-! ### What events do to the heap index -/

/-- The store holds the record `id`, if at all, without a handle. -/
def Cleared (id : RecordId) (c : Collector) : Prop := ∀ r, c.store.get? id = some r → r.handle = 0

/-- From `c` to `c'` the heap index only loses entries and gains the entries `ps`, of records
named from `c.store.nextId` up, and a record named before that is cleared stays cleared. -/
structure Pushes (c : Collector) (ps : List (UInt64 × RecordId)) (c' : Collector) : Prop where
  /-- Names are only given out. -/
  nextId_le : c.store.nextId ≤ c'.store.nextId
  /-- An entry was there before or is pushed. -/
  entries : ∀ e ∈ c'.heap.entries, e ∈ c.heap.entries ∨ e ∈ ps
  /-- The entries pushed are of new records. -/
  fresh : ∀ e ∈ ps, c.store.nextId ≤ e.2
  /-- A record named before that is cleared stays cleared. -/
  cleared : ∀ x < c.store.nextId, c.Cleared x → c'.Cleared x

namespace Pushes

theorem refl (c : Collector) : Pushes c [] c :=
  ⟨Nat.le_refl _, fun _ he => .inl he, (fun _ h => by cases h), fun _ _ hc => hc⟩

theorem trans {ps qs : List (UInt64 × RecordId)} (h₁ : Pushes c ps c₁) (h₂ : Pushes c₁ qs c₂) :
    Pushes c (ps ++ qs) c₂ where
  nextId_le := Nat.le_trans h₁.nextId_le h₂.nextId_le
  entries e he := by
    rcases h₂.entries e he with he | he
    · rcases h₁.entries e he with he | he
      · exact .inl he
      · exact .inr (List.mem_append_left _ he)
    · exact .inr (List.mem_append_right _ he)
  fresh e he := by
    rcases List.mem_append.1 he with he | he
    · exact h₁.fresh e he
    · exact Nat.le_trans h₁.nextId_le (h₂.fresh e he)
  cleared x hx hc := h₂.cleared x (Nat.lt_of_lt_of_le hx h₁.nextId_le) (h₁.cleared x hx hc)

/-- Only the heap index and the store matter. -/
theorem of_eq (hh : c'.heap = c.heap) (hs : c'.store = c.store) : Pushes c [] c' where
  nextId_le := Nat.le_of_eq (by rw [hs])
  entries e he := .inl (hh ▸ he)
  fresh _ h := by cases h
  cleared _ _ hc r hr := hc r (hs ▸ hr)

/-- Some heap entries go. -/
theorem of_withHeap (c : Collector) {ix : HeapIndex} (hix : ∀ e ∈ ix.entries, e ∈ c.heap.entries) :
    Pushes c [] { c with heap := ix } :=
  ⟨Nat.le_refl _, fun e he => .inl (hix e he), (fun _ h => by cases h), fun _ _ hc => hc⟩

/-- A change of a record that keeps its handle or clears it. -/
theorem of_updateRecord (c : Collector) (id : RecordId) {f : SampleRecord → SampleRecord}
    (hf : ∀ r, (f r).handle = r.handle ∨ (f r).handle = 0) : Pushes c [] (c.updateRecord id f) where
  nextId_le := Nat.le_refl _
  entries e he := .inl he
  fresh _ h := by cases h
  cleared x _ hc r hr := by
    simp only [updateRecord_store, RecordStore.get?_update] at hr
    split at hr
    · obtain ⟨r₀, hr₀, rfl⟩ := Option.map_eq_some_iff.1 hr
      rcases hf r₀ with h | h
      · rw [h]
        exact hc r₀ hr₀
      · exact h
    · exact hc r hr

theorem of_release {id : RecordId} (h : c.release id = .ok c') : Pushes c [] c' := by
  rw [release_eq_ok h]
  exact ⟨Nat.le_of_eq (RecordStore.nextId_release _ _).symm, fun e he => .inl he, (fun _ h => by cases h),
    fun _ _ hc r hr => hc r (RecordStore.get?_of_get?_release hr)⟩

theorem of_evict {h : UInt64} (he : c.evict h = .ok c') : Pushes c [] c' := by
  rcases evict_eq_ok he with ⟨-, rfl⟩ | ⟨id, -, hr⟩
  · exact refl _
  · exact ((of_withHeap c fun e he => by
      obtain ⟨k, x⟩ := e
      exact (HeapIndex.mem_remove.1 he).2).trans
      (of_updateRecord _ id fun _ => .inr rfl)).trans (of_release hr)

theorem of_beginAlloc {h : UInt64} {draw : UInt32} {d : Nat} {m : Option CaptureMethod}
    (hb : c.beginAlloc h draw d = .ok (c', m)) : Pushes c [] c' := by
  obtain ⟨c₀, he, hd⟩ := beginAlloc_eq_ok hb
  have e := sampleDecision_fst c₀ draw d
  rw [hd] at e
  dsimp only at e
  exact (of_evict he).trans (of_eq (by rw [e]) (by rw [e]))

theorem of_measure {probe : UInt64 → Option UInt64} {id : RecordId}
    (hm : c.measure probe id = .ok c') : Pushes c [] c' := by
  rcases measure_eq_ok hm with ⟨size, -, -, rfl⟩ | ⟨-, rfl⟩ | ⟨-, -, -, c₁, hr, rfl⟩ | ⟨-, -, -, rfl⟩
  · exact of_updateRecord c id fun _ => .inl rfl
  · exact refl _
  · exact ((of_withHeap c fun e he => by
      obtain ⟨k, x⟩ := e
      exact (HeapIndex.mem_remove.1 he).2).trans (of_release hr)).trans
      (of_updateRecord c₁ id fun _ => .inr rfl)
  · exact of_updateRecord c id fun _ => .inr rfl

theorem of_thin {id : RecordId} {draw : UInt32} (ht : c.thin id draw = .ok c') : Pushes c [] c' := by
  rcases thin_eq_ok ht with ⟨-, rfl⟩ | ⟨-, -, hr⟩ | ⟨-, -, rfl⟩
  · exact refl _
  · exact (of_eq (by rfl) (by rfl)).trans (of_release hr)
  · exact refl _

theorem of_settle {probe : UInt64 → Option UInt64} {id : RecordId} {draw : UInt32}
    (hs : c.settle probe id draw = .ok c') : Pushes c [] c' := by
  rw [settle_eq] at hs
  cases hm : c.measure probe id with
  | error e => rw [hm] at hs; cases hs
  | ok c₁ =>
    rw [hm] at hs
    exact (of_measure hm).trans (of_thin hs)

theorem of_settleAll {probe : UInt64 → Option UInt64} {draws : Nat → UInt32} {i : Nat}
    {ids : List RecordId} (hs : Collector.settleAll probe draws c i ids = .ok c') : Pushes c [] c' := by
  induction ids generalizing c i with
  | nil => cases hs; exact refl _
  | cons id ids ih =>
    simp only [Collector.settleAll, bind, Except.bind] at hs
    cases h₁ : c.settle probe id (draws i) with
    | error e => rw [h₁] at hs; cases hs
    | ok c₁ =>
      rw [h₁] at hs
      exact (of_settle h₁).trans (ih hs)

theorem of_onReturn {probe : UInt64 → Option UInt64} {draws : Nat → UInt32}
    (h : c.onReturn probe draws = .ok c') : Pushes c [] c' := by
  rcases onReturn_eq_ok h with ⟨-, rfl⟩ | ⟨-, -, c₁, hs, rfl⟩
  · exact refl _
  · exact (of_settleAll hs).trans (of_eq (by rfl) (by rfl))

/-- A new record under `h`. -/
theorem of_enroll (h size : UInt64) (frames : List Frame) :
    Pushes c [(h, c.store.nextId)] (c.enroll h size frames) where
  nextId_le := by
    rw [enroll_store, RecordStore.nextId_add]
    exact Nat.le_succ _
  entries e he := by
    rw [enroll_heap] at he
    obtain ⟨k, x⟩ := e
    rcases HeapIndex.mem_insert.1 he with ⟨rfl, rfl⟩ | ⟨-, hm⟩
    · exact .inr (List.mem_singleton_self _)
    · exact .inl hm
  fresh e he := by
    obtain rfl := List.mem_singleton.1 he
    exact Nat.le_refl _
  cleared x hx hc r hr := by
    rw [enroll_store, RecordStore.get?_add_of_ne _ _ _ (Nat.ne_of_lt hx)] at hr
    exact hc r hr

end Pushes

/-- The entry the second half of an allocation of handle `h` pushes on `c`: the new record's,
when there is room. -/
def pushOf (c : Collector) (h : UInt64) : List (UInt64 × RecordId) :=
  if c.checkRoom.2 then [(h, c.store.nextId)] else []

theorem Pushes.of_finishAlloc {h size : UInt64} {frames : List Frame}
    (hf : c.finishAlloc h size frames = .ok c') : Pushes c (c.pushOf h) c' := by
  rcases finishAlloc_eq_ok hf with ⟨hroom, rfl⟩ | ⟨hc, hm⟩
  · simp only [pushOf, hroom, Bool.false_eq_true, ite_false]
    exact Pushes.of_eq (by rw [checkRoom_fst]) (by rw [checkRoom_fst])
  · have hroom : c.checkRoom.2 = true := by rw [hc]
    simp only [pushOf, hroom, ite_true]
    cases hg : c.heap.get? h with
    | none =>
      rw [hg] at hm
      rw [hm]
      exact Pushes.of_enroll h size frames
    | some old =>
      rw [hg] at hm
      exact (Pushes.of_enroll h size frames).trans
        ((Pushes.of_updateRecord _ old fun _ => .inr rfl).trans (Pushes.of_release hm))

end Collector

/-- The heap entries the allocations of a run of events push, in order, those of a capture
before its own. -/
def EventRun.pushes {d : Nat} {c c' : Collector} : EventRun d c c' → List (UInt64 × RecordId)
  | .nil _ _ => []
  | .free _ _ rest => rest.pushes
  | .ret _ _ _ rest => rest.pushes
  | .alloc _ _ _ rest => rest.pushes
  | .allocFailed _ _ _ _ nested rest => nested.pushes ++ rest.pushes
  | @EventRun.allocCaptured _ _ _ c₂ _ _ h _ _ _ _ _ nested _ rest =>
    nested.pushes ++ c₂.pushOf h ++ rest.pushes

namespace Collector

variable {c c' c₁ c₂ : Collector}

/-- What a run of events does to the heap index: it pushes the entries its allocations push. -/
theorem Pushes.run {d : Nat} (r : EventRun d c c') : Pushes c r.pushes c' := by
  induction r with
  | nil => exact Pushes.refl _
  | free _ hs _ ih => exact (Pushes.of_evict hs).trans ih
  | ret _ _ hs _ ih => exact (Pushes.of_onReturn hs).trans ih
  | alloc _ _ hs _ ih => exact (Pushes.of_beginAlloc hs).trans ih
  | allocFailed _ _ _ hs _ _ ihn ih => exact ((Pushes.of_beginAlloc hs).trans ihn).trans ih
  | allocCaptured _ _ _ _ _ hs _ hf _ ihn ih =>
    exact (((Pushes.of_beginAlloc hs).trans ihn).trans (Pushes.of_finishAlloc hf)).trans ih

/-- The record `id` is named, out of the heap index, and cleared. -/
structure Evicted (id : RecordId) (c : Collector) : Prop where
  /-- It was named. -/
  lt_nextId : id < c.store.nextId
  /-- No entry holds it. -/
  not_mem : id ∉ c.heap.records
  /-- It has no handle. -/
  cleared : c.Cleared id

/-- An evicted record stays evicted: the entries pushed are of newer records. -/
theorem Pushes.evicted {ps : List (UInt64 × RecordId)} {id : RecordId} (hp : Pushes c ps c')
    (he : c.Evicted id) : c'.Evicted id where
  lt_nextId := Nat.lt_of_lt_of_le he.lt_nextId hp.nextId_le
  not_mem hm := by
    obtain ⟨k, hk⟩ := HeapIndex.mem_records.1 hm
    rcases hp.entries _ hk with hk | hk
    · exact he.not_mem (HeapIndex.mem_records.2 ⟨k, hk⟩)
    · exact absurd (hp.fresh _ hk) (Nat.not_le.2 he.lt_nextId)
  cleared := hp.cleared id he.lt_nextId he.cleared

/-- Once nothing is under `h`, an entry under `h` is one pushed since. -/
theorem Pushes.mem_of_get? {ps : List (UInt64 × RecordId)} (hp : Pushes c ps c') {h : UInt64}
    {id : RecordId} (hnone : c.heap.get? h = none) (hg : c'.heap.get? h = some id) :
    (h, id) ∈ ps := by
  rcases hp.entries _ (HeapIndex.mem_of_get? hg) with hm | hm
  · exact absurd hm (HeapIndex.get?_eq_none_iff.1 hnone id)
  · exact hm

/-! ### A free -/

/-- What a free of handle `h` leaves of `c`. -/
structure Forgets (c : Collector) (h : UInt64) (c' : Collector) : Prop where
  /-- The entry under `h` goes; the others stay, in order. -/
  heap : c'.heap.entries = c.heap.entries.filter (·.1 != h)
  /-- The record under `h` loses its handle and stays stored exactly while the ledger holds it,
  with one owner fewer. -/
  evicted : ∀ id, c.heap.get? h = some id →
    c'.store.get? id =
        (if id ∈ c.ledger.records then (c.store.get? id).map SampleRecord.clearHandle else none) ∧
      c'.store.owners id = c.store.owners id - 1
  /-- Every other record stays as it was. -/
  others : ∀ x, c.heap.get? h ≠ some x → c'.store.get? x = c.store.get? x
  /-- The tables give back the backtrace of the record under `h` if it leaves the store, and are
  left alone otherwise. -/
  tables : (∃ id r, c.heap.get? h = some id ∧ id ∉ c.ledger.records ∧ c.store.get? id = some r ∧
      c.locations.release c.strings r.backtrace = .ok (c'.locations, c'.strings)) ∨
    (c'.locations = c.locations ∧ c'.strings = c.strings)
  /-- Nothing else changes. -/
  rest : c' = { c with heap := { c.heap with entries := c'.heap.entries },
                       store := c'.store, locations := c'.locations, strings := c'.strings }

/-- Letting go of a record touches the tables only when it was the last holder, and then gives
back its backtrace. -/
theorem release_tables {id : RecordId} (h : c.release id = .ok c') :
    ((c.store.release id).2 = none ∧ c'.locations = c.locations ∧ c'.strings = c.strings) ∨
      ∃ r, (c.store.release id).2 = some r ∧
        c.locations.release c.strings r.backtrace = .ok (c'.locations, c'.strings) := by
  unfold Collector.release at h
  cases hr : c.store.release id with
  | mk store gone =>
    rw [hr] at h
    cases gone with
    | none =>
      cases h
      exact .inl ⟨rfl, rfl, rfl⟩
    | some r =>
      cases hrel : c.locations.release c.strings r.backtrace with
      | error e => simp [hrel, bind, Except.bind] at h
      | ok p =>
        simp only [hrel, bind, Except.bind, pure, Except.pure, Except.ok.injEq] at h
        subst h
        exact .inr ⟨r, rfl, hrel⟩

/-- The record under a handle has one owner more than the ledger gives it. -/
theorem OwnedWith.owners_of_get? (ho : c.OwnedWith [] []) {h : UInt64} {id : RecordId}
    (hg : c.heap.get? h = some id) :
    c.store.owners id = (if id ∈ c.ledger.records then 1 else 0) + 1 := by
  have hm : id ∈ c.heap.records := HeapIndex.mem_records.2 ⟨h, HeapIndex.mem_of_get? hg⟩
  rw [ho.counts.owners_count, List.append_nil, holdings, List.count_append,
    ho.ledger_nodup.count, ho.records_nodup.count, if_pos hm]

/-- A free on a collector whose records are owned right forgets exactly the record under its
handle. -/
theorem OwnedWith.forgets (ho : c.OwnedWith [] []) {h : UInt64} (he : c.evict h = .ok c') :
    Forgets c h c' := by
  rcases evict_eq_ok he with ⟨hg, rfl⟩ | ⟨id, hg, hr⟩
  · -- Nothing is under `h`, and nothing changes.
    exact ⟨(HeapIndex.filter_of_get?_eq_none hg).symm, (fun x hx => by rw [hg] at hx; cases hx),
      fun _ _ => rfl, .inr ⟨rfl, rfl⟩, rfl⟩
  · have hown := ho.owners_of_get? hg
    have e := release_eq_ok hr
    have hstore : c'.store = ((c.store.update id SampleRecord.clearHandle).release id).1 := by
      rw [e]
      rfl
    have hheap : c'.heap = (c.heap.remove h).1 := by
      rw [e]
      rfl
    refine ⟨by rw [hheap, HeapIndex.remove_fst], fun x hx => ?_, fun x hx => ?_, ?_, ?_⟩
    · -- The heap index was its only owner unless the ledger holds it too.
      rw [hg, Option.some.injEq] at hx
      subst hx
      rw [hstore, RecordStore.get?_release_self, RecordStore.owners_update,
        RecordStore.owners_release_self, RecordStore.owners_update, RecordStore.get?_update,
        if_pos rfl, hown]
      by_cases hl : id ∈ c.ledger.records <;> simp [hl]
    · have hne : x ≠ id := fun h' => hx (h' ▸ hg)
      rw [hstore, RecordStore.get?_release_of_ne hne, RecordStore.get?_update, if_neg hne]
    · rcases release_tables hr with ⟨-, hl, hs⟩ | ⟨r, hr', hrel⟩
      · exact .inr ⟨hl, hs⟩
      · -- The record left the store: it had one owner, so the ledger did not hold it.
        obtain ⟨hget, hle⟩ := RecordStore.release_snd_eq_some hr'
        rw [updateRecord_store, RecordStore.owners_update, hown] at hle
        rw [updateRecord_store, RecordStore.get?_update, if_pos rfl] at hget
        obtain ⟨r₀, hr₀, rfl⟩ := Option.map_eq_some_iff.1 hget
        have hl : id ∉ c.ledger.records := fun hl => by
          rw [if_pos hl] at hle
          omega
        exact .inl ⟨id, r₀, hg, hl, hr₀, hrel⟩
    · conv_lhs => rw [e]
      rw [hstore, hheap, HeapIndex.remove_fst]
      rfl

/-- Forgetting the record under `h` evicts it. -/
theorem OwnedWith.evict_evicted (ho : c.OwnedWith [] []) {h : UInt64} {id : RecordId}
    (he : c.evict h = .ok c') (hg : c.heap.get? h = some id) : c'.Evicted id := by
  have hf := ho.forgets he
  have hmem := HeapIndex.mem_of_get? hg
  obtain ⟨r, hr, -⟩ := ho.entry_handle h id hmem
  refine ⟨?_, fun hm => ?_, fun r' hr' => ?_⟩
  · -- A stored record is named.
    rw [(SameCounts.of_evict he).nextId]
    refine Nat.lt_of_not_le fun hle => ?_
    have := ho.counts.fresh id hle
    rw [RecordStore.get?_eq, this] at hr
    cases hr
  · -- The record was under `h` alone, and that entry went.
    obtain ⟨k, hk⟩ := HeapIndex.mem_records.1 hm
    rw [hf.heap, List.mem_filter] at hk
    have := HeapIndex.handle_eq_of_records_nodup ho.records_nodup hk.1 hmem
    simp [this] at hk
  · rw [(hf.evicted id hg).1] at hr'
    split at hr'
    · obtain ⟨r₀, -, rfl⟩ := Option.map_eq_some_iff.1 hr'
      rfl
    · cases hr'

/-! ### An allocation -/

/-- The collectors at which the host can fire an event with `d` captures in progress: a reachable
one, between calls; the one a capture begins with; and the one any run of events leaves. -/
inductive Midway : Nat → Collector → Prop
  /-- Between calls. -/
  | between {c : Collector} : Reachable c → Midway 0 c
  /-- At the start of a capture. -/
  | capture {d : Nat} {c c₁ : Collector} {h : UInt64} {draw : UInt32} {m : CaptureMethod} :
      Midway d c → c.beginAlloc h draw d = .ok (c₁, some m) → Midway (d + 1) c₁
  /-- After events. -/
  | after {d : Nat} {c c' : Collector} : Midway d c → EventRun d c c' → Midway d c'

/-- Wherever the host fires an event, the records are owned right. -/
theorem Midway.owned {d : Nat} (hm : Midway d c) : c.OwnedWith [] [] := by
  induction hm with
  | between hc => exact owned_invariant.reachable hc
  | capture _ hb ih => exact owned_invariant.beginAlloc ih hb
  | after _ r ih => exact owned_invariant.toEventInvariant.run r ih

/-- One allocation event of handle `h` with `d` captures in progress, taking `c` to `c'`, told
with the events its capture ran. -/
inductive AllocCall (d : Nat) (h : UInt64) : Collector → Collector → Type
  /-- Not sampled, or dropped before a capture. -/
  | uncaptured {c c₁ : Collector} (draw : UInt32) (hs : c.beginAlloc h draw d = .ok (c₁, none)) :
      AllocCall d h c c₁
  /-- A capture that ran the events `nested` and failed. -/
  | failed {c c₁ c₂ : Collector} (draw : UInt32) (m : CaptureMethod)
      (hs : c.beginAlloc h draw d = .ok (c₁, some m)) (nested : EventRun (d + 1) c₁ c₂) :
      AllocCall d h c c₂
  /-- A capture that ran the events `nested` and handed back `frames`, with the size hint
  `size`. -/
  | captured {c c₁ c₂ c₃ : Collector} (size : UInt64) (draw : UInt32) (m : CaptureMethod)
      (frames : List Frame) (hs : c.beginAlloc h draw d = .ok (c₁, some m))
      (nested : EventRun (d + 1) c₁ c₂) (hf : c₂.finishAlloc h size frames = .ok c₃) :
      AllocCall d h c c₃

namespace AllocCall

variable {d : Nat} {h : UInt64}

/-- The collector the capture's events begin with, or the call's last if it captures nothing. -/
def captureStart : AllocCall d h c c' → Collector
  | @uncaptured _ _ _ c₁ _ _ => c₁
  | @failed _ _ _ c₁ _ _ _ _ _ => c₁
  | @captured _ _ _ c₁ _ _ _ _ _ _ _ _ _ => c₁

/-- The collector the capture's events end with, or the call's last if it captures nothing. -/
def captureEnd : AllocCall d h c c' → Collector
  | @uncaptured _ _ _ c₁ _ _ => c₁
  | @failed _ _ _ _ c₂ _ _ _ _ => c₂
  | @captured _ _ _ _ c₂ _ _ _ _ _ _ _ _ => c₂

/-- The heap entries the allocations fired during the capture push. -/
def nested : AllocCall d h c c' → List (UInt64 × RecordId)
  | uncaptured _ _ => []
  | failed _ _ _ nested => nested.pushes
  | captured _ _ _ _ _ nested _ => nested.pushes

/-- The record the call makes, with its size hint: one when the capture hands back its frames
and there is still room. -/
def recorded : AllocCall d h c c' → Option (RecordId × UInt64)
  | uncaptured _ _ => none
  | failed _ _ _ _ => none
  | @captured _ _ _ _ c₂ _ size _ _ _ _ _ _ =>
    if c₂.checkRoom.2 then some (c₂.store.nextId, size) else none

/-- What an allocation of `h` leaves, whatever path it took. -/
structure Reuses (a : AllocCall d h c c') : Prop where
  /-- The record under `h` when the call began is out of the heap index and has no handle. -/
  evicted : ∀ id, c.heap.get? h = some id → id ∉ c'.heap.records ∧ c'.Cleared id
  /-- The capture's events begin with the ledger the call began with. -/
  ledger_start : a.captureStart.ledger.records = c.ledger.records
  /-- The call ends with the ledger the capture's events left, its own record in front if it
  made one. -/
  ledger_end : c'.ledger.records = (a.recorded.map (·.1)).toList ++ a.captureEnd.ledger.records
  /-- The record the call made is the entry under `h`, with handle `h` and both sizes its
  hint. -/
  recorded : ∀ id s, a.recorded = some (id, s) →
    c'.heap.get? h = some id ∧ ∃ bt, c'.store.get? id = some (SampleRecord.new bt h s)
  /-- The entry under `h` is the call's record, or one an allocation of `h` fired during its
  capture pushed. -/
  entry : ∀ id, c'.heap.get? h = some id → (∃ s, a.recorded = some (id, s)) ∨ (h, id) ∈ a.nested

end AllocCall

/-- The first half of an allocation of `h` leaves nothing under `h`, keeps the ledger, and
evicts the record that was under `h`. -/
theorem OwnedWith.beginAlloc_evicts (ho : c.OwnedWith [] []) {h : UInt64} {draw : UInt32}
    {d : Nat} {m : Option CaptureMethod} (hb : c.beginAlloc h draw d = .ok (c₁, m)) :
    c₁.heap.get? h = none ∧ c₁.ledger.records = c.ledger.records ∧
      ∀ id, c.heap.get? h = some id → c₁.Evicted id := by
  obtain ⟨c₀, he, hd⟩ := beginAlloc_eq_ok hb
  have e := sampleDecision_fst c₀ draw d
  rw [hd] at e
  dsimp only at e
  have hsame : Pushes c₀ [] c₁ := Pushes.of_eq (by rw [e]) (by rw [e])
  refine ⟨?_, ?_, fun id hg => hsame.evicted (ho.evict_evicted he hg)⟩
  · rw [HeapIndex.get?_eq_none_iff, e]
    intro r hm
    rw [(ho.forgets he).heap, List.mem_filter] at hm
    simp at hm
  · rw [e]
    exact (SameCounts.of_evict he).records

/-- The second half of an allocation that finds room puts the new record, with handle `h` and
both sizes the hint, under `h`. -/
theorem OwnedWith.finishAlloc_records (ho : c.OwnedWith [] []) {h size : UInt64}
    {frames : List Frame} (hroom : c.checkRoom.2 = true)
    (hf : c.finishAlloc h size frames = .ok c') :
    c'.heap.get? h = some c.store.nextId ∧
      c'.store.get? c.store.nextId =
        some (SampleRecord.new (c.locations.intern c.strings frames).2.2 h size) := by
  rcases finishAlloc_eq_ok hf with ⟨hr, -⟩ | ⟨-, hm⟩
  · rw [hroom] at hr
    cases hr
  · have hgn : (c.enroll h size frames).heap.get? h = some c.store.nextId := by
      rw [enroll_heap]
      exact HeapIndex.get?_insert_self _ _ _
    have hsn : (c.enroll h size frames).store.get? c.store.nextId =
        some (SampleRecord.new (c.locations.intern c.strings frames).2.2 h size) := by
      rw [enroll_store, RecordStore.get?_add _ (ho.counts.fresh _ (Nat.le_refl _)), if_pos rfl]
    cases hg : c.heap.get? h with
    | none =>
      rw [hg] at hm
      rw [hm]
      exact ⟨hgn, hsn⟩
    | some old =>
      rw [hg] at hm
      -- The record displaced is an old one, not the new.
      have hne : c.store.nextId ≠ old := fun e =>
        ho.nextId_not_mem.2 (HeapIndex.mem_records.2 ⟨h, e ▸ HeapIndex.mem_of_get? hg⟩)
      refine ⟨by rw [heap_of_release hm]; exact hgn, ?_⟩
      rw [release_eq_ok hm]
      dsimp only
      rw [RecordStore.get?_release_of_ne hne, updateRecord_store, RecordStore.get?_update,
        if_neg hne]
      exact hsn

/-- An allocation, on any path, evicts the record under its handle, changes the ledger only by
its own record, and leaves under its handle its own record or one its capture pushed. -/
theorem AllocCall.reuses {d : Nat} {h : UInt64} (ho : c.OwnedWith [] []) (a : AllocCall d h c c') :
    a.Reuses := by
  cases a with
  | uncaptured draw hs =>
    obtain ⟨hnone, hled, hev⟩ := ho.beginAlloc_evicts hs
    refine ⟨fun id hg => ⟨(hev id hg).not_mem, (hev id hg).cleared⟩, hled, rfl,
      (fun _ _ hr => by cases hr), fun id hg => ?_⟩
    rw [hnone] at hg
    cases hg
  | failed draw m hs nested =>
    obtain ⟨hnone, hled, hev⟩ := ho.beginAlloc_evicts hs
    have hp := Pushes.run nested
    refine ⟨fun id hg => ⟨(hp.evicted (hev id hg)).not_mem, (hp.evicted (hev id hg)).cleared⟩,
      hled, rfl, (fun _ _ hr => by cases hr), fun id hg => .inr (hp.mem_of_get? hnone hg)⟩
  | @captured c₁ c₂ _ size draw m frames hs nested hf =>
    obtain ⟨hnone, hled, hev⟩ := ho.beginAlloc_evicts hs
    -- What the capture's events and the second half push, together.
    have hp := (Pushes.run nested).trans (Pushes.of_finishAlloc hf)
    have ho₂ : _ := owned_invariant.toEventInvariant.run nested (owned_invariant.beginAlloc ho hs)
    refine ⟨fun id hg => ⟨(hp.evicted (hev id hg)).not_mem, (hp.evicted (hev id hg)).cleared⟩,
      hled, ?_, ?_, ?_⟩
    · rcases finishAlloc_frame hf with ⟨hroom, hsame⟩ | ⟨hc, hrec, -⟩
      · simp only [recorded, hroom, Bool.false_eq_true, ite_false, Option.map_none,
          Option.toList_none, List.nil_append, captureEnd]
        rw [hsame.records, checkRoom_fst]
      · have hroom : _ = true := congrArg Prod.snd hc
        simp only [recorded, hroom, ite_true, Option.map_some, Option.toList_some,
          List.singleton_append, captureEnd]
        exact hrec
    · intro id s hr
      simp only [recorded] at hr
      split at hr
      · rename_i hroom
        cases hr
        obtain ⟨hg, hs'⟩ := ho₂.finishAlloc_records hroom hf
        exact ⟨hg, _, hs'⟩
      · cases hr
    · intro id hg
      by_cases hroom : c₂.checkRoom.2 = true
      · -- With room, the call's own record is the entry.
        obtain ⟨hg', -⟩ := ho₂.finishAlloc_records hroom hf
        rw [hg', Option.some.injEq] at hg
        subst hg
        exact .inl ⟨size, by simp only [recorded, hroom, ite_true]⟩
      · -- Without, the entry was pushed during the capture.
        have hm := hp.mem_of_get? hnone hg
        rw [pushOf, if_neg hroom, List.append_nil] at hm
        exact .inr hm

/-- A free of a handle, and an allocation of it on any path, wherever the host fires them: the
free forgets exactly the record under the handle, and the allocation leaves the record that was
under it out of the heap index without its handle, changes the ledger only by its own record,
and leaves under the handle its own record or one its capture pushed. -/
theorem Midway.reuse_handle {d : Nat} (hc : Midway d c) (h : UInt64) :
    (∀ c', c.onFree h = .ok c' → Forgets c h c') ∧ ∀ c' (a : AllocCall d h c c'), a.Reuses :=
  ⟨fun _ hf => hc.owned.forgets hf, fun _ a => a.reuses hc.owned⟩

/-- A started collector that sampled one allocation of handle `7`. -/
theorem reuse_handle_after_one_sample :
    ∃ c : Collector, c.heap.entries = [(7, 0)] ∧ Midway 0 c ∧
      (∀ c', c.onFree 7 = .ok c' → Forgets c 7 c') ∧ ∀ c' (a : AllocCall 0 7 c c'), a.Reuses := by
  have hm : Midway 0 { Collector.initial Rate.always Rate.always .fast 4 4 with
      running := true, pending := 1,
      store := { entries := [(0, ⟨SampleRecord.new [] 7 16, 2⟩)], nextId := 1 },
      ledger := { capacity := 4, records := [0] }, heap := { capacity := 4, entries := [(7, 0)] } } :=
    .between ⟨.events (@History.start _ _ (.ok ()) (.new Rate.always Rate.always .fast 4 4) (.ok ()) rfl)
      (.allocCaptured 7 16 0 .fast [] rfl (.nil _ _) rfl (.nil _ _))⟩
  exact ⟨_, rfl, hm, Midway.reuse_handle hm 7⟩

end Collector

end HeapSampler
