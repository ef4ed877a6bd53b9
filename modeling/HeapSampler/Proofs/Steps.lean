import HeapSampler.Proofs.Containers

/-!
# What each call does, case by case

One inversion lemma per operation of the collector: from a successful result it recovers the
path the operation took and the collector it left, written through the operations of the
containers.  Later proofs take an operation apart with these lemmas and never unfold it.

Two operations are restated through definitions of their own.  The second half of an
allocation, when there is room, is `Collector.enroll` followed by letting go of the record the
new one displaces from the heap index; settling one pending record on a return is
`Collector.measure` followed by `Collector.thin`.

## Main definitions

* `Collector.enroll` — a new record made and held by both containers.
* `Collector.measure`, `Collector.thin` — the two halves of settling a pending record.

## Main results

* `Collector.release_eq_ok`, `Collector.releaseAll_eq_ok` — letting go of records changes only the
  store and the two tables.
* `Collector.evict_eq_ok`, `Collector.beginAlloc_eq_ok`, `Collector.finishAlloc_eq_ok`,
  `Collector.settle_eq`, `Collector.onReturn_eq_ok`, `Collector.sweepEntry_eq_ok`,
  `Collector.flush_eq_ok`, `Collector.clear_eq_ok`, `Collector.start_eq_ok`.
* `Collector.moveHandles_get?_of_mem` — a record a relocation moves ends at its new handle.
-/

namespace HeapSampler

namespace Collector

/-! ### Letting go of records -/

theorem release_eq_ok {c c' : Collector} {id : RecordId} (h : c.release id = .ok c') :
    c' = { c with store := (c.store.release id).1, locations := c'.locations,
                  strings := c'.strings } := by
  unfold Collector.release at h
  cases hr : c.store.release id with
  | mk store gone =>
    rw [hr] at h
    cases gone with
    | none => cases h; rfl
    | some r =>
      simp only [bind, Except.bind] at h
      split at h
      · cases h
      · cases h; rfl

theorem heap_of_release {c c' : Collector} {id : RecordId} (h : c.release id = .ok c') :
    c'.heap = c.heap := by
  rw [release_eq_ok h]

theorem releaseAll_eq_ok {c c' : Collector} {ids : List RecordId} (h : c.releaseAll ids = .ok c') :
    c' = { c with store := ids.foldl (fun s id => (s.release id).1) c.store,
                  locations := c'.locations, strings := c'.strings } := by
  induction ids generalizing c with
  | nil => cases h; rfl
  | cons id ids ih =>
    simp only [releaseAll, List.foldlM_cons, bind, Except.bind] at h
    split at h
    · cases h
    · rename_i c₁ h₁
      have e₁ := release_eq_ok h₁
      have e₂ := ih h
      rw [e₂, e₁]
      rfl

theorem releaseAll_cons {c c' : Collector} {id : RecordId} {ids : List RecordId}
    (h : c.releaseAll (id :: ids) = .ok c') : ∃ c₁, c.release id = .ok c₁ ∧ c₁.releaseAll ids = .ok c' := by
  simp only [releaseAll, List.foldlM_cons, bind, Except.bind] at h
  split at h
  · cases h
  · rename_i c₁ h₁
    exact ⟨c₁, h₁, h⟩

@[simp] theorem updateRecord_store (c : Collector) (id : RecordId) (f : SampleRecord → SampleRecord) :
    (c.updateRecord id f).store = c.store.update id f := rfl

@[simp] theorem updateRecord_ledger (c : Collector) (id : RecordId) (f : SampleRecord → SampleRecord) :
    (c.updateRecord id f).ledger = c.ledger := rfl

@[simp] theorem updateRecord_heap (c : Collector) (id : RecordId) (f : SampleRecord → SampleRecord) :
    (c.updateRecord id f).heap = c.heap := rfl

theorem evict_eq_ok {c c' : Collector} {h : UInt64} (he : c.evict h = .ok c') :
    (c.heap.get? h = none ∧ c' = c) ∨
      ∃ id, c.heap.get? h = some id ∧
        ({ c with heap := (c.heap.remove h).1 }.updateRecord id SampleRecord.clearHandle).release id
          = .ok c' := by
  unfold evict at he
  have hs := c.heap.remove_snd h
  cases hr : c.heap.remove h with
  | mk heap removed =>
    rw [hr] at he hs
    cases removed with
    | none => cases he; exact .inl ⟨hs.symm, rfl⟩
    | some id => exact .inr ⟨id, hs.symm, he⟩

/-- Forgetting a handle keeps the settings. -/
theorem evict_settings {c c' : Collector} {h : UInt64} (he : c.evict h = .ok c') :
    c'.sampleRate = c.sampleRate ∧ c'.method = c.method := by
  rcases evict_eq_ok he with ⟨-, rfl⟩ | ⟨id, -, hr⟩
  · exact ⟨rfl, rfl⟩
  · rw [release_eq_ok hr]
    exact ⟨rfl, rfl⟩

/-! ### Allocation -/

theorem checkRoom_true {c : Collector} (h : c.checkRoom.2 = true) :
    c.checkRoom = (c, true) ∧ c.ledger.isFull = false ∧ c.heap.isFull = false := by
  unfold checkRoom at h ⊢
  split at h
  · cases h
  · split at h
    · cases h
    · rename_i h1 h2
      simp [h1, h2]

theorem checkRoom_fst (c : Collector) :
    c.checkRoom.1 = { c with dropped := c.checkRoom.1.dropped } := by
  unfold checkRoom
  split
  · rfl
  · split <;> rfl

/-- The room check: the first full container found is counted, the ledger first. -/
theorem checkRoom_cases (c : Collector) :
    (c.ledger.isFull = true ∧
        c.checkRoom = ({ c with dropped.ledgerFull := c.dropped.ledgerFull + 1 }, false)) ∨
      (c.ledger.isFull = false ∧ c.heap.isFull = true ∧
        c.checkRoom = ({ c with dropped.heapFull := c.dropped.heapFull + 1 }, false)) ∨
      (c.ledger.isFull = false ∧ c.heap.isFull = false ∧ c.checkRoom = (c, true)) := by
  unfold checkRoom
  cases hl : c.ledger.isFull
  · cases hh : c.heap.isFull
    · exact .inr (.inr ⟨rfl, rfl, rfl⟩)
    · exact .inr (.inl ⟨rfl, rfl, rfl⟩)
  · exact .inl ⟨rfl, rfl⟩

theorem sampleDecision_fst (c : Collector) (draw : UInt32) (d : Nat) :
    (c.sampleDecision draw d).1 = { c with dropped := (c.sampleDecision draw d).1.dropped } := by
  unfold sampleDecision
  split
  · rfl
  · split
    · rfl
    · split
      · rename_i c₁ hc
        have := checkRoom_fst c
        rw [hc] at this
        exact this
      · rename_i c₁ hc
        have := checkRoom_fst c
        rw [hc] at this
        exact this

/-- The decision on a sampled allocation: not admitted, dropped for want of a capture slot or
of room, or captured. -/
theorem sampleDecision_cases (c : Collector) (draw : UInt32) (d : Nat) :
    (c.sampleRate.admits draw = false ∧ c.sampleDecision draw d = (c, none)) ∨
      (c.sampleRate.admits draw = true ∧ maxCaptureDepth ≤ d ∧
        c.sampleDecision draw d = ({ c with dropped.noLock := c.dropped.noLock + 1 }, none)) ∨
      (c.sampleRate.admits draw = true ∧ d < maxCaptureDepth ∧ c.checkRoom.2 = false ∧
        c.sampleDecision draw d = (c.checkRoom.1, none)) ∨
      (c.sampleRate.admits draw = true ∧ d < maxCaptureDepth ∧ c.checkRoom = (c, true) ∧
        c.sampleDecision draw d = (c, some c.method)) := by
  unfold sampleDecision
  cases ha : c.sampleRate.admits draw
  · exact .inl ⟨rfl, rfl⟩
  · simp only [Bool.not_true, Bool.false_eq_true, ite_false]
    by_cases hd : maxCaptureDepth ≤ d
    · exact .inr (.inl ⟨trivial, hd, by rw [if_pos hd]⟩)
    · rw [if_neg hd]
      have hd' : d < maxCaptureDepth := Nat.lt_of_not_le hd
      rcases checkRoom_cases c with ⟨-, hc⟩ | ⟨-, -, hc⟩ | ⟨-, -, hc⟩
      · exact .inr (.inr (.inl ⟨trivial, hd', by rw [hc], by rw [hc]⟩))
      · exact .inr (.inr (.inl ⟨trivial, hd', by rw [hc], by rw [hc]⟩))
      · exact .inr (.inr (.inr ⟨trivial, hd', hc, by rw [hc]⟩))

theorem beginAlloc_eq_ok {c c₁ : Collector} {h : UInt64} {draw : UInt32} {d : Nat}
    {m : Option CaptureMethod} (hb : c.beginAlloc h draw d = .ok (c₁, m)) :
    ∃ c₀, c.evict h = .ok c₀ ∧ c₀.sampleDecision draw d = (c₁, m) := by
  unfold beginAlloc at hb
  cases he : c.evict h with
  | error e => simp [he, Except.map] at hb
  | ok c₀ =>
    simp only [he, Except.map, Except.ok.injEq] at hb
    exact ⟨c₀, rfl, hb⟩

/-- The collector once a new record of handle `h`, size hint `size` and the stack `frames` is
made, put at the front of the ledger and under `h` in the heap index, and counted as pending; a
record it displaces from the heap index is not let go yet. -/
def enroll (c : Collector) (h size : UInt64) (frames : List Frame) : Collector :=
  let (locations, strings, bt) := c.locations.intern c.strings frames
  { c with locations, strings,
           store := (c.store.add (SampleRecord.new bt h size) 2).1,
           ledger := { c.ledger with records := c.store.nextId :: c.ledger.records },
           heap := (c.heap.insert h c.store.nextId).1,
           pending := c.pending + 1 }

@[simp] theorem enroll_store (c : Collector) (h size : UInt64) (frames : List Frame) :
    (c.enroll h size frames).store =
      (c.store.add (SampleRecord.new (c.locations.intern c.strings frames).2.2 h size) 2).1 := rfl

@[simp] theorem enroll_ledger (c : Collector) (h size : UInt64) (frames : List Frame) :
    (c.enroll h size frames).ledger = { c.ledger with records := c.store.nextId :: c.ledger.records } :=
  rfl

@[simp] theorem enroll_heap (c : Collector) (h size : UInt64) (frames : List Frame) :
    (c.enroll h size frames).heap = (c.heap.insert h c.store.nextId).1 := rfl

@[simp] theorem enroll_locations (c : Collector) (h size : UInt64) (frames : List Frame) :
    (c.enroll h size frames).locations = (c.locations.intern c.strings frames).1 := rfl

@[simp] theorem enroll_strings (c : Collector) (h size : UInt64) (frames : List Frame) :
    (c.enroll h size frames).strings = (c.locations.intern c.strings frames).2.1 := rfl

theorem finishAlloc_eq_ok {c c' : Collector} {h size : UInt64} {frames : List Frame}
    (hf : c.finishAlloc h size frames = .ok c') :
    (c.checkRoom.2 = false ∧ c' = c.checkRoom.1) ∨
      (c.checkRoom = (c, true) ∧
        match c.heap.get? h with
        | none => c' = c.enroll h size frames
        | some old =>
          ((c.enroll h size frames).updateRecord old SampleRecord.clearHandle).release old = .ok c') := by
  unfold finishAlloc at hf
  cases hroom : c.checkRoom.2 with
  | false =>
    rcases hc : c.checkRoom with ⟨c₀, room⟩
    rw [hc] at hroom hf
    cases hroom
    cases hf
    exact .inl ⟨rfl, rfl⟩
  | true =>
    obtain ⟨hc, hl, -⟩ := checkRoom_true hroom
    right
    refine ⟨hc, ?_⟩
    rw [hc] at hf
    simp only [Bool.not_true, Bool.false_eq_true, ite_false, Ledger.push, hl, bind, Except.bind,
      pure, Except.pure, HeapIndex.insert_snd, RecordStore.add_snd] at hf
    cases hg : c.heap.get? h with
    | none => rw [hg] at hf; cases hf; rfl
    | some old => rw [hg] at hf; exact hf

/-! ### Returns -/

theorem handleOf_eq {c : Collector} {id : RecordId} {r : SampleRecord} (h : c.store.get? id = some r) :
    c.handleOf id = r.handle := by
  simp [handleOf, h]

/-- The first half of settling a pending record: a record whose object the host reports live
takes its size, and one whose object is gone loses its heap entry (if it is still the one under
its handle) and its handle. -/
def measure (c : Collector) (probe : UInt64 → Option UInt64) (id : RecordId) :
    Except Abort Collector :=
  let h := c.handleOf id
  match (if h = 0 then none else probe h) with
  | some size => .ok (c.updateRecord id (·.resolveSize size))
  | none =>
    if h = 0 then .ok c
    else
      let (heap, removed) := c.heap.removeIfSame h id
      match removed with
      | some e =>
        ({ c with heap }.release e).map fun c : Collector => c.updateRecord id SampleRecord.clearHandle
      | none => .ok ({ c with heap }.updateRecord id SampleRecord.clearHandle)

/-- The second half of settling a pending record: it leaves the ledger unless the retain rate
admits its draw. -/
def thin (c : Collector) (id : RecordId) (draw : UInt32) : Except Abort Collector :=
  if c.retainRate.admits draw then .ok c
  else
    let (ledger, removed) := c.ledger.unlink id
    match removed with
    | some e => Collector.release { c with ledger } e
    | none => .ok { c with ledger }

theorem settle_eq (c : Collector) (probe : UInt64 → Option UInt64) (id : RecordId) (draw : UInt32) :
    c.settle probe id draw = (c.measure probe id).bind (·.thin id draw) := by
  unfold settle measure thin
  simp only [bind, Except.bind, pure, Except.pure]
  cases hp : (if c.handleOf id = 0 then none else probe (c.handleOf id)) with
  | some size => rfl
  | none =>
    by_cases h0 : c.handleOf id = 0
    · -- With no handle to look at, both sides go straight to thinning.
      generalize c.handleOf id = k at h0 ⊢
      subst h0
      rfl
    · simp only [h0, ite_false]
      cases c.heap.removeIfSame (c.handleOf id) id with
      | mk heap removed =>
        cases removed with
        | none => rfl
        | some e =>
          simp only [Except.map]
          cases ({ c with heap }.release e) <;> rfl

theorem measure_eq_ok {c c' : Collector} {probe : UInt64 → Option UInt64} {id : RecordId}
    (hm : c.measure probe id = .ok c') :
    (∃ size, c.handleOf id ≠ 0 ∧ probe (c.handleOf id) = some size ∧
        c' = c.updateRecord id (·.resolveSize size)) ∨
      (c.handleOf id = 0 ∧ c' = c) ∨
      (c.handleOf id ≠ 0 ∧ probe (c.handleOf id) = none ∧ c.heap.get? (c.handleOf id) = some id ∧
        ∃ c₁, ({ c with heap := (c.heap.remove (c.handleOf id)).1 } : Collector).release id = .ok c₁ ∧
          c' = c₁.updateRecord id SampleRecord.clearHandle) ∨
      (c.handleOf id ≠ 0 ∧ probe (c.handleOf id) = none ∧ c.heap.get? (c.handleOf id) ≠ some id ∧
        c' = c.updateRecord id SampleRecord.clearHandle) := by
  unfold measure at hm
  dsimp only at hm
  by_cases h0 : c.handleOf id = 0
  · simp only [h0, ite_true] at hm
    cases hm
    exact .inr (.inl ⟨h0, rfl⟩)
  · simp only [h0, ite_false] at hm
    cases hp : probe (c.handleOf id) with
    | some size =>
      rw [hp] at hm
      cases hm
      exact .inl ⟨size, h0, rfl, rfl⟩
    | none =>
      rw [hp] at hm
      dsimp only at hm
      by_cases hg : c.heap.get? (c.handleOf id) = some id
      · have hr : c.heap.removeIfSame (c.handleOf id) id =
            ((c.heap.remove (c.handleOf id)).1, some id) := by
          rw [HeapIndex.removeIfSame_of_get? hg]
          exact Prod.ext rfl (by rw [HeapIndex.remove_snd, hg])
        rw [hr] at hm
        dsimp only at hm
        cases hrel : ({ c with heap := (c.heap.remove (c.handleOf id)).1 } : Collector).release id with
        | error e => rw [hrel] at hm; cases hm
        | ok c₁ =>
          rw [hrel] at hm
          cases hm
          exact .inr (.inr (.inl ⟨h0, rfl, hg, c₁, rfl, rfl⟩))
      · rw [HeapIndex.removeIfSame_of_ne hg] at hm
        cases hm
        exact .inr (.inr (.inr ⟨h0, rfl, hg, rfl⟩))

theorem thin_eq_ok {c c' : Collector} {id : RecordId} {draw : UInt32} (ht : c.thin id draw = .ok c') :
    (c.retainRate.admits draw = true ∧ c' = c) ∨
      (c.retainRate.admits draw = false ∧ id ∈ c.ledger.records ∧
        ({ c with ledger := { c.ledger with records := c.ledger.records.erase id } } : Collector).release id
          = .ok c') ∨
      (c.retainRate.admits draw = false ∧ id ∉ c.ledger.records ∧ c' = c) := by
  unfold thin at ht
  cases ha : c.retainRate.admits draw
  · simp only [ha, Bool.false_eq_true, ite_false, Ledger.unlink] at ht
    by_cases hm : id ∈ c.ledger.records
    · simp only [hm, ite_true] at ht
      exact .inr (.inl ⟨rfl, hm, ht⟩)
    · simp only [hm, ite_false] at ht
      cases ht
      exact .inr (.inr ⟨rfl, hm, rfl⟩)
  · simp only [ha, ite_true] at ht
    cases ht
    exact .inl ⟨rfl, rfl⟩

theorem onReturn_eq_ok {c c' : Collector} {probe : UInt64 → Option UInt64} {draws : Nat → UInt32}
    (h : c.onReturn probe draws = .ok c') :
    (c.pending = 0 ∧ c' = c) ∨
      (c.pending ≠ 0 ∧ c.pending ≤ c.ledger.size ∧ ∃ c₁,
        settleAll probe draws c 0 (c.ledger.records.take c.pending) = .ok c₁ ∧
        c' = { c₁ with pending := c₁.pending - (c.ledger.records.take c.pending).length }) := by
  unfold onReturn at h
  by_cases hp : c.pending = 0
  · simp only [hp, ite_true, pure, Except.pure, Except.ok.injEq] at h
    exact .inl ⟨hp, h.symm⟩
  · right
    by_cases hs : c.ledger.size < c.pending
    · simp [hp, hs, bind, Except.bind, throw, throwThe, MonadExceptOf.throw] at h
    · simp only [hp, hs, ite_false, bind, Except.bind, pure, Except.pure] at h
      refine ⟨hp, Nat.le_of_not_lt hs, ?_⟩
      cases hr : settleAll probe draws c 0 (c.ledger.records.take c.pending) with
      | error e => rw [hr] at h; cases h
      | ok c₁ => rw [hr] at h; cases h; exact ⟨c₁, rfl, rfl⟩

/-! ### Relocation

The records that a relocation moves take their new handles one by one; only the store changes.
-/

section Moves

variable (ms : List (UInt64 × RecordId)) (c : Collector)

theorem moveHandles_eq :
    ms.foldl (fun c m => c.updateRecord m.2 (·.setHandle m.1)) c =
      { c with store := (ms.foldl (fun c m => c.updateRecord m.2 (·.setHandle m.1)) c).store } := by
  induction ms generalizing c with
  | nil => rfl
  | cons m ms ih => exact ih _

theorem moveHandles_counts {hs : List RecordId} (hc : c.store.Counts hs) :
    (ms.foldl (fun c m => c.updateRecord m.2 (·.setHandle m.1)) c).store.Counts hs := by
  induction ms generalizing c with
  | nil => exact hc
  | cons m ms ih =>
    refine ih (c.updateRecord m.2 (·.setHandle m.1)) ?_
    rw [updateRecord_store]
    exact hc.update _ _

theorem moveHandles_get?_of_not_mem {x : RecordId} (hx : x ∉ ms.map (·.2)) :
    (ms.foldl (fun c m => c.updateRecord m.2 (·.setHandle m.1)) c).store.get? x = c.store.get? x := by
  induction ms generalizing c with
  | nil => rfl
  | cons m ms ih =>
    simp only [List.map_cons, List.mem_cons, not_or] at hx
    rw [List.foldl_cons, ih _ hx.2, updateRecord_store, RecordStore.get?_update, if_neg hx.1]

/-- A moved record, moved once, ends at its new handle. -/
theorem moveHandles_get?_of_mem {k : UInt64} {x : RecordId} (hn : (ms.map (·.2)).Nodup)
    (hx : (k, x) ∈ ms) :
    (ms.foldl (fun c m => c.updateRecord m.2 (·.setHandle m.1)) c).store.get? x =
      (c.store.get? x).map (·.setHandle k) := by
  induction ms generalizing c with
  | nil => cases hx
  | cons m ms ih =>
    rw [List.map_cons, List.nodup_cons] at hn
    rw [List.foldl_cons]
    rcases List.mem_cons.1 hx with rfl | hx
    · rw [moveHandles_get?_of_not_mem _ _ hn.1, updateRecord_store, RecordStore.get?_update, if_pos rfl]
    · have hne : x ≠ m.2 := fun e => hn.1 (e ▸ List.mem_map_of_mem hx)
      rw [ih _ hn.2 hx, updateRecord_store, RecordStore.get?_update, if_neg hne]

end Moves

/-! ### Export, start and the settings -/

theorem sweepEntry_eq_ok {c c' : Collector} {probe : UInt64 → Option UInt64} {e : UInt64 × RecordId}
    (h : sweepEntry probe c e = .ok c') :
    (∃ size, probe e.1 = some size ∧ c' = c.updateRecord e.2 (·.setCurrentSize size)) ∨
      (probe e.1 = none ∧ c.heap.get? e.1 = some e.2 ∧
        ({ c with heap := (c.heap.remove e.1).1 }.updateRecord e.2 SampleRecord.clearHandle).release e.2
          = .ok c') ∨
      (probe e.1 = none ∧ c.heap.get? e.1 ≠ some e.2 ∧ c' = c) := by
  unfold sweepEntry at h
  cases hp : probe e.1 with
  | some size => rw [hp] at h; cases h; exact .inl ⟨size, rfl, rfl⟩
  | none =>
    rw [hp] at h
    by_cases hg : c.heap.get? e.1 = some e.2
    · simp only [HeapIndex.removeIfSame_of_get? hg, HeapIndex.remove_snd, hg] at h
      exact .inr (.inl ⟨rfl, hg, h⟩)
    · simp only [HeapIndex.removeIfSame_of_ne hg] at h
      cases h
      exact .inr (.inr ⟨rfl, hg, rfl⟩)

theorem flush_eq_ok {c c' : Collector} {probe : UInt64 → Option UInt64} {time : Int64}
    {r : Except SerializationError FlushReport} (h : c.flush probe time = .ok (c', r)) :
    ∃ c₁, c.heap.entries.foldlM (sweepEntry probe)
        { c with pending := 0, ledger := { c.ledger with records := [] }, dropped := {} } = .ok c₁ ∧
      c₁.releaseAll c.ledger.records = .ok c' ∧
      r = (Profile.ofRecords c₁.strings.snapshot c₁.strings.vocabulary time
        (c₁.recordsOf c.ledger.records) (c₁.recordsOf (c₁.heap.entries.map (·.2)))).map
          fun p => ⟨⟨c.ledger.records.length, (c₁.heap.entries.map (·.2)).length, c.dropped⟩, p⟩ := by
  unfold flush at h
  simp only [Ledger.detach, bind, Except.bind, pure, Except.pure] at h
  cases h₁ : c.heap.entries.foldlM (sweepEntry probe)
      { c with pending := 0, ledger := { c.ledger with records := [] }, dropped := {} } with
  | error e => rw [h₁] at h; cases h
  | ok c₁ =>
    rw [h₁] at h
    simp only at h
    cases h₂ : c₁.releaseAll c.ledger.records with
    | error e => rw [h₂] at h; cases h
    | ok c₂ =>
      rw [h₂] at h
      cases h
      exact ⟨c₁, rfl, h₂, rfl⟩

theorem clear_eq_ok {c c' : Collector} (h : c.clear = .ok c') :
    ∃ c₁ c₂,
      releaseAll { c with ledger := { c.ledger with records := [] }, heap := { c.heap with entries := [] } }
        c.ledger.records = .ok c₁ ∧
      c₁.releaseAll (c.heap.entries.map (·.2)) = .ok c₂ ∧
      c' = { c₂ with pending := 0, dropped := {} } := by
  unfold clear at h
  simp only [Ledger.detach, HeapIndex.drain, bind, Except.bind, pure, Except.pure] at h
  split at h
  · cases h
  · rename_i c₁ h₁
    split at h
    · cases h
    · rename_i c₂ h₂
      cases h
      exact ⟨c₁, c₂, h₁, h₂, rfl⟩

theorem start_eq_ok {c c' : Collector} {hooks : Except HostError Unit} {r : Except HostError Unit}
    (h : c.start hooks = .ok (c', r)) :
    (c.running = true ∧ c' = c) ∨
      (c.running = false ∧ ∃ c₁, c.clear = .ok c₁ ∧ (c' = { c₁ with running := true } ∨ c' = c₁)) := by
  unfold start at h
  cases hr : c.running
  · right
    simp only [hr, Bool.false_eq_true, ite_false, bind, Except.bind] at h
    refine ⟨rfl, ?_⟩
    cases hc : c.clear with
    | error e => rw [hc] at h; cases h
    | ok c₁ =>
      rw [hc] at h
      refine ⟨c₁, rfl, ?_⟩
      cases hooks with
      | ok u => cases h; exact .inl rfl
      | error e => cases h; exact .inr rfl
  · simp only [hr, ite_true, pure, Except.pure, Except.ok.injEq, Prod.mk.injEq] at h
    exact .inl ⟨rfl, h.1.symm⟩

theorem stop_fst (c : Collector) (unhooks : Except HostError Unit) :
    (c.stop unhooks).1 = c ∨ (c.stop unhooks).1 = { c with running := false } := by
  unfold stop
  split
  · split
    · exact .inr rfl
    · exact .inl rfl
  · exact .inl rfl

theorem configure_eq_ok {c c' : Collector} {s : Settings} (h : c.configure s = .ok c') :
    c' = { c with sampleRate := c'.sampleRate, retainRate := c'.retainRate, method := s.method,
                  ledger := c.ledger.setCapacity s.maxAllocationSamples,
                  heap := c.heap.setCapacity s.maxHeapSamples } := by
  unfold configure at h
  cases hr : s.rates with
  | error e => simp [hr, bind, Except.bind] at h
  | ok rates =>
    simp only [hr, bind, Except.bind, pure, Except.pure, Except.ok.injEq] at h
    cases h
    rfl

theorem setSampleRate_eq_ok {c c' : Collector} {p : Float} (h : c.setSampleRate p = .ok c') :
    c' = { c with sampleRate := c'.sampleRate } := by
  unfold setSampleRate at h
  cases hr : Rate.ofProbability "sample_rate" p with
  | error e => simp [hr, bind, Except.bind] at h
  | ok r => simp only [hr, bind, Except.bind, pure, Except.pure, Except.ok.injEq] at h; cases h; rfl

theorem setRetainRate_eq_ok {c c' : Collector} {p : Float} (h : c.setRetainRate p = .ok c') :
    c' = { c with retainRate := c'.retainRate } := by
  unfold setRetainRate at h
  cases hr : Rate.ofProbability "allocation_retain_rate" p with
  | error e => simp [hr, bind, Except.bind] at h
  | ok r => simp only [hr, bind, Except.bind, pure, Except.pure, Except.ok.injEq] at h; cases h; rfl

end Collector

end HeapSampler
