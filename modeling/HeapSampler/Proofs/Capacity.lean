import HeapSampler.Proofs.Steps
import HeapSampler.Proofs.Run

/-!
# The containers stay within their capacities

The ledger and the heap index each have a capacity, which the collector checks before it
captures a stack and again once the capture is over, since the events fired during a capture
may have filled either container.  Neither container enforces its capacity itself, and a
capacity may be lowered below the current length at any time: the records beyond it stay.

The bound that every call and event other than a change of capacity keeps is
`Collector.StaysWithin c c'`: each container of `c'` is no longer than the longer of the same
container in `c` and its capacity.  It is reflexive and transitive, so it passes from single
events to whole runs of events, the nested runs of captures included.  Most operations only
shrink the containers; the second half of an allocation grows each by at most one, and only
when the check it makes right before has found room.

## Main definitions

* `Collector.StaysWithin` — the bound on the containers across a call or a run.
* `Abort.IsOverRelease` — the aborts raised by a table asked to give back what it does not
  hold.

## Main results

* `HeapIndex.size_insert_le`, `HeapIndex.size_remove_le`, `HeapIndex.size_relocate_le`.
* `Collector.staysWithin_finishAlloc` — the second half of an allocation stays within the
  capacities.
* `EventRun.staysWithin` — so does every run of events, at any depth of captures.
* `Collector.finishAlloc_error` — the second half of an allocation aborts only when a table is
  over-released, never because the ledger refused the record it had room for.
* `containers_within_capacity` — the bound for every event, relocation, export and start.
-/

namespace HeapSampler

/-! ### Lengths of the containers -/

namespace HeapIndex

@[simp] theorem capacity_insert (ix : HeapIndex) (h : UInt64) (r : RecordId) :
    (ix.insert h r).1.capacity = ix.capacity := by
  unfold insert
  split <;> rfl

@[simp] theorem capacity_remove (ix : HeapIndex) (h : UInt64) : (ix.remove h).1.capacity = ix.capacity := by
  unfold remove
  split <;> rfl

@[simp] theorem capacity_settle (ix : HeapIndex) (ms : List (UInt64 × RecordId)) :
    (ix.settle ms).1.capacity = ix.capacity := by
  induction ms generalizing ix with
  | nil => rfl
  | cons m ms ih => exact (ih _).trans (capacity_insert ix m.1 m.2)

@[simp] theorem capacity_relocate (ix : HeapIndex) (remap : UInt64 → UInt64) :
    (ix.relocate remap).1.capacity = ix.capacity :=
  capacity_settle _ _

theorem size_insert_le (ix : HeapIndex) (h : UInt64) (r : RecordId) :
    (ix.insert h r).1.size ≤ ix.size + 1 := by
  unfold insert size
  split
  · rw [List.length_map]
    exact Nat.le_succ _
  · exact Nat.le_of_eq (by rw [List.length_append, List.length_singleton])

theorem size_remove_le (ix : HeapIndex) (h : UInt64) : (ix.remove h).1.size ≤ ix.size := by
  unfold remove size
  split
  · exact List.length_filter_le _ _
  · exact Nat.le_refl _

theorem size_removeIfSame_le (ix : HeapIndex) (h : UInt64) (r : RecordId) :
    (ix.removeIfSame h r).1.size ≤ ix.size := by
  unfold removeIfSame
  split
  · exact size_remove_le ix h
  · exact Nat.le_refl _

/-- Putting moved entries in adds at most one entry per moved entry. -/
theorem size_settle_le (ix : HeapIndex) (ms : List (UInt64 × RecordId)) :
    (ix.settle ms).1.size ≤ ix.size + ms.length := by
  induction ms generalizing ix with
  | nil => exact Nat.le_refl _
  | cons m ms ih =>
    have h₁ := size_insert_le ix m.1 m.2
    have h₂ := ih (ix.insert m.1 m.2).1
    simp only [settle, List.length_cons]
    omega

/-- A relocation never grows the index: the entries that stay and the moved ones are as many
as there were, and a moved entry that lands on a taken handle takes its place. -/
theorem size_relocate_le (ix : HeapIndex) (remap : UInt64 → UInt64) :
    (ix.relocate remap).1.size ≤ ix.size := by
  have hsplit := List.length_eq_length_filter_add (l := ix.entries)
    (fun e : UInt64 × RecordId => remap e.1 == e.1)
  have hmoves : (ix.moves remap).length =
      (ix.entries.filter fun e => !(remap e.1 == e.1)).length := by
    rw [moves, List.length_map]
    rfl
  have hsettle := size_settle_le { ix with entries := ix.entries.filter fun e => remap e.1 == e.1 }
    (ix.moves remap)
  have e : (ix.relocate remap).1 =
      ({ ix with entries := ix.entries.filter fun e => remap e.1 == e.1 }.settle (ix.moves remap)).1 :=
    rfl
  simp only [size] at hsettle ⊢
  rw [e]
  omega

end HeapIndex

/-! ### Aborts of the tables -/

/-- The aborts raised by a table asked to give back a reference it does not hold: a string, a
location or a function released more often than it was interned. -/
def Abort.IsOverRelease : Abort → Prop
  | .stringNotInterned _ => True
  | .locationOverReleased _ => True
  | .functionOverReleased _ => True
  | .ledgerFullAfterCheck => False
  | .pendingBeyondLedger _ _ => False

/-- A failure of a bound computation is a failure of one of its halves. -/
theorem Except.error_of_bind {ε α β : Type} {x : Except ε α} {f : α → Except ε β} {e : ε}
    (h : (x >>= f) = .error e) : x = .error e ∨ ∃ a, x = .ok a ∧ f a = .error e := by
  cases hx : x with
  | error e' =>
    rw [hx] at h
    exact .inl (by cases h; rfl)
  | ok a =>
    rw [hx] at h
    exact .inr ⟨a, rfl, h⟩

namespace StringTable

theorem release_error {t : StringTable} {r : Interned} {e : Abort} (h : t.release r = .error e) :
    e.IsOverRelease := by
  unfold release at h
  split at h
  · split at h
    · split at h <;> cases h
    · cases h
      trivial
  · cases h
    trivial

end StringTable

namespace LocationTable

theorem releaseLocation_error {t : LocationTable} {id : UInt64} {e : Abort}
    (h : t.releaseLocation id = .error e) : e.IsOverRelease := by
  unfold releaseLocation at h
  split at h
  · cases h
    trivial
  · split at h <;> cases h

theorem releaseFunction_error {t : LocationTable} {S : StringTable} {id : UInt64} {e : Abort}
    (h : t.releaseFunction S id = .error e) : e.IsOverRelease := by
  unfold releaseFunction at h
  split at h
  · cases h
    trivial
  · split at h
    · -- The function goes: its name and then its file are released.
      rcases Except.error_of_bind h with h₁ | ⟨S₁, -, h₂⟩
      · exact StringTable.release_error h₁
      · rcases Except.error_of_bind h₂ with h₃ | ⟨S₂, -, h₄⟩
        · exact StringTable.release_error h₃
        · cases h₄
    · cases h

theorem releaseOne_error {t : LocationTable} {S : StringTable} {loc : Location} {e : Abort}
    (h : t.releaseOne S loc = .error e) : e.IsOverRelease := by
  unfold releaseOne at h
  rcases Except.error_of_bind h with h₁ | ⟨t₁, -, h₂⟩
  · exact releaseLocation_error h₁
  · exact releaseFunction_error h₂

theorem release_error {t : LocationTable} {S : StringTable} {bt : Backtrace} {e : Abort}
    (h : t.release S bt = .error e) : e.IsOverRelease := by
  unfold release at h
  -- The frames are given back one by one; the first that fails gives the error.
  generalize bt.reverse = locs at h
  induction locs generalizing t S with
  | nil => cases h
  | cons loc locs ih =>
    rw [List.foldlM_cons] at h
    rcases Except.error_of_bind h with h₁ | ⟨⟨t₁, S₁⟩, -, h₂⟩
    · exact releaseOne_error h₁
    · exact ih h₂

end LocationTable

/-! ### The bound -/

namespace Collector

/-- `c'` has the capacities of `c`, and each of its containers is no longer than the longer of
the same container in `c` and its capacity. -/
structure StaysWithin (c c' : Collector) : Prop where
  /-- The ledger's capacity is kept. -/
  ledger_capacity : c'.ledger.capacity = c.ledger.capacity
  /-- The heap index's capacity is kept. -/
  heap_capacity : c'.heap.capacity = c.heap.capacity
  /-- The ledger grows only up to its capacity. -/
  ledger_size : c'.ledger.size ≤ max c.ledger.size c.ledger.capacity
  /-- The heap index grows only up to its capacity. -/
  heap_size : c'.heap.size ≤ max c.heap.size c.heap.capacity

namespace StaysWithin

variable {c c₁ c₂ : Collector}

/-- Containers that keep their capacities and do not grow stay within them. -/
theorem of_le (hlc : c₁.ledger.capacity = c.ledger.capacity) (hhc : c₁.heap.capacity = c.heap.capacity)
    (hl : c₁.ledger.size ≤ c.ledger.size) (hh : c₁.heap.size ≤ c.heap.size) : StaysWithin c c₁ :=
  ⟨hlc, hhc, Nat.le_trans hl (Nat.le_max_left _ _), Nat.le_trans hh (Nat.le_max_left _ _)⟩

theorem refl (c : Collector) : StaysWithin c c :=
  of_le rfl rfl (Nat.le_refl _) (Nat.le_refl _)

/-- Containers that are the same stay within their capacities. -/
theorem of_eq (hl : c₁.ledger = c.ledger) (hh : c₁.heap = c.heap) : StaysWithin c c₁ :=
  of_le (by rw [hl]) (by rw [hh]) (Nat.le_of_eq (by rw [hl])) (Nat.le_of_eq (by rw [hh]))

theorem trans (h₁ : StaysWithin c c₁) (h₂ : StaysWithin c₁ c₂) : StaysWithin c c₂ := by
  have hl := h₂.ledger_size
  have hh := h₂.heap_size
  rw [h₁.ledger_capacity] at hl
  rw [h₁.heap_capacity] at hh
  refine ⟨h₂.ledger_capacity.trans h₁.ledger_capacity, h₂.heap_capacity.trans h₁.heap_capacity,
    ?_, ?_⟩
  · exact Nat.le_trans hl (Nat.max_le.2 ⟨h₁.ledger_size, Nat.le_max_right _ _⟩)
  · exact Nat.le_trans hh (Nat.max_le.2 ⟨h₁.heap_size, Nat.le_max_right _ _⟩)

end StaysWithin

variable {c c' : Collector}

/-- A fold whose every step stays within the capacities stays within them. -/
theorem foldlM_staysWithin {α ε : Type} {f : Collector → α → Except ε Collector}
    (hf : ∀ {c c'} a, f c a = .ok c' → StaysWithin c c') {l : List α} (h : l.foldlM f c = .ok c') :
    StaysWithin c c' := by
  induction l generalizing c with
  | nil => cases h; exact .refl _
  | cons a l ih =>
    simp only [List.foldlM_cons, bind, Except.bind] at h
    cases ha : f c a with
    | error e => rw [ha] at h; cases h
    | ok c₁ =>
      rw [ha] at h
      exact (hf a ha).trans (ih h)

/-! #### Operations that only shrink the containers -/

theorem staysWithin_release {id : RecordId} (h : c.release id = .ok c') : StaysWithin c c' := by
  rw [release_eq_ok h]
  exact .of_eq rfl rfl

theorem staysWithin_releaseAll {ids : List RecordId} (h : c.releaseAll ids = .ok c') :
    StaysWithin c c' :=
  foldlM_staysWithin (fun _ h => staysWithin_release h) h

theorem staysWithin_updateRecord (c : Collector) (id : RecordId) (f : SampleRecord → SampleRecord) :
    StaysWithin c (c.updateRecord id f) :=
  .of_eq rfl rfl

/-- Taking the entry of a handle out of the heap index, then letting go of its record. -/
theorem staysWithin_removeEntry {h : UInt64} {id : RecordId}
    (hr : ({ c with heap := (c.heap.remove h).1 }.updateRecord id SampleRecord.clearHandle).release id
      = .ok c') : StaysWithin c c' := by
  have hs : StaysWithin c { c with heap := (c.heap.remove h).1 } :=
    .of_le rfl (c.heap.capacity_remove h) (Nat.le_refl _) (c.heap.size_remove_le h)
  exact (hs.trans (staysWithin_updateRecord _ id _)).trans (staysWithin_release hr)

theorem staysWithin_evict {h : UInt64} (he : c.evict h = .ok c') : StaysWithin c c' := by
  rcases evict_eq_ok he with ⟨-, rfl⟩ | ⟨id, -, hr⟩
  · exact .refl _
  · exact staysWithin_removeEntry hr

theorem staysWithin_beginAlloc {h : UInt64} {draw : UInt32} {d : Nat} {m : Option CaptureMethod}
    (hb : c.beginAlloc h draw d = .ok (c', m)) : StaysWithin c c' := by
  obtain ⟨c₀, he, hd⟩ := beginAlloc_eq_ok hb
  -- The decision only counts a drop.
  have e := sampleDecision_fst c₀ draw d
  rw [hd] at e
  dsimp only at e
  exact (staysWithin_evict he).trans (.of_eq (by rw [e]) (by rw [e]))

theorem staysWithin_measure {probe : UInt64 → Option UInt64} {id : RecordId}
    (hm : c.measure probe id = .ok c') : StaysWithin c c' := by
  rcases measure_eq_ok hm with ⟨size, -, -, rfl⟩ | ⟨-, rfl⟩ | ⟨-, -, -, c₁, hr, rfl⟩ | ⟨-, -, -, rfl⟩
  · exact staysWithin_updateRecord c id _
  · exact .refl _
  · have hs : StaysWithin c { c with heap := (c.heap.remove (c.handleOf id)).1 } :=
      .of_le rfl (c.heap.capacity_remove _) (Nat.le_refl _) (c.heap.size_remove_le _)
    exact (hs.trans (staysWithin_release hr)).trans (staysWithin_updateRecord c₁ id _)
  · exact staysWithin_updateRecord c id _

theorem staysWithin_thin {id : RecordId} {draw : UInt32} (ht : c.thin id draw = .ok c') :
    StaysWithin c c' := by
  rcases thin_eq_ok ht with ⟨-, rfl⟩ | ⟨-, -, hr⟩ | ⟨-, -, rfl⟩
  · exact .refl _
  · have hs : StaysWithin c
        { c with ledger := { c.ledger with records := c.ledger.records.erase id } } :=
      .of_le rfl rfl List.length_erase_le (Nat.le_refl _)
    exact hs.trans (staysWithin_release hr)
  · exact .refl _

theorem staysWithin_settleAll {probe : UInt64 → Option UInt64} {draws : Nat → UInt32} {i : Nat}
    {ids : List RecordId} (hs : settleAll probe draws c i ids = .ok c') : StaysWithin c c' := by
  induction ids generalizing c i with
  | nil => cases hs; exact .refl _
  | cons id ids ih =>
    simp only [settleAll, bind, Except.bind, settle_eq] at hs
    cases hm : c.measure probe id with
    | error e => rw [hm] at hs; cases hs
    | ok c₁ =>
      rw [hm] at hs
      dsimp only at hs
      cases ht : c₁.thin id (draws i) with
      | error e => rw [ht] at hs; cases hs
      | ok c₂ =>
        rw [ht] at hs
        exact ((staysWithin_measure hm).trans (staysWithin_thin ht)).trans (ih hs)

theorem staysWithin_onReturn {probe : UInt64 → Option UInt64} {draws : Nat → UInt32}
    (hr : c.onReturn probe draws = .ok c') : StaysWithin c c' := by
  rcases onReturn_eq_ok hr with ⟨-, rfl⟩ | ⟨-, -, c₁, hs, rfl⟩
  · exact .refl _
  · exact (staysWithin_settleAll hs).trans (.of_eq rfl rfl)

theorem staysWithin_moveHandles (ms : List (UInt64 × RecordId)) (c : Collector) :
    StaysWithin c (ms.foldl (fun c m => c.updateRecord m.2 (·.setHandle m.1)) c) := by
  rw [moveHandles_eq]
  exact .of_eq rfl rfl

theorem staysWithin_relocate {remap : UInt64 → UInt64} (hr : c.relocate remap = .ok c') :
    StaysWithin c c' := by
  -- The index shrinks; moving handles and letting go of displaced records keep the containers.
  have hix : StaysWithin c { c with heap := (c.heap.relocate remap).1 } :=
    .of_le rfl (c.heap.capacity_relocate remap) (Nat.le_refl _) (c.heap.size_relocate_le remap)
  refine (hix.trans (staysWithin_moveHandles (c.heap.moves remap) _)).trans ?_
  exact foldlM_staysWithin (fun id h =>
    (staysWithin_updateRecord _ id _).trans (staysWithin_release h)) hr

theorem staysWithin_sweep {probe : UInt64 → Option UInt64} {l : List (UInt64 × RecordId)}
    (hs : l.foldlM (sweepEntry probe) c = .ok c') : StaysWithin c c' := by
  refine foldlM_staysWithin (fun e he => ?_) hs
  rcases sweepEntry_eq_ok he with ⟨size, -, rfl⟩ | ⟨-, -, hr⟩ | ⟨-, -, rfl⟩
  · exact staysWithin_updateRecord _ e.2 _
  · exact staysWithin_removeEntry hr
  · exact .refl _

theorem staysWithin_flush {probe : UInt64 → Option UInt64} {time : Int64}
    {r : Except SerializationError FlushReport} (hf : c.flush probe time = .ok (c', r)) :
    StaysWithin c c' := by
  obtain ⟨c₁, hs, hr, -⟩ := flush_eq_ok hf
  -- The ledger is taken out whole before the sweep.
  have hd : StaysWithin c
      { c with pending := 0, ledger := { c.ledger with records := [] }, dropped := {} } :=
    .of_le rfl rfl (Nat.zero_le _) (Nat.le_refl _)
  exact (hd.trans (staysWithin_sweep hs)).trans (staysWithin_releaseAll hr)

theorem staysWithin_start {hooks r : Except HostError Unit} (h : c.start hooks = .ok (c', r)) :
    StaysWithin c c' := by
  rcases start_eq_ok h with ⟨-, rfl⟩ | ⟨-, c₁, hc, hc'⟩
  · exact .refl _
  · obtain ⟨c₂, c₃, h₂, h₃, rfl⟩ := clear_eq_ok hc
    have he : StaysWithin c
        { c with ledger := { c.ledger with records := [] }, heap := { c.heap with entries := [] } } :=
      .of_le rfl rfl (Nat.zero_le _) (Nat.zero_le _)
    have hc₃ := (he.trans (staysWithin_releaseAll h₂)).trans (staysWithin_releaseAll h₃)
    rcases hc' with rfl | rfl
    · exact hc₃.trans (.of_eq rfl rfl)
    · exact hc₃.trans (.of_eq rfl rfl)

/-! #### The second half of an allocation -/

/-- Letting go of a record aborts only when a table is over-released. -/
theorem release_error {id : RecordId} {e : Abort} (h : c.release id = .error e) : e.IsOverRelease := by
  unfold Collector.release at h
  cases hr : c.store.release id with
  | mk store gone =>
    rw [hr] at h
    cases gone with
    | none => cases h
    | some r =>
      rcases Except.error_of_bind h with h₁ | ⟨⟨t, S⟩, -, h₂⟩
      · exact LocationTable.release_error h₁
      · cases h₂

/-- A new record goes into containers the room check has just found not full, so each grows by
one up to its capacity at most. -/
theorem staysWithin_enroll (hl : c.ledger.isFull = false) (hh : c.heap.isFull = false)
    (h size : UInt64) (frames : List Frame) : StaysWithin c (c.enroll h size frames) := by
  have hl' : c.ledger.size < c.ledger.capacity := by
    simpa [Ledger.isFull, Ledger.size] using hl
  have hh' : c.heap.size < c.heap.capacity := by
    simpa [HeapIndex.isFull, HeapIndex.size] using hh
  have hins := c.heap.size_insert_le h c.store.nextId
  refine ⟨rfl, c.heap.capacity_insert h c.store.nextId, ?_, ?_⟩
  · show c.ledger.records.length + 1 ≤ max c.ledger.size c.ledger.capacity
    exact Nat.le_trans hl' (Nat.le_max_right _ _)
  · exact Nat.le_trans (Nat.le_trans hins hh') (Nat.le_max_right _ _)

theorem staysWithin_finishAlloc {h size : UInt64} {frames : List Frame}
    (hf : c.finishAlloc h size frames = .ok c') : StaysWithin c c' := by
  rcases finishAlloc_eq_ok hf with ⟨-, rfl⟩ | ⟨hc, hm⟩
  · -- No room: only a drop is counted.
    have e := checkRoom_fst c
    exact .of_eq (by rw [e]) (by rw [e])
  · obtain ⟨-, hl, hh⟩ := checkRoom_true (by rw [hc])
    have he := staysWithin_enroll hl hh h size frames
    cases hg : c.heap.get? h with
    | none =>
      rw [hg] at hm
      rw [hm]
      exact he
    | some old =>
      rw [hg] at hm
      exact he.trans ((staysWithin_updateRecord _ old _).trans (staysWithin_release hm))

/-- The second half of an allocation aborts only when a table is over-released while the
record the new one displaces is let go: the ledger never refuses the record it was just found
to have room for. -/
theorem finishAlloc_error {h size : UInt64} {frames : List Frame} {e : Abort}
    (hf : c.finishAlloc h size frames = .error e) : e.IsOverRelease := by
  unfold finishAlloc at hf
  rcases checkRoom_cases c with ⟨-, hc⟩ | ⟨-, -, hc⟩ | ⟨hl, -, hc⟩
  · rw [hc] at hf
    cases hf
  · rw [hc] at hf
    cases hf
  · rw [hc] at hf
    simp only [Bool.not_true, Bool.false_eq_true, ite_false, Ledger.push, hl, bind, Except.bind,
      pure, Except.pure, HeapIndex.insert_snd, RecordStore.add_snd] at hf
    -- Only letting go of a displaced record can fail.
    cases hg : c.heap.get? h with
    | none => rw [hg] at hf; cases hf
    | some old => rw [hg] at hf; exact release_error hf

end Collector

open Collector in
/-- Every run of events, at any depth of captures, stays within the capacities. -/
theorem EventRun.staysWithin {d : Nat} {c c' : Collector} (r : EventRun d c c') :
    c.StaysWithin c' := by
  induction r with
  | nil => exact .refl _
  | free _ hs _ ih => exact (staysWithin_evict hs).trans ih
  | ret _ _ hs _ ih => exact (staysWithin_onReturn hs).trans ih
  | alloc _ _ hs _ ih => exact (staysWithin_beginAlloc hs).trans ih
  | allocFailed _ _ _ hs _ _ ihn ih => exact ((staysWithin_beginAlloc hs).trans ihn).trans ih
  | allocCaptured _ _ _ _ _ hs _ hf _ ihn ih =>
    -- The events of the capture may fill the containers; the second half checks again.
    exact (((staysWithin_beginAlloc hs).trans ihn).trans (staysWithin_finishAlloc hf)).trans ih

/-- **The containers stay within their capacities.**  Every run of events, at any depth of
captures and with any events fired during captures, every relocation, every export and every
start leaves each container no longer than the longer of its length before and its capacity.
So containers within their capacities stay within them, and a container longer than a lowered
capacity takes no record until it is shorter than it.  The ledger never refuses the record of
an allocation that found room: the second half of an allocation aborts only on an
over-released table. -/
theorem containers_within_capacity :
    (∀ {d : Nat} {c c' : Collector}, EventRun d c c' → c.StaysWithin c') ∧
      (∀ {c c' : Collector} {remap : UInt64 → UInt64}, c.relocate remap = .ok c' →
        c.StaysWithin c') ∧
      (∀ {c c' : Collector} {probe : UInt64 → Option UInt64} {time : Int64}
        {r : Except SerializationError FlushReport}, c.flush probe time = .ok (c', r) →
          c.StaysWithin c') ∧
      (∀ {c c' : Collector} {hooks r : Except HostError Unit}, c.start hooks = .ok (c', r) →
        c.StaysWithin c') ∧
      (∀ {c : Collector} {h size : UInt64} {frames : List Frame} {e : Abort},
        c.finishAlloc h size frames = .error e → e.IsOverRelease) :=
  ⟨fun r => r.staysWithin, Collector.staysWithin_relocate, Collector.staysWithin_flush,
    Collector.staysWithin_start, Collector.finishAlloc_error⟩

/-- After `sharedFrameHistory`, with the ledger's capacity lowered to `1`, below its two records,
an admitted allocation takes no record: the ledger keeps its two. -/
theorem lowered_capacity_takes_no_record :
    ∃ (c c' : Collector) (_ : EventRun 0 c c'), c.ledger.capacity = 1 ∧ c.ledger.size = 2 ∧
      c'.ledger.size = 2 ∧ c.StaysWithin c' :=
  let r : EventRun 0 (sharedFrameHistory.1.setMaxAllocationSamples 1) _ := .alloc 9 0 rfl (.nil _ _)
  ⟨_, _, r, by decide +kernel, by decide +kernel, by decide +kernel, containers_within_capacity.1 r⟩

end HeapSampler
