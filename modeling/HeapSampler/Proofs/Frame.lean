import HeapSampler.Proofs.Steps

/-!
# What the operations leave alone

Most of what the collector does touches the heap index and the store only: letting go of a
record, moving a handle, forgetting an object.  The ledger, the pending count, the next record
name and the drop counts stay as they were; `Collector.SameCounts` says so, and every such
operation gets one lemma saying it.  The few operations that do change those four are described
here by exactly how: a return settles its pending records and leaves none pending
(`Collector.Settled`, `Collector.onReturn_frame`), the second half of an allocation pushes one
record or counts one drop (`Collector.finishAlloc_frame`), and a start and an export empty the
ledger and zero the counts.

## Main definitions

* `Collector.SameCounts` — the same ledger, pending count, next name and drop counts.
* `Collector.Settled` — what settling some pending records leaves alone.

## Main results

* `Collector.SameCounts.of_evict`, `Collector.SameCounts.of_relocate`,
  `Collector.SameCounts.of_sweep` — a free, a relocation and the sweep of an export.
* `Collector.settleAll_settled`, `Collector.onReturn_frame`, `Collector.onReturn_eq_settleAll`.
* `Collector.finishAlloc_frame`, `Collector.clear_frame`, `Collector.flush_frame`.
-/

namespace HeapSampler

namespace Collector

/-- `c'` has the ledger, the pending count, the next record name and the drop counts of `c`. -/
structure SameCounts (c c' : Collector) : Prop where
  records : c'.ledger.records = c.ledger.records
  pending : c'.pending = c.pending
  nextId : c'.store.nextId = c.store.nextId
  dropped : c'.dropped = c.dropped

namespace SameCounts

variable {c c₁ c₂ : Collector}

theorem refl (c : Collector) : SameCounts c c := ⟨rfl, rfl, rfl, rfl⟩

theorem trans (h₁ : SameCounts c c₁) (h₂ : SameCounts c₁ c₂) : SameCounts c c₂ :=
  ⟨h₂.records.trans h₁.records, h₂.pending.trans h₁.pending, h₂.nextId.trans h₁.nextId,
    h₂.dropped.trans h₁.dropped⟩

theorem updateRecord (c : Collector) (id : RecordId) (f : SampleRecord → SampleRecord) :
    SameCounts c (c.updateRecord id f) := ⟨rfl, rfl, rfl, rfl⟩

/-- A change of the heap index alone. -/
theorem withHeap (c : Collector) (ix : HeapIndex) : SameCounts c { c with heap := ix } :=
  ⟨rfl, rfl, rfl, rfl⟩

theorem of_release {id : RecordId} (h : c.release id = .ok c₁) : SameCounts c c₁ := by
  rw [release_eq_ok h]
  exact ⟨rfl, rfl, RecordStore.nextId_release _ _, rfl⟩

theorem of_releaseAll {ids : List RecordId} (h : c.releaseAll ids = .ok c₁) : SameCounts c c₁ := by
  induction ids generalizing c with
  | nil => cases h; exact refl _
  | cons id ids ih =>
    obtain ⟨c', h₁, h₂⟩ := releaseAll_cons h
    exact (of_release h₁).trans (ih h₂)

/-- Forgetting the object under a handle: a free, or the first step of an allocation. -/
theorem of_evict {h : UInt64} (he : c.evict h = .ok c₁) : SameCounts c c₁ := by
  rcases evict_eq_ok he with ⟨-, rfl⟩ | ⟨id, -, hr⟩
  · exact refl _
  · exact ((withHeap c _).trans (updateRecord _ id _)).trans (of_release hr)

theorem of_measure {probe : UInt64 → Option UInt64} {id : RecordId}
    (hm : c.measure probe id = .ok c₁) : SameCounts c c₁ := by
  rcases measure_eq_ok hm with ⟨size, -, -, rfl⟩ | ⟨-, rfl⟩ | ⟨-, -, -, c', hr, rfl⟩ | ⟨-, -, -, rfl⟩
  · exact updateRecord c id _
  · exact refl _
  · exact ((withHeap c _).trans (of_release hr)).trans (updateRecord c' id _)
  · exact updateRecord c id _

/-- The sweep of an export over the heap entries. -/
theorem of_sweep {probe : UInt64 → Option UInt64} {l : List (UInt64 × RecordId)}
    (hs : l.foldlM (sweepEntry probe) c = .ok c₁) : SameCounts c c₁ := by
  induction l generalizing c with
  | nil => cases hs; exact refl _
  | cons e l ih =>
    simp only [List.foldlM_cons, bind, Except.bind] at hs
    cases he : sweepEntry probe c e with
    | error err => rw [he] at hs; cases hs
    | ok c' =>
      rw [he] at hs
      refine SameCounts.trans ?_ (ih hs)
      rcases sweepEntry_eq_ok he with ⟨size, -, rfl⟩ | ⟨-, -, hr⟩ | ⟨-, -, rfl⟩
      · exact updateRecord c e.2 _
      · exact ((withHeap c _).trans (updateRecord _ e.2 _)).trans (of_release hr)
      · exact refl _

theorem of_moveHandles (ms : List (UInt64 × RecordId)) (c : Collector) :
    SameCounts c (ms.foldl (fun c m => c.updateRecord m.2 (·.setHandle m.1)) c) := by
  induction ms generalizing c with
  | nil => exact refl c
  | cons m ms ih => exact (updateRecord c m.2 _).trans (ih _)

theorem of_dropAll {ids : List RecordId}
    (hd : ids.foldlM (fun c id => (c.updateRecord id SampleRecord.clearHandle).release id) c = .ok c₁) :
    SameCounts c c₁ := by
  induction ids generalizing c with
  | nil => cases hd; exact refl _
  | cons id ids ih =>
    simp only [List.foldlM_cons, bind, Except.bind] at hd
    cases hr : (c.updateRecord id SampleRecord.clearHandle).release id with
    | error e => rw [hr] at hd; cases hd
    | ok c' =>
      rw [hr] at hd
      exact ((updateRecord c id _).trans (of_release hr)).trans (ih hd)

theorem of_relocate {remap : UInt64 → UInt64} (hr : c.relocate remap = .ok c₁) : SameCounts c c₁ :=
  ((withHeap c (c.heap.relocate remap).1).trans (of_moveHandles (c.heap.moves remap) _)).trans
    (of_dropAll hr)

end SameCounts

/-! ### Settling pending records -/

variable {c c₁ c₂ : Collector}

theorem store_get?_of_release {id x : RecordId} (h : c.release id = .ok c₁) (hx : x ≠ id) :
    c₁.store.get? x = c.store.get? x := by
  rw [release_eq_ok h]
  exact RecordStore.get?_release_of_ne hx

theorem store_get?_of_updateRecord (c : Collector) {id x : RecordId} (f : SampleRecord → SampleRecord)
    (hx : x ≠ id) : (c.updateRecord id f).store.get? x = c.store.get? x := by
  rw [updateRecord_store, RecordStore.get?_update, if_neg hx]

/-- Settling the records `ids` took `c` to `c'`: the pending count, the next name, the drop
counts and the retain rate stay, and so does every other record. -/
structure Settled (ids : List RecordId) (c c' : Collector) : Prop where
  pending : c'.pending = c.pending
  nextId : c'.store.nextId = c.store.nextId
  dropped : c'.dropped = c.dropped
  retainRate : c'.retainRate = c.retainRate
  get? : ∀ x, x ∉ ids → c'.store.get? x = c.store.get? x

theorem Settled.trans {id : RecordId} {ids : List RecordId} (h₁ : Settled [id] c c₁)
    (h₂ : Settled ids c₁ c₂) : Settled (id :: ids) c c₂ where
  pending := h₂.pending.trans h₁.pending
  nextId := h₂.nextId.trans h₁.nextId
  dropped := h₂.dropped.trans h₁.dropped
  retainRate := h₂.retainRate.trans h₁.retainRate
  get? x hx := by
    rw [List.mem_cons, not_or] at hx
    rw [h₂.get? x hx.2, h₁.get? x (by rw [List.mem_singleton]; exact hx.1)]

/-- Letting go of a record changes only it. -/
theorem settled_of_release {id : RecordId} (h : c.release id = .ok c₁) : Settled [id] c c₁ := by
  have e := SameCounts.of_release h
  refine ⟨e.pending, e.nextId, e.dropped, by rw [release_eq_ok h], fun x hx => ?_⟩
  exact store_get?_of_release h (fun e => hx (List.mem_singleton.2 e))

theorem settled_of_updateRecord (c : Collector) (id : RecordId) (f : SampleRecord → SampleRecord) :
    Settled [id] c (c.updateRecord id f) :=
  ⟨rfl, rfl, rfl, rfl, fun _ hx => store_get?_of_updateRecord c f (fun e => hx (List.mem_singleton.2 e))⟩

/-- Taking an entry out of the heap index touches no record. -/
theorem settled_withHeap (c : Collector) (ix : HeapIndex) (id : RecordId) :
    Settled [id] c { c with heap := ix } := ⟨rfl, rfl, rfl, rfl, fun _ _ => rfl⟩

/-- Taking a record out of the ledger touches no record. -/
theorem settled_withLedger (c : Collector) (l : Ledger) (id : RecordId) :
    Settled [id] c { c with ledger := l } := ⟨rfl, rfl, rfl, rfl, fun _ _ => rfl⟩

/-- Two changes of one record. -/
theorem Settled.comp {id : RecordId} (h₁ : Settled [id] c c₁) (h₂ : Settled [id] c₁ c₂) :
    Settled [id] c c₂ where
  pending := h₂.pending.trans h₁.pending
  nextId := h₂.nextId.trans h₁.nextId
  dropped := h₂.dropped.trans h₁.dropped
  retainRate := h₂.retainRate.trans h₁.retainRate
  get? x hx := by rw [h₂.get? x hx, h₁.get? x hx]

theorem settled_of_measure {probe : UInt64 → Option UInt64} {id : RecordId}
    (hm : c.measure probe id = .ok c₁) : Settled [id] c c₁ := by
  rcases measure_eq_ok hm with ⟨size, -, -, rfl⟩ | ⟨-, rfl⟩ | ⟨-, -, -, c', hr, rfl⟩ | ⟨-, -, -, rfl⟩
  · exact settled_of_updateRecord c id _
  · exact ⟨rfl, rfl, rfl, rfl, fun _ _ => rfl⟩
  · -- The heap index let go of the record before its handle is cleared.
    exact ((settled_withHeap c _ id).comp (settled_of_release hr)).comp (settled_of_updateRecord c' id _)
  · exact settled_of_updateRecord c id _

theorem settled_of_thin {id : RecordId} {draw : UInt32} (ht : c.thin id draw = .ok c₁) :
    Settled [id] c c₁ := by
  rcases thin_eq_ok ht with ⟨-, rfl⟩ | ⟨-, -, hr⟩ | ⟨-, -, rfl⟩
  · exact ⟨rfl, rfl, rfl, rfl, fun _ _ => rfl⟩
  · exact (settled_withLedger c _ id).comp (settled_of_release hr)
  · exact ⟨rfl, rfl, rfl, rfl, fun _ _ => rfl⟩

theorem settled_of_settle {probe : UInt64 → Option UInt64} {id : RecordId} {draw : UInt32}
    (hs : c.settle probe id draw = .ok c₁) : Settled [id] c c₁ := by
  rw [settle_eq] at hs
  cases hm : c.measure probe id with
  | error e => rw [hm] at hs; cases hs
  | ok c' =>
    rw [hm] at hs
    exact (settled_of_measure hm).comp (settled_of_thin hs)

theorem settleAll_settled {probe : UInt64 → Option UInt64} {draws : Nat → UInt32} {i : Nat}
    {ids : List RecordId} (hs : settleAll probe draws c i ids = .ok c₁) : Settled ids c c₁ := by
  induction ids generalizing c i with
  | nil => cases hs; exact ⟨rfl, rfl, rfl, rfl, fun _ _ => rfl⟩
  | cons id ids ih =>
    simp only [settleAll, bind, Except.bind] at hs
    cases h₁ : c.settle probe id (draws i) with
    | error e => rw [h₁] at hs; cases hs
    | ok c' =>
      rw [h₁] at hs
      exact (settled_of_settle h₁).trans (ih hs)

/-! ### Returns, allocations, starts and exports -/

/-- A return that finds records pending settles them all and leaves none pending. -/
theorem onReturn_frame {probe : UInt64 → Option UInt64} {draws : Nat → UInt32} (hp : c.pending ≠ 0)
    (hr : c.onReturn probe draws = .ok c₁) :
    ∃ c₂, settleAll probe draws c 0 (c.ledger.records.take c.pending) = .ok c₂ ∧
      Settled (c.ledger.records.take c.pending) c c₂ ∧ c₁ = { c₂ with pending := 0 } := by
  rcases onReturn_eq_ok hr with ⟨hp0, -⟩ | ⟨-, hle, c₂, hs, rfl⟩
  · exact absurd hp0 hp
  · have e := settleAll_settled hs
    have hlen : (c.ledger.records.take c.pending).length = c.pending := List.length_take_of_le hle
    refine ⟨c₂, hs, e, ?_⟩
    rw [e.pending, hlen, Nat.sub_self]

/-- With no more pending than the ledger holds, a return settles the pending records and
leaves none pending. -/
theorem onReturn_eq_settleAll {probe : UInt64 → Option UInt64} {draws : Nat → UInt32}
    (hle : c.pending ≤ c.ledger.records.length) :
    c.onReturn probe draws =
      if c.pending = 0 then .ok c
      else (settleAll probe draws c 0 (c.ledger.records.take c.pending)).map
        fun c₁ => { c₁ with pending := 0 } := by
  unfold onReturn
  by_cases hp : c.pending = 0
  · rw [if_pos hp, if_pos hp]
    rfl
  · have hs : ¬ c.ledger.size < c.pending := Nat.not_lt.2 hle
    simp only [hp, hs, ite_false, bind, Except.bind, pure, Except.pure]
    cases hr : settleAll probe draws c 0 (c.ledger.records.take c.pending) with
    | error e => rfl
    | ok c₁ =>
      have hlen : (c.ledger.records.take c.pending).length = c.pending := List.length_take_of_le hle
      simp only [Except.map, hlen, (settleAll_settled hr).pending, Nat.sub_self]

/-- The second half of an allocation pushes the new record onto the ledger and counts it as
pending, or counts one drop when there is no room left. -/
theorem finishAlloc_frame {h size : UInt64} {frames : List Frame}
    (hf : c.finishAlloc h size frames = .ok c₁) :
    (c.checkRoom.2 = false ∧ SameCounts c.checkRoom.1 c₁) ∨
      (c.checkRoom = (c, true) ∧ c₁.ledger.records = c.store.nextId :: c.ledger.records ∧
        c₁.pending = c.pending + 1 ∧ c₁.store.nextId = c.store.nextId + 1 ∧ c₁.dropped = c.dropped) := by
  rcases finishAlloc_eq_ok hf with ⟨hroom, rfl⟩ | ⟨hc, hm⟩
  · exact .inl ⟨hroom, SameCounts.refl _⟩
  · -- The enrolled collector, before the record it displaces is let go.
    have he : SameCounts (c.enroll h size frames) c₁ := by
      cases hg : c.heap.get? h with
      | none => rw [hg] at hm; rw [hm]; exact SameCounts.refl _
      | some old =>
        rw [hg] at hm
        exact (SameCounts.updateRecord _ old _).trans (SameCounts.of_release hm)
    exact .inr ⟨hc, he.records, he.pending, by rw [he.nextId]; rfl, he.dropped⟩

/-- Clearing empties the ledger, leaves nothing pending and zeroes the drop counts. -/
theorem clear_frame (h : c.clear = .ok c₁) :
    c₁.ledger.records = [] ∧ c₁.pending = 0 ∧ c₁.store.nextId = c.store.nextId ∧ c₁.dropped = {} := by
  obtain ⟨c₂, c₃, h₂, h₃, rfl⟩ := clear_eq_ok h
  have e := (SameCounts.of_releaseAll h₂).trans (SameCounts.of_releaseAll h₃)
  exact ⟨e.records, rfl, e.nextId, rfl⟩

/-- An export empties the ledger, leaves nothing pending and zeroes the drop counts. -/
theorem flush_frame {probe : UInt64 → Option UInt64} {time : Int64}
    {r : Except SerializationError FlushReport} (hf : c.flush probe time = .ok (c₁, r)) :
    c₁.ledger.records = [] ∧ c₁.pending = 0 ∧ c₁.store.nextId = c.store.nextId ∧ c₁.dropped = {} := by
  obtain ⟨c₂, hs, hr, -⟩ := flush_eq_ok hf
  have e := (SameCounts.of_sweep hs).trans (SameCounts.of_releaseAll hr)
  exact ⟨e.records, e.pending, e.nextId, e.dropped⟩

end Collector

end HeapSampler
