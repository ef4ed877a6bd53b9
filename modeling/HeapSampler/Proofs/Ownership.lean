import HeapSampler.Proofs.Steps
import HeapSampler.Proofs.Run

/-!
# Who holds the records

A sampled record is held by the ledger, by the heap index under its object's handle, or by
both, and the store counts its owners; the last owner to let go hands its backtrace back to the
location table.  This file proves that every reachable collector keeps that bookkeeping exact.

In the middle of an operation a hold can be taken out of a container before it is let go, and
a record can lose its heap entry before its handle is cleared.  `Collector.OwnedWith c extra
loose` is the bookkeeping with those two allowances: the store counts the holds of the two
containers plus the list `extra`, and a record with a handle is the entry under it unless it
is on the list `loose`.  Each container operation moves a hold between the containers and the
caller, and each operation of the collector is assembled from those moves; between calls both
lists are empty.

## Main definitions

* `Collector.holdings` — the holds of the two containers.
* `Collector.OwnedWith` — the bookkeeping, with holds outstanding and handles stale.
* `Collector.RecordsOwned` — what a collector promises about its records between calls.

## Main results

* `Collector.owned_invariant` — every call and event keeps the bookkeeping exact.
* `Collector.records_owned_of_reachable` — every reachable collector keeps its promises.
-/

namespace HeapSampler

namespace Collector

/-- The holds of the two containers: the ledger's records, then the heap index's. -/
def holdings (c : Collector) : List RecordId := c.ledger.records ++ c.heap.records

/-- The records of `c` are kept right, except that the holds `extra` have been taken out of the
containers and not let go yet, and the records `loose` may carry a handle they lost. -/
structure OwnedWith (c : Collector) (extra loose : List RecordId) : Prop where
  /-- No record is twice in the ledger. -/
  ledger_nodup : c.ledger.records.Nodup
  /-- No handle holds two entries. -/
  handles_nodup : c.heap.handles.Nodup
  /-- No record is under two handles. -/
  records_nodup : c.heap.records.Nodup
  /-- The record of a heap entry is stored, with the entry's handle. -/
  entry_handle : ∀ h id, (h, id) ∈ c.heap.entries → ∃ r, c.store.get? id = some r ∧ r.handle = h
  /-- A stored record with a handle is the entry under it, unless its handle is stale. -/
  handle_entry : ∀ id r, c.store.get? id = some r → r.handle ≠ 0 →
    (r.handle, id) ∈ c.heap.entries ∨ id ∈ loose
  /-- The store counts the holds of both containers and the outstanding ones. -/
  counts : c.store.Counts (c.holdings ++ extra)

namespace OwnedWith

variable {c c' : Collector} {extra loose : List RecordId}

/-! ### Moving holds between the containers and the caller -/

/-- Only the ledger's records, the heap entries and the store matter. -/
theorem congr (ho : c.OwnedWith extra loose) (hl : c'.ledger.records = c.ledger.records)
    (hh : c'.heap.entries = c.heap.entries) (hs : c'.store = c.store) : c'.OwnedWith extra loose := by
  refine ⟨hl ▸ ho.ledger_nodup, ?_, ?_, ?_, ?_, ?_⟩
  · simpa [HeapIndex.handles, hh] using ho.handles_nodup
  · simpa [HeapIndex.records, hh] using ho.records_nodup
  · rw [hh, hs]; exact ho.entry_handle
  · rw [hh, hs]; exact ho.handle_entry
  · rw [hs, holdings, hl, HeapIndex.records, hh]; exact ho.counts

theorem cons_loose (ho : c.OwnedWith extra loose) (x : RecordId) : c.OwnedWith extra (x :: loose) :=
  { ho with
    handle_entry := fun id r hr hne => (ho.handle_entry id r hr hne).imp_right (List.mem_cons_of_mem x) }

theorem mem_holdings_of_entry {h : UInt64} {id : RecordId} (hm : (h, id) ∈ c.heap.entries) :
    id ∈ c.holdings ++ extra :=
  List.mem_append_left _ (List.mem_append_right _ (HeapIndex.mem_records.2 ⟨h, hm⟩))

/-- A holder taken out of a container lets go. -/
theorem release {id : RecordId} (ho : c.OwnedWith (id :: extra) loose) (h : c.release id = .ok c') :
    c'.OwnedWith extra loose := by
  have hcounts : (c.store.release id).1.Counts (c.holdings ++ extra) :=
    (ho.counts.perm List.perm_middle).release
  rw [release_eq_ok h]
  refine ⟨ho.ledger_nodup, ho.handles_nodup, ho.records_nodup, ?_, ?_, hcounts⟩
  · intro k x hx
    obtain ⟨r, hr, hk⟩ := ho.entry_handle k x hx
    obtain ⟨r', hr'⟩ := hcounts.exists_get? (mem_holdings_of_entry hx)
    have := RecordStore.get?_of_get?_release hr'
    rw [hr] at this
    cases this
    exact ⟨r, hr', hk⟩
  · intro x r hr hne
    exact ho.handle_entry x r (RecordStore.get?_of_get?_release hr) hne

theorem releaseAll {ids : List RecordId} (ho : c.OwnedWith (ids ++ extra) loose)
    (h : c.releaseAll ids = .ok c') : c'.OwnedWith extra loose := by
  induction ids generalizing c with
  | nil => cases h; exact ho
  | cons id ids ih =>
    obtain ⟨c₁, h₁, h₂⟩ := releaseAll_cons h
    exact ih (ho.release h₁) h₂

/-- Clearing the handle of a record no heap entry holds takes it off the loose list. -/
theorem clearHandle {id : RecordId} (ho : c.OwnedWith extra (id :: loose))
    (hid : ∀ h, (h, id) ∉ c.heap.entries) :
    (c.updateRecord id SampleRecord.clearHandle).OwnedWith extra loose := by
  refine ⟨ho.ledger_nodup, ho.handles_nodup, ho.records_nodup, ?_, ?_, ho.counts.update id _⟩
  · intro h x hx
    have hne : x ≠ id := fun e => hid h (e ▸ hx)
    simpa [RecordStore.get?_update, hne] using ho.entry_handle h x hx
  · intro x r hr hh
    simp only [updateRecord_store, RecordStore.get?_update] at hr
    split at hr
    · obtain ⟨r', -, rfl⟩ := Option.map_eq_some_iff.1 hr
      exact absurd rfl hh
    · rename_i hne
      rcases ho.handle_entry x r hr hh with h' | h'
      · exact .inl h'
      · exact .inr ((List.mem_cons.1 h').resolve_left hne)

/-- A change of a record that keeps its handle keeps ownership. -/
theorem update {id : RecordId} {f : SampleRecord → SampleRecord} (ho : c.OwnedWith extra loose)
    (hf : ∀ r, (f r).handle = r.handle) : (c.updateRecord id f).OwnedWith extra loose := by
  refine ⟨ho.ledger_nodup, ho.handles_nodup, ho.records_nodup, ?_, ?_, ho.counts.update id _⟩
  · intro h x hx
    obtain ⟨r, hr, hk⟩ := ho.entry_handle h x hx
    simp only [updateRecord_store, RecordStore.get?_update]
    split
    · exact ⟨f r, by rw [hr]; rfl, by rw [hf, hk]⟩
    · exact ⟨r, hr, hk⟩
  · intro x r hr hh
    simp only [updateRecord_store, RecordStore.get?_update] at hr
    split at hr
    · obtain ⟨r', hr', rfl⟩ := Option.map_eq_some_iff.1 hr
      rw [hf] at hh ⊢
      exact ho.handle_entry x r' hr' hh
    · exact ho.handle_entry x r hr hh

/-- Taking the entry of a handle out of the heap index leaves a hold to let go of, and a record
whose handle is stale. -/
theorem remove {h : UInt64} {id : RecordId} (ho : c.OwnedWith extra loose)
    (hg : c.heap.get? h = some id) :
    ({ c with heap := (c.heap.remove h).1 } : Collector).OwnedWith (id :: extra) (id :: loose) := by
  have hp := HeapIndex.records_remove_perm ho.handles_nodup h
  rw [hg, Option.toList_some] at hp
  have hnd : ((c.heap.remove h).1.records ++ [id]).Nodup := hp.nodup_iff.2 ho.records_nodup
  refine ⟨ho.ledger_nodup, HeapIndex.handles_nodup_remove ho.handles_nodup h,
    (List.nodup_append.1 hnd).1, ?_, ?_, ?_⟩
  · intro k x hx
    exact ho.entry_handle k x (HeapIndex.mem_remove.1 hx).2
  · intro x r hr hne
    rcases ho.handle_entry x r hr hne with hm | hm
    · by_cases hk : r.handle = h
      · rw [hk] at hm
        have := (HeapIndex.get?_eq_some_iff ho.handles_nodup).2 hm
        rw [hg] at this
        cases this
        exact .inr List.mem_cons_self
      · exact .inl (HeapIndex.mem_remove.2 ⟨hk, hm⟩)
    · exact .inr (List.mem_cons_of_mem _ hm)
  · refine ho.counts.perm ?_
    rw [List.perm_iff_count] at hp ⊢
    intro a
    have := hp a
    simp only [holdings, List.count_append, List.count_cons, List.count_nil] at this ⊢
    omega

theorem not_mem_remove {h : UInt64} {id : RecordId} (ho : c.OwnedWith extra loose)
    (hg : c.heap.get? h = some id) (k : UInt64) : (k, id) ∉ (c.heap.remove h).1.entries := by
  have hp := HeapIndex.records_remove_perm ho.handles_nodup h
  rw [hg, Option.toList_some] at hp
  exact HeapIndex.not_mem_of_nodup_append (hp.nodup_iff.2 ho.records_nodup) k

/-- Evicting the entry under a handle: the entry goes, the record's handle is cleared, and the
heap index lets go of it. -/
theorem evictEntry {h : UInt64} {id : RecordId} (ho : c.OwnedWith extra loose)
    (hg : c.heap.get? h = some id)
    (hr : ({ c with heap := (c.heap.remove h).1 }.updateRecord id SampleRecord.clearHandle).release id
      = .ok c') : c'.OwnedWith extra loose :=
  ((ho.remove hg).clearHandle (ho.not_mem_remove hg)).release hr

/-- Records on the loose list that nobody holds are gone from the store, so their handles no
longer matter. -/
theorem tighten (ho : c.OwnedWith extra loose) (hx : ∀ x ∈ loose, x ∉ c.holdings ++ extra) :
    c.OwnedWith extra [] := by
  refine { ho with handle_entry := fun x r hr hne => ?_ }
  rcases ho.handle_entry x r hr hne with hm | hm
  · exact .inl hm
  · have := ho.counts.get?_eq_none_iff.2 (hx x hm)
    rw [hr] at this
    cases this

/-- Emptying the ledger hands its holds over to the caller. -/
theorem detachLedger (ho : c.OwnedWith extra loose) (hl : c'.ledger.records = [])
    (hh : c'.heap.entries = c.heap.entries) (hs : c'.store = c.store) :
    c'.OwnedWith (c.ledger.records ++ extra) loose := by
  refine ⟨by rw [hl]; exact List.nodup_nil, by rw [HeapIndex.handles, hh]; exact ho.handles_nodup,
    by rw [HeapIndex.records, hh]; exact ho.records_nodup, ?_, ?_, ?_⟩
  · rw [hh, hs]; exact ho.entry_handle
  · rw [hh, hs]; exact ho.handle_entry
  · rw [hs]
    refine ho.counts.perm ?_
    simp only [holdings, hl, HeapIndex.records, hh, List.nil_append, ← List.append_assoc]
    exact List.perm_append_comm.append_right extra

/-- Emptying both containers hands all their holds over, and every record they held may now
carry a stale handle. -/
theorem detachBoth (ho : c.OwnedWith extra loose) :
    ({ c with ledger := { c.ledger with records := [] }, heap := { c.heap with entries := [] } } : Collector).OwnedWith
      (c.ledger.records ++ (c.heap.records ++ extra)) (c.heap.records ++ loose) := by
  refine ⟨List.nodup_nil, List.nodup_nil, List.nodup_nil, (fun _ _ h => by cases h), ?_, ?_⟩
  · intro x r hr hne
    rcases ho.handle_entry x r hr hne with hm | hm
    · exact .inr (List.mem_append_left _ (HeapIndex.mem_records.2 ⟨_, hm⟩))
    · exact .inr (List.mem_append_right _ hm)
  · simpa [holdings, HeapIndex.records, List.append_assoc] using ho.counts

/-! ### Allocation -/

theorem evict {h : UInt64} (ho : c.OwnedWith extra loose) (he : c.evict h = .ok c') :
    c'.OwnedWith extra loose := by
  rcases evict_eq_ok he with ⟨-, rfl⟩ | ⟨id, hg, hr⟩
  · exact ho
  · exact ho.evictEntry hg hr

theorem beginAlloc {h : UInt64} {draw : UInt32} {d : Nat} {m : Option CaptureMethod}
    (ho : c.OwnedWith extra loose) (hb : c.beginAlloc h draw d = .ok (c', m)) :
    c'.OwnedWith extra loose := by
  obtain ⟨c₀, he, hd⟩ := beginAlloc_eq_ok hb
  have e := sampleDecision_fst c₀ draw d
  rw [hd] at e
  dsimp only at e
  exact (ho.evict he).congr (by rw [e]) (by rw [e]) (by rw [e])

/-- The new record's name is held nowhere yet. -/
theorem nextId_not_mem (ho : c.OwnedWith extra loose) :
    c.store.nextId ∉ c.ledger.records ∧ c.store.nextId ∉ c.heap.records := by
  have hn := ho.counts.not_mem_nextId
  simp only [holdings, List.mem_append, not_or] at hn
  exact ⟨hn.1.1, hn.1.2⟩

/-- Putting the new record under `h` leaves the records of the index unique, together with the
one it displaces. -/
theorem insert_nodup (ho : c.OwnedWith extra loose) (h : UInt64) :
    ((c.heap.insert h c.store.nextId).1.records ++ (c.heap.get? h).toList).Nodup :=
  (HeapIndex.records_insert_perm ho.handles_nodup h c.store.nextId).nodup_iff.2
    (List.nodup_cons.2 ⟨ho.nextId_not_mem.2, ho.records_nodup⟩)

/-- A new record is held by both containers; the record it displaces from the heap index is
left with a hold to let go of and a stale handle. -/
theorem enroll (ho : c.OwnedWith extra loose) (h size : UInt64) (frames : List Frame) :
    (c.enroll h size frames).OwnedWith ((c.heap.get? h).toList ++ extra)
      ((c.heap.get? h).toList ++ loose) := by
  have hfresh := ho.counts.fresh c.store.nextId (Nat.le_refl _)
  have hnew := ho.nextId_not_mem
  have hnd := ho.insert_nodup h
  refine ⟨?_, ?_, (List.nodup_append.1 hnd).1, ?_, ?_, ?_⟩
  · exact List.nodup_cons.2 ⟨hnew.1, ho.ledger_nodup⟩
  · exact HeapIndex.handles_nodup_insert ho.handles_nodup _ _
  · intro k x hx
    simp only [enroll_heap, HeapIndex.mem_insert] at hx
    simp only [enroll_store, RecordStore.get?_add _ hfresh]
    rcases hx with ⟨rfl, rfl⟩ | ⟨-, hx⟩
    · exact ⟨_, if_pos rfl, rfl⟩
    · have hne : x ≠ c.store.nextId := fun e => hnew.2 (e ▸ HeapIndex.mem_records.2 ⟨k, hx⟩)
      rw [if_neg hne]
      exact ho.entry_handle k x hx
  · intro x r hr hne
    simp only [enroll_store, RecordStore.get?_add _ hfresh] at hr
    simp only [enroll_heap, HeapIndex.mem_insert, List.mem_append]
    split at hr
    · cases hr
      exact .inl (.inl ⟨rfl, by assumption⟩)
    · rcases ho.handle_entry x r hr hne with hm | hm
      · by_cases hk : r.handle = h
        · rw [hk] at hm
          rw [(HeapIndex.get?_eq_some_iff ho.handles_nodup).2 hm]
          exact .inr (.inl (List.mem_singleton_self x))
        · exact .inl (.inr ⟨hk, hm⟩)
      · exact .inr (.inr hm)
  · refine (ho.counts.add _ (by decide : 0 < 2)).perm ?_
    have hp := HeapIndex.records_insert_perm ho.handles_nodup h c.store.nextId
    rw [List.perm_iff_count] at hp ⊢
    intro a
    have := hp a
    simp only [holdings, enroll_ledger, enroll_heap, List.count_append, List.count_cons,
      List.replicate_succ, List.replicate_zero, List.count_nil] at this ⊢
    omega

theorem finishAlloc {h size : UInt64} {frames : List Frame} (ho : c.OwnedWith [] [])
    (hf : c.finishAlloc h size frames = .ok c') : c'.OwnedWith [] [] := by
  rcases finishAlloc_eq_ok hf with ⟨-, rfl⟩ | ⟨-, hm⟩
  · have e := checkRoom_fst c
    exact ho.congr (by rw [e]) (by rw [e]) (by rw [e])
  · have ha := ho.enroll h size frames
    have hnd := ho.insert_nodup h
    cases hg : c.heap.get? h with
    | none =>
      rw [hg] at hm ha
      rw [hm]
      exact ha
    | some old =>
      rw [hg] at hm ha hnd
      exact (ha.clearHandle (HeapIndex.not_mem_of_nodup_append hnd)).release hm

/-! ### Returns -/

/-- A record that is not the entry under its own handle is in no heap entry at all. -/
theorem not_mem_of_get?_ne {id : RecordId} (ho : c.OwnedWith extra loose)
    (hg : c.heap.get? (c.handleOf id) ≠ some id) (k : UInt64) : (k, id) ∉ c.heap.entries := by
  intro hk
  obtain ⟨r, hr, rfl⟩ := ho.entry_handle k id hk
  rw [handleOf_eq hr] at hg
  exact hg ((HeapIndex.get?_eq_some_iff ho.handles_nodup).2 hk)

theorem measure {probe : UInt64 → Option UInt64} {id : RecordId} (ho : c.OwnedWith extra loose)
    (hm : c.measure probe id = .ok c') : c'.OwnedWith extra loose := by
  rcases measure_eq_ok hm with ⟨size, -, -, rfl⟩ | ⟨-, rfl⟩ | ⟨-, -, hg, c₁, hrel, rfl⟩ | ⟨-, -, hg, rfl⟩
  · exact ho.update fun _ => rfl
  · exact ho
  · -- The heap index let go of the record before its handle is cleared.
    refine ((ho.remove hg).release hrel).clearHandle fun k => ?_
    rw [heap_of_release hrel]
    exact ho.not_mem_remove hg k
  · exact (ho.cons_loose id).clearHandle (ho.not_mem_of_get?_ne hg)

/-- Taking a record out of the ledger leaves a hold to let go of. -/
theorem unlink {id : RecordId} (ho : c.OwnedWith extra loose) (hm : id ∈ c.ledger.records) :
    ({ c with ledger := { c.ledger with records := c.ledger.records.erase id } } : Collector).OwnedWith
      (id :: extra) loose := by
  refine ⟨ho.ledger_nodup.erase id, ho.handles_nodup, ho.records_nodup, ho.entry_handle,
    ho.handle_entry, ho.counts.perm ?_⟩
  have hp := List.perm_cons_erase hm
  rw [List.perm_iff_count] at hp ⊢
  intro a
  have := hp a
  simp only [holdings, List.count_append, List.count_cons] at this ⊢
  omega

theorem thin {id : RecordId} {draw : UInt32} (ho : c.OwnedWith extra loose)
    (ht : c.thin id draw = .ok c') : c'.OwnedWith extra loose := by
  rcases thin_eq_ok ht with ⟨-, rfl⟩ | ⟨-, hm, hr⟩ | ⟨-, -, rfl⟩
  · exact ho
  · exact (ho.unlink hm).release hr
  · exact ho

theorem settleAll {probe : UInt64 → Option UInt64} {draws : Nat → UInt32} {i : Nat}
    {ids : List RecordId} (ho : c.OwnedWith extra loose)
    (hs : Collector.settleAll probe draws c i ids = .ok c') : c'.OwnedWith extra loose := by
  induction ids generalizing c i with
  | nil => cases hs; exact ho
  | cons id ids ih =>
    simp only [Collector.settleAll, bind, Except.bind, settle_eq] at hs
    cases hm : c.measure probe id with
    | error e => rw [hm] at hs; cases hs
    | ok c₁ =>
      rw [hm] at hs
      dsimp only at hs
      cases ht : c₁.thin id (draws i) with
      | error e => rw [ht] at hs; cases hs
      | ok c₂ =>
        rw [ht] at hs
        exact ih ((ho.measure hm).thin ht) hs

theorem onReturn {probe : UInt64 → Option UInt64} {draws : Nat → UInt32}
    (ho : c.OwnedWith extra loose) (hr : c.onReturn probe draws = .ok c') : c'.OwnedWith extra loose := by
  rcases onReturn_eq_ok hr with ⟨-, rfl⟩ | ⟨-, -, c₁, hs, rfl⟩
  · exact ho
  · exact (ho.settleAll hs).congr rfl rfl rfl

/-! ### Relocation -/

/-- Records that lost their heap slot lose their handles and are let go by the heap index. -/
theorem dropAll {ids : List RecordId} (ho : c.OwnedWith (ids ++ extra) (ids ++ loose))
    (hout : ∀ x ∈ ids, ∀ k, (k, x) ∉ c.heap.entries)
    (hd : ids.foldlM (fun c id => (c.updateRecord id SampleRecord.clearHandle).release id) c = .ok c') :
    c'.OwnedWith extra loose := by
  induction ids generalizing c with
  | nil => cases hd; exact ho
  | cons id ids ih =>
    simp only [List.foldlM_cons, bind, Except.bind] at hd
    cases hr : (c.updateRecord id SampleRecord.clearHandle).release id with
    | error e => rw [hr] at hd; cases hd
    | ok c₁ =>
      rw [hr] at hd
      have ho₁ := (ho.clearHandle (hout id List.mem_cons_self)).release hr
      refine ih ho₁ (fun x hx k => ?_) hd
      rw [heap_of_release hr, updateRecord_heap]
      exact hout x (List.mem_cons_of_mem id hx) k

/-- Right after the heap index is relocated and the moved records take their new handles:
the displaced records are still held, and their handles are stale. -/
theorem relocated (ho : c.OwnedWith extra loose) (remap : UInt64 → UInt64) :
    ((c.heap.moves remap).foldl (fun (c : Collector) m => c.updateRecord m.2 (·.setHandle m.1))
        { c with heap := (c.heap.relocate remap).1 }).OwnedWith
      ((c.heap.relocate remap).2.1 ++ extra) ((c.heap.relocate remap).2.1 ++ loose) := by
  set ms := c.heap.moves remap
  set ix := (c.heap.relocate remap).1
  set D := (c.heap.relocate remap).2.1
  set c₁ := ms.foldl (fun (c : Collector) (m : UInt64 × RecordId) => c.updateRecord m.2 (·.setHandle m.1))
    { c with heap := ix }
  have hperm : (ix.records ++ D).Perm c.heap.records := HeapIndex.records_relocate_perm ho.handles_nodup remap
  have hnd : (ix.records ++ D).Nodup := hperm.nodup_iff.2 ho.records_nodup
  have hms : (ms.map (·.2)).Nodup := ho.records_nodup.sublist (HeapIndex.records_moves_sublist _ _)
  have e₁ : c₁ = { c with heap := ix, store := c₁.store } := moveHandles_eq ms _
  -- Where a record's handle ends up: at its new handle if it moved, unchanged if not.
  have hstay : ∀ x, x ∉ ms.map (·.2) → c₁.store.get? x = c.store.get? x := fun x hx =>
    moveHandles_get?_of_not_mem ms _ hx
  have hmove : ∀ k x, (k, x) ∈ ms → c₁.store.get? x = (c.store.get? x).map (·.setHandle k) :=
    fun k x hx => moveHandles_get?_of_mem ms _ hms hx
  have entry_handle : ∀ k x, (k, x) ∈ ix.entries → ∃ r, c₁.store.get? x = some r ∧ r.handle = k := by
    intro k x hx
    rcases HeapIndex.mem_relocate hx with ⟨hx, hk⟩ | hx
    · have hnm : x ∉ ms.map (·.2) := by
        intro hm
        obtain ⟨⟨k', x'⟩, hm', rfl⟩ := List.mem_map.1 hm
        obtain ⟨o, ho', hne, -⟩ := HeapIndex.mem_moves.1 hm'
        exact hne ((HeapIndex.handle_eq_of_records_nodup ho.records_nodup ho' hx) ▸ hk)
      rw [hstay x hnm]
      exact ho.entry_handle k x hx
    · obtain ⟨o, ho', -, -⟩ := HeapIndex.mem_moves.1 hx
      obtain ⟨r, hr, -⟩ := ho.entry_handle o x ho'
      exact ⟨r.setHandle k, by rw [hmove k x hx, hr]; rfl, rfl⟩
  refine ⟨by rw [e₁]; exact ho.ledger_nodup, ?_, by rw [e₁]; exact (List.nodup_append.1 hnd).1, ?_, ?_, ?_⟩
  · rw [e₁]
    exact HeapIndex.handles_nodup_relocate ho.handles_nodup remap
  · rw [e₁]
    exact entry_handle
  · intro x r hr hne
    -- A record that was in the heap index is now in it under its current handle, or displaced.
    have held : x ∈ c.heap.records → (r.handle, x) ∈ c₁.heap.entries ∨ x ∈ D ++ loose := by
      intro hx
      rcases List.mem_append.1 (hperm.mem_iff.2 hx) with hx | hx
      · obtain ⟨k, hk⟩ := HeapIndex.mem_records.1 hx
        obtain ⟨r', hr', rfl⟩ := entry_handle k x hk
        rw [hr'] at hr
        cases hr
        rw [e₁]
        exact .inl hk
      · exact .inr (List.mem_append_left _ hx)
    by_cases hm : x ∈ ms.map (·.2)
    · exact held (HeapIndex.records_moves_sublist c.heap remap |>.subset hm)
    · rw [hstay x hm] at hr
      rcases ho.handle_entry x r hr hne with hx | hx
      · exact held (HeapIndex.mem_records.2 ⟨_, hx⟩)
      · exact .inr (List.mem_append_right _ hx)
  · refine (moveHandles_counts ms { c with heap := ix } ho.counts).perm ?_
    rw [e₁]
    rw [List.perm_iff_count] at hperm ⊢
    intro a
    have := hperm a
    simp only [holdings, List.count_append] at this ⊢
    omega

theorem relocate {remap : UInt64 → UInt64} (ho : c.OwnedWith extra loose)
    (hr : c.relocate remap = .ok c') : c'.OwnedWith extra loose := by
  have hnd : ((c.heap.relocate remap).1.records ++ (c.heap.relocate remap).2.1).Nodup :=
    (HeapIndex.records_relocate_perm ho.handles_nodup remap).nodup_iff.2 ho.records_nodup
  refine (ho.relocated remap).dropAll (fun x hx k hk => ?_) hr
  rw [moveHandles_eq] at hk
  exact (List.nodup_append.1 hnd).2.2 x (HeapIndex.mem_records.2 ⟨k, hk⟩) x hx rfl

/-! ### Export and start -/

theorem sweep {probe : UInt64 → Option UInt64} {l : List (UInt64 × RecordId)}
    (ho : c.OwnedWith extra loose) (hs : l.foldlM (sweepEntry probe) c = .ok c') :
    c'.OwnedWith extra loose := by
  induction l generalizing c with
  | nil => cases hs; exact ho
  | cons e l ih =>
    simp only [List.foldlM_cons, bind, Except.bind] at hs
    cases he : sweepEntry probe c e with
    | error err => rw [he] at hs; cases hs
    | ok c₁ =>
      rw [he] at hs
      refine ih ?_ hs
      rcases sweepEntry_eq_ok he with ⟨size, -, rfl⟩ | ⟨-, hg, hr⟩ | ⟨-, -, rfl⟩
      · exact ho.update fun _ => rfl
      · exact ho.evictEntry hg hr
      · exact ho

theorem flush {probe : UInt64 → Option UInt64} {time : Int64} {r : Except SerializationError FlushReport}
    (ho : c.OwnedWith extra loose) (hf : c.flush probe time = .ok (c', r)) : c'.OwnedWith extra loose := by
  obtain ⟨c₁, hs, hr, -⟩ := flush_eq_ok hf
  have ho₀ : ({ c with pending := 0, ledger := { c.ledger with records := [] }, dropped := {} } :
      Collector).OwnedWith (c.ledger.records ++ extra) loose := ho.detachLedger rfl rfl rfl
  exact (ho₀.sweep hs).releaseAll hr

theorem clear (ho : c.OwnedWith [] []) (h : c.clear = .ok c') : c'.OwnedWith [] [] := by
  obtain ⟨c₁, c₂, h₁, h₂, rfl⟩ := clear_eq_ok h
  have hl₁ : c₁.ledger.records = [] := by rw [releaseAll_eq_ok h₁]
  have hh₁ : c₁.heap.entries = [] := by rw [releaseAll_eq_ok h₁]
  have ho₂ := (ho.detachBoth.releaseAll h₁).releaseAll h₂
  have e₂ := releaseAll_eq_ok h₂
  refine (ho₂.tighten fun x _ => ?_).congr rfl rfl rfl
  rw [holdings, e₂]
  simp [hl₁, hh₁, HeapIndex.records]

end OwnedWith

/-! ### Every reachable collector -/

theorem owned_initial (sampleRate retainRate : Rate) (method : CaptureMethod) (maxAllocs maxHeap : Nat) :
    (Collector.initial sampleRate retainRate method maxAllocs maxHeap).OwnedWith [] [] where
  ledger_nodup := List.nodup_nil
  handles_nodup := List.nodup_nil
  records_nodup := List.nodup_nil
  entry_handle := fun _ _ h => by cases h
  handle_entry := fun _ _ h => by cases h
  counts := ⟨fun _ _ => rfl, (fun _ _ h => by cases h), fun _ => rfl⟩

/-- Between calls, every hold on a record is one of the two containers'. -/
theorem owned_invariant : Invariant fun c => c.OwnedWith [] [] where
  onFree ho h := ho.evict h
  onReturn ho h := ho.onReturn h
  beginAlloc ho h := ho.beginAlloc h
  finishAlloc ho h := ho.finishAlloc h
  initial := owned_initial
  start {c c'} _ _ ho h := by
    rcases start_eq_ok h with ⟨-, rfl⟩ | ⟨-, c₁, hc, rfl | rfl⟩
    · exact ho
    · exact (ho.clear hc).congr rfl rfl rfl
    · exact ho.clear hc
  stop {c} unhooks ho := by
    rcases stop_fst c unhooks with e | e <;> rw [e]
    · exact ho
    · exact ho.congr rfl rfl rfl
  configure ho h := by
    rw [configure_eq_ok h]
    exact ho.congr rfl rfl rfl
  setSampleRate ho h := by
    rw [setSampleRate_eq_ok h]
    exact ho.congr rfl rfl rfl
  setRetainRate ho h := by
    rw [setRetainRate_eq_ok h]
    exact ho.congr rfl rfl rfl
  setMaxAllocationSamples ho := ho.congr rfl rfl rfl
  setMaxHeapSamples ho := ho.congr rfl rfl rfl
  setMethod ho := ho.congr rfl rfl rfl
  relocate ho h := ho.relocate h
  flush ho h := ho.flush h

/-- What a collector promises about its records between calls. -/
structure RecordsOwned (c : Collector) : Prop where
  /-- No record is twice in the ledger. -/
  ledger_nodup : c.ledger.records.Nodup
  /-- No record is under two handles of the heap index. -/
  heap_records_nodup : c.heap.records.Nodup
  /-- No handle holds two entries. -/
  heap_handles_nodup : c.heap.handles.Nodup
  /-- The record of a heap entry is stored, with the entry's handle. -/
  entry_handle : ∀ k id, (k, id) ∈ c.heap.entries → ∃ r, c.store.get? id = some r ∧ r.handle = k
  /-- A stored record with a handle is the heap entry under that handle. -/
  handle_entry : ∀ id r, c.store.get? id = some r → r.handle ≠ 0 → c.heap.get? r.handle = some id
  /-- A record is owned once by each container that holds it. -/
  owners_eq : ∀ id, c.store.owners id =
    (if id ∈ c.ledger.records then 1 else 0) + (if id ∈ c.heap.records then 1 else 0)
  /-- A record is stored exactly while a container holds it. -/
  stored_iff : ∀ id, (c.store.get? id).isSome ↔ id ∈ c.ledger.records ∨ id ∈ c.heap.records
  /-- Letting go of a record hands back its backtrace exactly when that was its last owner. -/
  release_returns_iff : ∀ id, (c.store.release id).2.isSome ↔ c.store.owners id = 1
  /-- Names from the next one up were never given to a record. -/
  fresh : ∀ id, c.store.nextId ≤ id → c.store.get? id = none

theorem OwnedWith.recordsOwned {c : Collector} (ho : c.OwnedWith [] []) : c.RecordsOwned where
  ledger_nodup := ho.ledger_nodup
  heap_records_nodup := ho.records_nodup
  heap_handles_nodup := ho.handles_nodup
  entry_handle := ho.entry_handle
  handle_entry id r hr hne := by
    rcases ho.handle_entry id r hr hne with hm | hm
    · exact (HeapIndex.get?_eq_some_iff ho.handles_nodup).2 hm
    · cases hm
  owners_eq id := by
    rw [ho.counts.owners_count, List.append_nil, holdings, List.count_append,
      ho.ledger_nodup.count, ho.records_nodup.count]
  stored_iff id := by
    rw [← not_iff_not, Option.not_isSome_iff_eq_none, ho.counts.get?_eq_none_iff]
    simp [holdings]
  release_returns_iff := ho.counts.release_isSome_iff
  fresh id hid := by rw [RecordStore.get?_eq, ho.counts.fresh id hid]; rfl

/-- Every reachable collector keeps its records as it promises: unique in each container, each
heap entry's record carrying its handle, owned once per container that holds it, and gone from
the store once neither does. -/
theorem records_owned_of_reachable {c : Collector} (hc : Reachable c) : c.RecordsOwned :=
  (owned_invariant.reachable hc).recordsOwned

/-- A started collector that sampled one allocation, which its heap index holds under its
handle. -/
theorem records_owned_after_one_sample :
    Reachable { Collector.initial Rate.always Rate.always .fast 4 4 with
      running := true, pending := 1,
      store := { entries := [(0, ⟨SampleRecord.new [] 7 16, 2⟩)], nextId := 1 },
      ledger := { capacity := 4, records := [0] }, heap := { capacity := 4, entries := [(7, 0)] } } ∧
    RecordsOwned { Collector.initial Rate.always Rate.always .fast 4 4 with
      running := true, pending := 1,
      store := { entries := [(0, ⟨SampleRecord.new [] 7 16, 2⟩)], nextId := 1 },
      ledger := { capacity := 4, records := [0] }, heap := { capacity := 4, entries := [(7, 0)] } } :=
  have hr : Reachable { Collector.initial Rate.always Rate.always .fast 4 4 with
      running := true, pending := 1,
      store := { entries := [(0, ⟨SampleRecord.new [] 7 16, 2⟩)], nextId := 1 },
      ledger := { capacity := 4, records := [0] }, heap := { capacity := 4, entries := [(7, 0)] } } :=
    ⟨.events (@History.start _ _ (.ok ()) (.new Rate.always Rate.always .fast 4 4) (.ok ()) rfl)
      (.allocCaptured 7 16 0 .fast [] rfl (.nil _ _) rfl (.nil _ _))⟩
  ⟨hr, records_owned_of_reachable hr⟩

end Collector

end HeapSampler
