import HeapSampler.Proofs.Export
import HeapSampler.Proofs.Frame

/-!
# Relocation

When the host moves objects, the heap index moves every entry whose handle the remapping
changes, all read from one snapshot of the handles, and the collector gives each moved record its
new handle and lets go of the records that lost their slot.

The index is described by its lookups: after a relocation a handle holds the last moved entry
that lands on it, and failing that what it held before if the remapping keeps it
(`HeapIndex.get?_relocate`). The handles afterwards are read off this equation, and together with
`HeapIndex.records_relocate_perm` nothing is lost or duplicated. A remapping that sends no two
handles of the index to one moves every entry at once, chains and cycles included, and
displaces nothing.

For the collector, letting go of a displaced record frees its frames when no other holder is
left, and that succeeds as long as the tables count the stored frames; on a history whose sites
the location hash tells apart this is `History.tablesHold`.  Two colliding sites break it, and
`relocate_aborts_on_collision` is a relocation that then fails.

## Main definitions

* `Collector.Relocated` — what a relocation leaves.

## Main results

* `HeapIndex.get?_relocate` — what a handle holds after a relocation.
* `HeapIndex.mem_handles_relocate` — the handles after a relocation.
* `HeapIndex.relocate_of_injOn` — an injective remapping displaces nothing.
* `Collector.relocate_spec` — a relocation of a collector with sound tables succeeds, and does
  what `Collector.Relocated` says.
* `relocation_loses_nothing` — both, for every index and every reachable collector whose sites
  the hash tells apart.
-/

namespace HeapSampler

namespace HeapIndex

/-! ### Lookups after a relocation -/

theorem isSome_get?_iff {ix : HeapIndex} {k : UInt64} : (ix.get? k).isSome ↔ k ∈ ix.handles := by
  simp [get?, handles, List.find?_isSome]

/-- After an insertion the handle holds the new record, and every other handle what it held. -/
theorem get?_insert (ix : HeapIndex) (h k : UInt64) (r : RecordId) :
    (ix.insert h r).1.get? k = if k = h then some r else ix.get? k := by
  by_cases hk : k = h
  · rw [if_pos hk, hk, get?_insert_self]
  rw [if_neg hk]
  unfold insert
  split
  · -- Only the entries under `h` change, and the lookup for `k` passes over them.
    simp only [get?, List.find?_map]
    have hfind : ((fun x : UInt64 × RecordId => x.1 == k) ∘
        fun e => if e.1 == h then (h, r) else e) = (·.1 == k) := by
      funext x
      by_cases hx : x.1 = h <;> simp [hx]
    rw [hfind]
    cases hf : ix.entries.find? (·.1 == k) with
    | none => rfl
    | some e =>
      have he : e.1 = k := by simpa using List.find?_some hf
      have hne : e.1 ≠ h := he ▸ hk
      simp [hne]
  · simp [get?, List.find?_append, Ne.symm hk]

/-- Putting moved entries in one by one: a handle holds the last moved entry put under it, and
what it held before when there is none. -/
theorem get?_settle (ix : HeapIndex) (ms : List (UInt64 × RecordId)) (k : UInt64) :
    (ix.settle ms).1.get? k = ((ms.reverse.find? (·.1 == k)).map (·.2)).or (ix.get? k) := by
  induction ms generalizing ix with
  | nil => rfl
  | cons m ms ih =>
    obtain ⟨h, r⟩ := m
    simp only [settle]
    rw [ih, get?_insert, List.reverse_cons, List.find?_append, Option.map_or, Option.or_assoc]
    by_cases hk : k = h
    · subst hk
      simp
    · simp [hk, Ne.symm hk]

/-- The entries a remapping keeps in place answer for a handle it keeps, and for no other. -/
theorem get?_staying (ix : HeapIndex) (remap : UInt64 → UInt64) (k : UInt64) :
    ({ ix with entries := ix.entries.filter fun e => remap e.1 == e.1 } : HeapIndex).get? k =
      if remap k = k then ix.get? k else none := by
  simp only [get?, List.find?_filter]
  split
  · rename_i hk
    congr 2
    funext e
    by_cases he : e.1 = k
    · simp [he, hk]
    · simp [he]
  · rename_i hk
    rw [List.find?_eq_none.2 fun e _ => by by_cases he : e.1 = k <;> simp_all]
    rfl

/-- **Where the entries end after a relocation.**  A handle holds the last moved entry that
lands on it; failing that, what it held before if the remapping keeps it, and nothing if the
remapping moves it away. -/
theorem get?_relocate (ix : HeapIndex) (remap : UInt64 → UInt64) (k : UInt64) :
    (ix.relocate remap).1.get? k =
      (((ix.moves remap).reverse.find? (·.1 == k)).map (·.2)).or
        (if remap k = k then ix.get? k else none) := by
  simp only [relocate]
  rw [get?_settle, get?_staying]

/-- After a relocation the handles are the images of the handles before. -/
theorem mem_handles_relocate {ix : HeapIndex} {remap : UInt64 → UInt64} {k : UInt64} :
    k ∈ (ix.relocate remap).1.handles ↔ ∃ k₀ ∈ ix.handles, remap k₀ = k := by
  rw [← isSome_get?_iff, get?_relocate, Option.isSome_or, Bool.or_eq_true, Option.isSome_map]
  constructor
  · rintro (hm | hs)
    · -- A moved entry lands on `k`, coming from a handle the remapping moves.
      obtain ⟨⟨k', x⟩, hm, hk⟩ := List.find?_isSome.1 hm
      rw [List.mem_reverse] at hm
      obtain ⟨o, ho, -, ho'⟩ := mem_moves.1 hm
      rw [beq_iff_eq] at hk
      exact ⟨o, List.mem_map_of_mem (f := (·.1)) ho, ho'.trans hk⟩
    · -- The handle stayed where it was.
      split at hs
      · exact ⟨k, isSome_get?_iff.1 hs, by assumption⟩
      · cases hs
  · rintro ⟨k₀, hk₀, rfl⟩
    obtain ⟨⟨k', x⟩, hm, rfl⟩ := List.mem_map.1 hk₀
    by_cases hstay : remap k' = k'
    · right
      rw [hstay, if_pos hstay]
      exact isSome_get?_iff.2 hk₀
    · left
      refine List.find?_isSome.2 ⟨(remap k', x), List.mem_reverse.2 ?_, beq_self_eq_true _⟩
      exact mem_moves.2 ⟨k', hm, hstay, rfl⟩

/-! ### Remappings that send no two handles to one -/

/-- Moved entries under handles that are new to the index, and new to each other, are appended
in order, displacing nothing. -/
theorem settle_of_fresh {ix : HeapIndex} {ms : List (UInt64 × RecordId)}
    (hnd : (ms.map (·.1)).Nodup) (hfresh : ∀ m ∈ ms, m.1 ∉ ix.handles) :
    ix.settle ms = ({ ix with entries := ix.entries ++ ms }, []) := by
  induction ms generalizing ix with
  | nil => simp [settle]
  | cons m ms ih =>
    obtain ⟨h, r⟩ := m
    rw [List.map_cons, List.nodup_cons] at hnd
    have hnone : ix.get? h = none := get?_eq_none_iff.2 fun x hx =>
      hfresh (h, r) List.mem_cons_self (List.mem_map_of_mem (f := (·.1)) hx)
    have hins : ix.insert h r = ({ ix with entries := ix.entries ++ [(h, r)] }, none) := by
      simp [insert, hnone]
    -- The rest land on handles that neither the index nor `h` holds.
    have hfresh' : ∀ m ∈ ms, m.1 ∉ ({ ix with entries := ix.entries ++ [(h, r)] } : HeapIndex).handles := by
      intro m hm hmem
      simp only [handles, List.map_append, List.map_cons, List.map_nil, List.mem_append,
        List.mem_singleton] at hmem
      rcases hmem with hmem | hmem
      · exact hfresh m (List.mem_cons_of_mem _ hm) hmem
      · exact hnd.1 (List.mem_map.2 ⟨m, hm, hmem⟩)
    simp only [settle, hins, ih hnd.2 hfresh', Option.toList_none, List.append_assoc,
      List.singleton_append, List.append_nil]

/-- **Chains and cycles of moves.**  When the remapping sends no two handles of the index to one,
a relocation moves every entry at once: nothing is displaced, and the entries are the old ones,
each under the image of its handle. -/
theorem relocate_of_injOn {ix : HeapIndex} (hk : ix.handles.Nodup) {remap : UInt64 → UInt64}
    (hinj : Set.InjOn remap {k | k ∈ ix.handles}) :
    (ix.relocate remap).2.1 = [] ∧
      (ix.relocate remap).1.entries.Perm (ix.entries.map fun e => (remap e.1, e.2)) := by
  have hsub : ∀ e ∈ ix.entries, e.1 ∈ ix.handles := fun e he => List.mem_map_of_mem he
  -- The moved entries land on handles new to each other ...
  have hnd : ((ix.moves remap).map (·.1)).Nodup := by
    have e : (ix.moves remap).map (·.1) =
        ((ix.entries.filter fun e => remap e.1 != e.1).map (·.1)).map remap := by
      simp [moves, List.map_map, Function.comp_def]
    rw [e]
    refine List.Nodup.map_on (fun a ha b hb hab => ?_) (hk.sublist ((List.filter_sublist).map _))
    obtain ⟨ea, hea, rfl⟩ := List.mem_map.1 ha
    obtain ⟨eb, heb, rfl⟩ := List.mem_map.1 hb
    exact hinj (hsub ea (List.mem_of_mem_filter hea)) (hsub eb (List.mem_of_mem_filter heb)) hab
  -- ... and that no staying entry holds.
  have hfresh : ∀ m ∈ ix.moves remap,
      m.1 ∉ ({ ix with entries := ix.entries.filter fun e => remap e.1 == e.1 } : HeapIndex).handles := by
    rintro ⟨k, x⟩ hm hmem
    obtain ⟨o, ho, hne, rfl⟩ := mem_moves.1 hm
    obtain ⟨e, he, hek⟩ := List.mem_map.1 hmem
    rw [List.mem_filter, beq_iff_eq] at he
    have heo : e.1 = o := hinj (hsub e he.1) (hsub (o, x) ho) (he.2.trans hek)
    exact hne (heo ▸ he.2)
  have hsettle := settle_of_fresh hnd hfresh
  refine ⟨by simp only [relocate, hsettle], ?_⟩
  simp only [relocate, hsettle]
  -- The staying entries are their own images, and the two halves make up the index.
  have hstay : (ix.entries.filter fun e => remap e.1 == e.1) =
      (ix.entries.filter fun e => remap e.1 == e.1).map fun e => (remap e.1, e.2) := by
    conv => lhs; rw [← List.map_id (ix.entries.filter _)]
    exact List.map_congr_left fun e he => by
      rw [List.mem_filter, beq_iff_eq] at he
      rw [he.2]
      rfl
  have hsplit := (List.filter_append_perm (fun e : UInt64 × RecordId => remap e.1 == e.1)
    ix.entries).map fun e => (remap e.1, e.2)
  have hn : ix.entries.filter (fun e => !(remap e.1 == e.1)) =
      ix.entries.filter (fun e => remap e.1 != e.1) :=
    List.filter_congr fun e _ => by simp [bne]
  rw [hn, List.map_append, ← hstay] at hsplit
  exact hsplit

end HeapIndex

namespace Collector

variable {c c' : Collector}

/-! ### Letting go of the displaced records -/

/-- Letting go of displaced records changes the store and the tables only. -/
theorem dropAll_eq {ids : List RecordId}
    (hd : ids.foldlM (fun c id => (c.updateRecord id SampleRecord.clearHandle).release id) c = .ok c') :
    c' = { c with store := c'.store, locations := c'.locations, strings := c'.strings } := by
  induction ids generalizing c with
  | nil => cases hd; rfl
  | cons id ids ih =>
    rw [List.foldlM_cons] at hd
    obtain ⟨c₁, hr, hd⟩ := Except.ok_of_bind hd
    refine (ih hd).trans ?_
    rw [release_eq_ok hr]
    rfl

/-- A record that is not displaced is left alone. -/
theorem dropAll_get?_of_not_mem {ids : List RecordId} {x : RecordId} (hx : x ∉ ids)
    (hd : ids.foldlM (fun c id => (c.updateRecord id SampleRecord.clearHandle).release id) c = .ok c') :
    c'.store.get? x = c.store.get? x := by
  induction ids generalizing c with
  | nil => cases hd; rfl
  | cons id ids ih =>
    rw [List.foldlM_cons] at hd
    obtain ⟨c₁, hr, hd⟩ := Except.ok_of_bind hd
    have hne : x ≠ id := fun e => hx (e ▸ List.mem_cons_self)
    rw [ih (fun h => hx (List.mem_cons_of_mem id h)) hd, store_get?_of_release hr hne,
      store_get?_of_updateRecord c _ hne]

/-- A displaced record, let go of once, is gone or has lost its handle. -/
theorem dropAll_get?_of_mem {ids : List RecordId} (hnd : ids.Nodup) {x : RecordId} (hx : x ∈ ids)
    (hd : ids.foldlM (fun c id => (c.updateRecord id SampleRecord.clearHandle).release id) c = .ok c') :
    c'.store.get? x = none ∨ c'.store.get? x = (c.store.get? x).map SampleRecord.clearHandle := by
  induction ids generalizing c with
  | nil => cases hx
  | cons id ids ih =>
    rw [List.nodup_cons] at hnd
    rw [List.foldlM_cons] at hd
    obtain ⟨c₁, hr, hd₁⟩ := Except.ok_of_bind hd
    by_cases hxid : x = id
    · -- The record is let go of here, and the later ones leave it alone.
      subst hxid
      have hs : c₁.store = ((c.store.update x SampleRecord.clearHandle).release x).1 := by
        rw [release_eq_ok hr]
        rfl
      rw [dropAll_get?_of_not_mem hnd.1 hd₁, hs]
      rcases RecordStore.get?_release_eq (c.store.update x SampleRecord.clearHandle) x x with h | h
      · exact .inl h
      · rw [h, RecordStore.get?_update, if_pos rfl]
        exact .inr rfl
    · rcases ih hnd.2 (List.mem_of_ne_of_mem hxid hx) hd₁ with h | h
      · exact .inl h
      · rw [h, store_get?_of_release hr hxid, store_get?_of_updateRecord c _ hxid]
        exact .inr rfl

variable {P : Set (UInt64 × Int64)}

/-- Letting go of displaced records succeeds when the tables count the stored frames. -/
theorem TablesHold.dropAll_ok (ht : c.TablesHold P) (ids : List RecordId) :
    ∃ c', ids.foldlM (fun c id => (c.updateRecord id SampleRecord.clearHandle).release id) c = .ok c' := by
  induction ids generalizing c with
  | nil => exact ⟨c, rfl⟩
  | cons id ids ih =>
    have ht₁ : (c.updateRecord id SampleRecord.clearHandle).TablesHold P :=
      ht.releases (Releases.update c id SampleRecord.clearHandle fun _ => rfl)
    obtain ⟨c₁, h₁⟩ := ht₁.release_ok id
    obtain ⟨c₂, h₂⟩ := ih (ht₁.release h₁)
    exact ⟨c₂, by simp only [List.foldlM_cons, bind, Except.bind, h₁]; exact h₂⟩

/-- A relocation succeeds when the tables count the stored frames. -/
theorem TablesHold.relocate_ok (ht : c.TablesHold P) (remap : UInt64 → UInt64) :
    ∃ c', c.relocate remap = .ok c' := by
  have ht₁ := ht.releases ((moveHandles_releases (c.heap.moves remap)
    { c with heap := (c.heap.relocate remap).1 }).keep_trans rfl rfl rfl)
  exact ht₁.dropAll_ok (c.heap.relocate remap).2.1

/-! ### What a relocation leaves -/

/-- With records kept right, a record has one owner for each container that holds it. -/
theorem OwnedWith.owners_eq_count (ho : c.OwnedWith [] []) (x : RecordId) :
    c.store.owners x = c.ledger.records.count x + c.heap.records.count x := by
  rw [ho.counts.owners_count, List.append_nil, holdings, List.count_append]

/-- What a relocation by `remap` leaves of `c` in `c'`: the heap index relocated, the moved
records under their new handles, the displaced records without a handle and let go of by the
index, the other records as they were, and every heap entry's record under the entry's handle. -/
structure Relocated (remap : UInt64 → UInt64) (c c' : Collector) : Prop where
  /-- Only the heap index, the store and the tables change. -/
  eq : c' = { c with
    heap := (c.heap.relocate remap).1, store := c'.store, locations := c'.locations,
    strings := c'.strings }
  /-- A moved record that kept its new slot carries its new handle. -/
  moved : ∀ k x, (k, x) ∈ c.heap.moves remap → x ∉ (c.heap.relocate remap).2.1 →
    c'.store.get? x = (c.store.get? x).map (·.setHandle k)
  /-- A displaced record loses its handle, and is gone unless the ledger still holds it. -/
  displaced : ∀ x ∈ (c.heap.relocate remap).2.1, c'.store.get? x =
    if x ∈ c.ledger.records then (c.store.get? x).map SampleRecord.clearHandle else none
  /-- Every other record is as it was. -/
  unmoved : ∀ x, x ∉ (c.heap.moves remap).map (·.2) → x ∉ (c.heap.relocate remap).2.1 →
    c'.store.get? x = c.store.get? x
  /-- The heap index lets go of exactly the displaced records. -/
  owners : ∀ x, c'.store.owners x = c.store.owners x - (c.heap.relocate remap).2.1.count x
  /-- Every heap entry's record carries the entry's handle. -/
  entry_handle : ∀ k x, (k, x) ∈ c'.heap.entries → ∃ r, c'.store.get? x = some r ∧ r.handle = k

/-- A relocation of a collector whose records are kept right does what `Relocated` says. -/
theorem relocated_of_owned {remap : UInt64 → UInt64} (ho : c.OwnedWith [] [])
    (hr : c.relocate remap = .ok c') : Relocated remap c c' := by
  set ix := (c.heap.relocate remap).1
  set D := (c.heap.relocate remap).2.1
  set ms := c.heap.moves remap
  set c₁ := ms.foldl (fun (c : Collector) m => c.updateRecord m.2 (·.setHandle m.1))
    { c with heap := ix }
  have hd : D.foldlM (fun c id => (c.updateRecord id SampleRecord.clearHandle).release id) c₁ =
      .ok c' := hr
  have hperm : (ix.records ++ D).Perm c.heap.records :=
    HeapIndex.records_relocate_perm ho.handles_nodup remap
  have hnd : (ix.records ++ D).Nodup := hperm.nodup_iff.2 ho.records_nodup
  have hms : (ms.map (·.2)).Nodup := ho.records_nodup.sublist (HeapIndex.records_moves_sublist _ _)
  have ho' : c'.OwnedWith [] [] := ho.relocate hr
  have e₁ : c₁ = { c with heap := ix, store := c₁.store } := moveHandles_eq ms _
  have heq : c' = { c with
      heap := ix, store := c'.store, locations := c'.locations, strings := c'.strings } := by
    refine (dropAll_eq hd).trans ?_
    rw [e₁]
  have hledger : c'.ledger = c.ledger := by rw [heq]
  have hheap : c'.heap = ix := by rw [heq]
  -- Moving a record changes its handle only, which a displaced record then loses anyway.
  have hclear : ∀ x, (c₁.store.get? x).map SampleRecord.clearHandle =
      (c.store.get? x).map SampleRecord.clearHandle := by
    intro x
    by_cases hx : x ∈ ms.map (·.2)
    · obtain ⟨⟨k, x'⟩, hk, rfl⟩ := List.mem_map.1 hx
      rw [moveHandles_get?_of_mem ms _ hms hk, Option.map_map]
      rfl
    · rw [moveHandles_get?_of_not_mem ms _ hx]
  refine ⟨heq, fun k x hk hx => ?_, fun x hx => ?_, fun x hm hx => ?_, fun x => ?_,
    ho'.entry_handle⟩
  · rw [dropAll_get?_of_not_mem hx hd]
    exact moveHandles_get?_of_mem ms _ hms hk
  · have hxi : x ∉ ix.records := fun h => (List.nodup_append.1 hnd).2.2 x h x hx rfl
    have hgone : c'.store.get? x = none ↔ x ∉ c.ledger.records := by
      rw [ho'.counts.get?_eq_none_iff, List.append_nil, holdings, hledger, hheap, List.mem_append]
      exact ⟨fun h hl => h (.inl hl), fun h hm => hm.elim h hxi⟩
    rcases dropAll_get?_of_mem (List.nodup_append.1 hnd).2.1 hx hd with h | h
    · rw [h, if_neg (hgone.1 h)]
    · rw [h, hclear]
      split
      · rfl
      · rename_i hl
        rw [← hclear x, ← h]
        exact hgone.2 hl
  · rw [dropAll_get?_of_not_mem hx hd]
    exact moveHandles_get?_of_not_mem ms _ hm
  · -- The store counts the holds, and the index gave up the displaced ones.
    have h₁ : c'.store.owners x = c.ledger.records.count x + ix.records.count x := by
      rw [ho'.owners_eq_count x, hledger, hheap]
    have h₂ := ho.owners_eq_count x
    have h₃ : ix.records.count x + D.count x = c.heap.records.count x := by
      rw [← List.count_append]
      exact List.perm_iff_count.1 hperm x
    show c'.store.owners x = c.store.owners x - D.count x
    omega

/-- **Relocating a collector.**  When the records are kept right and the tables count the stored
frames, a relocation succeeds and does what `Relocated` says. -/
theorem relocate_spec (ho : c.OwnedWith [] []) (ht : c.TablesHold P) (remap : UInt64 → UInt64) :
    ∃ c', c.relocate remap = .ok c' ∧ Relocated remap c c' := by
  obtain ⟨c', hr⟩ := ht.relocate_ok remap
  exact ⟨c', hr, relocated_of_owned ho hr⟩

end Collector

/-! ### Relocating reachable collectors -/

/-- **Relocation loses and duplicates nothing.**  For every heap index with one entry per handle,
a relocation puts each moved entry under the image of its handle unless a later moved entry lands
there too, keeps every other entry unless a moved entry lands on it, gives back exactly the
records that lost their slot, has the images of the handles as its handles, and moves every
entry at once when the remapping sends no two handles to one.  In a collector that a history
reaches, if the location hash tells apart the sites the history interned, a relocation succeeds
and does what `Collector.Relocated` says: moved records take their new handles, displaced ones
lose theirs and are let go of by the index, and every heap entry's record carries its handle. -/
theorem relocation_loses_nothing :
    (∀ (ix : HeapIndex) (remap : UInt64 → UInt64), ix.handles.Nodup →
      (∀ k, (ix.relocate remap).1.get? k =
        (((ix.moves remap).reverse.find? (·.1 == k)).map (·.2)).or
          (if remap k = k then ix.get? k else none)) ∧
      ((ix.relocate remap).1.records ++ (ix.relocate remap).2.1).Perm ix.records ∧
      (∀ k, k ∈ (ix.relocate remap).1.handles ↔ ∃ k₀ ∈ ix.handles, remap k₀ = k) ∧
      (Set.InjOn remap {k | k ∈ ix.handles} → (ix.relocate remap).2.1 = [] ∧
        (ix.relocate remap).1.entries.Perm (ix.entries.map fun e => (remap e.1, e.2)))) ∧
    ∀ (c : Collector) (t : History c), Set.InjOn (Function.uncurry locationId) {p | p ∈ t.sites} →
      ∀ remap, ∃ c', c.relocate remap = .ok c' ∧ Collector.Relocated remap c c' := by
  constructor
  · intro ix remap hk
    exact ⟨HeapIndex.get?_relocate ix remap, HeapIndex.records_relocate_perm hk remap,
      fun _ => HeapIndex.mem_handles_relocate, HeapIndex.relocate_of_injOn hk⟩
  · intro c t hfree remap
    have ho : c.OwnedWith [] [] := Collector.owned_invariant.holds t
    have ht : c.TablesHold {p | p ∈ t.sites} := History.tablesHold hfree t fun _ hp => hp
    exact Collector.relocate_spec ho ht remap

/-- The cycle `1 → 2 → 3 → 1` moves all three entries at once and displaces nothing.  After
`sharedFrameHistory`, moving handle `8` onto `7` displaces the record of `7`, whose stack shares
its function and a location with the record moved. -/
theorem relocations_of_cycle_and_merge :
    ((HeapIndex.handles ⟨4, [(1, 7), (2, 8), (3, 9)]⟩).Nodup ∧
      (HeapIndex.relocate ⟨4, [(1, 7), (2, 8), (3, 9)]⟩ fun h => if h = 3 then 1 else h + 1).2.1 = [] ∧
      (HeapIndex.relocate ⟨4, [(1, 7), (2, 8), (3, 9)]⟩ fun h => if h = 3 then 1 else h + 1).1.entries.Perm
        [(2, 7), (3, 8), (1, 9)]) ∧
    ∃ (c : Collector) (t : History c), Set.InjOn (Function.uncurry locationId) {p | p ∈ t.sites} ∧
      ∃ c', c.relocate (fun h => if h = 8 then 7 else h) = .ok c' ∧
        Collector.Relocated (fun h => if h = 8 then 7 else h) c c' := by
  have hk : (HeapIndex.handles ⟨4, [(1, 7), (2, 8), (3, 9)]⟩).Nodup := by decide
  have hinj : Set.InjOn (fun h : UInt64 => if h = 3 then 1 else h + 1)
      {k | k ∈ HeapIndex.handles ⟨4, [(1, 7), (2, 8), (3, 9)]⟩} :=
    fun a ha b hb hab =>
      List.inj_on_of_nodup_map (f := fun h : UInt64 => if h = 3 then 1 else h + 1) (by decide) ha hb hab
  exact ⟨⟨hk, (relocation_loses_nothing.1 _ _ hk).2.2.2 hinj⟩, _, _, sharedFrameHistory_injOn,
    relocation_loses_nothing.2 _ _ sharedFrameHistory_injOn _⟩

/-! ### Colliding sites -/

/-- A history that interned both sites of `locationId_collision` does not have them told apart. -/
theorem History.not_injOn_of_collision {c : Collector} {t : History c}
    (hA : ((15368651960797290627 : UInt64), (0 : Int64)) ∈ t.sites)
    (hB : ((2981100479311591759 : UInt64), (0 : Int64)) ∈ t.sites) :
    ¬Set.InjOn (Function.uncurry locationId) {p | p ∈ t.sites} := fun h => by
  have := h hA hB locationId_collision
  simp at this

/-- A collector started with the default capacities that sampled three objects, the first two in
the functions of `locationId_collision` at line `0` and the third with no frames, exported them,
and saw the first freed.  As in `collidingHistory`, the second record points at the first
function, which the tables no longer hold. -/
noncomputable def displacingHistory : Σ c, History c :=
  let sampled := History.events
    (@History.start _ _ (.ok ()) (.new Rate.always Rate.always .fast 10000 50000) (.ok ()) rfl)
    (.allocCaptured 1 40 0 .fast
      [{ functionId := 15368651960797290627, name := "a", file := "f", startLine := 1 }]
      rfl (.nil _ _) rfl
      (.allocCaptured 2 40 0 .fast
        [{ functionId := 2981100479311591759, name := "b", file := "g", startLine := 1 }]
        rfl (.nil _ _) rfl
        (.allocCaptured 3 40 0 .fast [] rfl (.nil _ _) rfl (.nil _ _))))
  let exported := History.flush sampled (fun _ => some 40) 0 (Except.eq_ok_get (by decide +kernel))
  ⟨_, .events exported (.free 1 (Except.eq_ok_get (by decide +kernel)) (.nil _ _))⟩

/-- Without the hash telling the sites apart a relocation can abort: moving the third object
onto the second's handle displaces the second record, and letting go of it releases the first
function once more than it was interned. -/
theorem relocate_aborts_on_collision :
    ¬Set.InjOn (Function.uncurry locationId) {p | p ∈ displacingHistory.2.sites} ∧
      ∃ e, displacingHistory.1.relocate (fun h => if h = 3 then 2 else h) = .error e := by
  refine ⟨History.not_injOn_of_collision (by decide +kernel) (by decide +kernel), ?_⟩
  apply Except.exists_error_of_toBool
  decide +kernel

end HeapSampler
