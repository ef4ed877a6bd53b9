import HeapSampler.Collector.Basic
import Mathlib.Data.List.Nodup

/-!
# The collector's containers, as association lists

The record store, the heap index and the ledger are lists searched by first match.  This file
gives each operation on them its lookup equation, so that the invariants of the collector can be
stated and kept through `find?`/`get?` and list membership alone, never by unfolding an
operation again.

The heap index is kept with unique handles; under that hypothesis an entry can be found by
membership, and each operation is described by how it moves the multiset of records held: an
insertion trades the record it displaces for the new one, a removal gives up the record it
finds, and a relocation gives up exactly the records it displaces.

The store's bookkeeping is summed up by `RecordStore.Counts`: names are fresh above the next
name, every stored record has an owner, and each record has as many owners as a given list of
holders holds it.

## Main definitions

* `HeapIndex.records`, `HeapIndex.handles` — the two columns of the index.
* `RecordStore.Counts` — the store agrees with a list of holders.

## Main results

* `HeapIndex.records_insert_perm`, `HeapIndex.records_remove_perm`,
  `HeapIndex.records_relocate_perm` — what each operation does to the records held.
* `HeapIndex.mem_relocate` — an entry after a relocation stayed where it was or was moved.
* `RecordStore.Counts.add`, `RecordStore.Counts.release` — a new record comes with its holders,
  and a release drops one holder; `RecordStore.Counts.release_isSome_iff` — the record comes
  back exactly when its last holder lets go.
-/

namespace HeapSampler

/-! ### Association lists -/

section Assoc

variable {α β : Type} [BEq α] [LawfulBEq α]

/-- With unique keys, the value a first-match lookup finds is the one stored under its key. -/
theorem lookup_eq_some_iff {l : List (α × β)} (hl : (l.map (·.1)).Nodup) {a : α} {b : β} :
    (l.find? (·.1 == a)).map (·.2) = some b ↔ (a, b) ∈ l := by
  induction l with
  | nil => simp
  | cons e l ih =>
    obtain ⟨k, v⟩ := e
    simp only [List.map_cons, List.nodup_cons, List.mem_map] at hl
    by_cases hk : k = a
    · subst hk
      have hfresh : ∀ b', (k, b') ∉ l := fun b' hb => hl.1 ⟨(k, b'), hb, rfl⟩
      simp only [List.find?_cons, beq_self_eq_true, Option.map_some, Option.some.injEq,
        List.mem_cons, Prod.mk.injEq, true_and]
      constructor
      · exact fun h => .inl h.symm
      · rintro (h | h)
        · exact h.symm
        · exact absurd h (hfresh b)
    · have hne : (a, b) ≠ (k, v) := fun h => hk (Prod.mk.inj h).1.symm
      simp [hk, ih hl.2, hne]

theorem lookup_eq_none_iff {l : List (α × β)} {a : α} :
    (l.find? (·.1 == a)).map (·.2) = none ↔ ∀ b, (a, b) ∉ l := by
  simp only [Option.map_eq_none_iff, List.find?_eq_none, beq_iff_eq, Prod.forall]
  exact ⟨fun h b hb => h a b hb rfl, fun h k b hb hk => h b (hk ▸ hb)⟩

end Assoc

/-! ### The heap index -/

namespace HeapIndex

/-- The records of an index, in the order of its entries. -/
def records (ix : HeapIndex) : List RecordId := ix.entries.map (·.2)

/-- The handles of an index, in the order of its entries. -/
def handles (ix : HeapIndex) : List UInt64 := ix.entries.map (·.1)

theorem get?_eq_some_iff {ix : HeapIndex} (hk : ix.handles.Nodup) {h : UInt64} {r : RecordId} :
    ix.get? h = some r ↔ (h, r) ∈ ix.entries :=
  lookup_eq_some_iff hk

theorem get?_eq_none_iff {ix : HeapIndex} {h : UInt64} :
    ix.get? h = none ↔ ∀ r, (h, r) ∉ ix.entries :=
  lookup_eq_none_iff

theorem mem_records {ix : HeapIndex} {r : RecordId} : r ∈ ix.records ↔ ∃ h, (h, r) ∈ ix.entries := by
  simp [records]

/-- With unique records, a record is held under one handle. -/
theorem handle_eq_of_records_nodup {ix : HeapIndex} (hr : ix.records.Nodup) {k₁ k₂ : UInt64}
    {x : RecordId} (h₁ : (k₁, x) ∈ ix.entries) (h₂ : (k₂, x) ∈ ix.entries) : k₁ = k₂ :=
  congrArg Prod.fst (List.inj_on_of_nodup_map hr h₁ h₂ rfl)

/-- With unique keys, one key holds one entry. -/
theorem filter_key_eq {l : List (UInt64 × RecordId)} (hk : (l.map (·.1)).Nodup) {h : UInt64}
    {old : RecordId} (hm : (h, old) ∈ l) : l.filter (·.1 == h) = [(h, old)] := by
  induction l with
  | nil => simp at hm
  | cons e l ih =>
    simp only [List.map_cons, List.nodup_cons, List.mem_map] at hk
    rcases List.mem_cons.1 hm with rfl | hm
    · have : l.filter (·.1 == h) = [] := by
        rw [List.filter_eq_nil_iff]
        intro e' he' hb
        exact hk.1 ⟨e', he', by simpa using hb⟩
      simp [this]
    · have hne : e.1 ≠ h := fun he => hk.1 ⟨(h, old), hm, he.symm⟩
      simp [hne, ih hk.2 hm]

/-- Replacing the record under a key trades the old record for the new one. -/
theorem replace_perm {l : List (UInt64 × RecordId)} (hk : (l.map (·.1)).Nodup) {h : UInt64}
    {old r : RecordId} (hm : (h, old) ∈ l) :
    ((l.map fun e => if e.1 == h then (h, r) else e).map (·.2) ++ [old]).Perm
      (r :: l.map (·.2)) := by
  induction l with
  | nil => simp at hm
  | cons e l ih =>
    simp only [List.map_cons, List.nodup_cons, List.mem_map] at hk
    by_cases he : e.1 = h
    · have hrest : ∀ e' ∈ l, e'.1 ≠ h := fun e' he' hk' => hk.1 ⟨e', he', hk'.trans he.symm⟩
      have hold : e = (h, old) := by
        rcases List.mem_cons.1 hm with h' | h'
        · exact h'.symm
        · exact absurd rfl (hrest _ h')
      have hid : (l.map fun e => if e.1 == h then (h, r) else e) = l := by
        conv => rhs; rw [← List.map_id l]
        exact List.map_congr_left fun e' he' => by simp [hrest e' he']
      simp only [hold, beq_self_eq_true, ite_true, List.map_cons, hid, List.cons_append]
      exact List.Perm.cons _ (List.perm_append_singleton _ _)
    · have hm' : (h, old) ∈ l := by
        rcases List.mem_cons.1 hm with h' | h'
        · exact absurd (congrArg Prod.fst h').symm he
        · exact h'
      have hb : (e.1 == h) = false := by simpa using he
      simp only [hb, List.map_cons, List.cons_append]
      exact ((ih hk.2 hm').cons e.2).trans (List.Perm.swap _ _ _)

/-! #### Insertion and removal -/

theorem insert_snd (ix : HeapIndex) (h : UInt64) (r : RecordId) : (ix.insert h r).2 = ix.get? h := by
  unfold insert
  split <;> simp_all

/-- After an insertion the handle holds the new record. -/
theorem get?_insert_self (ix : HeapIndex) (h : UInt64) (r : RecordId) :
    (ix.insert h r).1.get? h = some r := by
  unfold insert
  split
  · rename_i old hold
    simp only [get?, Option.map_eq_some_iff] at hold ⊢
    obtain ⟨e, he, -⟩ := hold
    rw [List.find?_map]
    refine ⟨(h, r), ?_, rfl⟩
    -- Replacing the entries under `h` keeps which entry is found first.
    have hfind : ix.entries.find? ((fun x : UInt64 × RecordId => x.1 == h) ∘
        fun e => if e.1 == h then (h, r) else e) = ix.entries.find? (·.1 == h) := by
      congr 1
      funext x
      by_cases hx : x.1 = h <;> simp [hx]
    rw [hfind, he]
    have : e.1 = h := by simpa using List.find?_some he
    simp [this]
  · rename_i hnone
    simp only [get?, Option.map_eq_none_iff] at hnone
    simp [get?, List.find?_append, hnone]

theorem mem_insert {ix : HeapIndex} {h k : UInt64} {r x : RecordId} :
    (k, x) ∈ (ix.insert h r).1.entries ↔ (k = h ∧ x = r) ∨ (k ≠ h ∧ (k, x) ∈ ix.entries) := by
  unfold insert
  split
  · rename_i old hold
    obtain ⟨e, he, hkey⟩ : ∃ e ∈ ix.entries, e.1 = h := by
      obtain ⟨e, hf, -⟩ := Option.map_eq_some_iff.1 hold
      exact ⟨e, List.mem_of_find?_eq_some hf, by simpa using List.find?_some hf⟩
    simp only [List.mem_map]
    constructor
    · rintro ⟨e', he', hmap⟩
      by_cases h' : e'.1 = h
      · simp [h'] at hmap; exact .inl ⟨hmap.1.symm, hmap.2.symm⟩
      · simp [h'] at hmap; subst hmap; exact .inr ⟨h', he'⟩
    · rintro (⟨rfl, rfl⟩ | ⟨hk, hm⟩)
      · exact ⟨e, he, by simp [hkey]⟩
      · exact ⟨(k, x), hm, by simp [hk]⟩
  · rename_i hnone
    rw [get?_eq_none_iff] at hnone
    simp only [List.mem_append, List.mem_singleton, Prod.mk.injEq]
    constructor
    · rintro (hm | hm)
      · exact .inr ⟨fun e => hnone x (e ▸ hm), hm⟩
      · exact .inl hm
    · rintro (hm | hm)
      · exact .inr hm
      · exact .inl hm.2

theorem handles_insert (ix : HeapIndex) (h : UInt64) (r : RecordId) :
    (ix.insert h r).1.handles = if (ix.get? h).isSome then ix.handles else ix.handles ++ [h] := by
  unfold insert handles
  split
  · rename_i old hold
    simp only [hold, Option.isSome_some, ite_true, List.map_map]
    exact List.map_congr_left fun e _ => by by_cases he : e.1 = h <;> simp [he]
  · rename_i hnone
    simp [hnone]

theorem handles_nodup_insert {ix : HeapIndex} (hk : ix.handles.Nodup) (h : UInt64) (r : RecordId) :
    (ix.insert h r).1.handles.Nodup := by
  rw [handles_insert]
  split
  · exact hk
  · rename_i hnone
    simp only [Option.not_isSome_iff_eq_none, get?_eq_none_iff] at hnone
    refine List.nodup_append.2 ⟨hk, List.pairwise_singleton _ h, ?_⟩
    intro a ha b hb hab
    rw [List.mem_singleton] at hb
    obtain ⟨e, he, rfl⟩ := List.mem_map.1 ha
    apply hnone e.2
    rw [← hb, ← hab]
    exact he

/-- An insertion holds the new record and gives up the one it displaces. -/
theorem records_insert_perm {ix : HeapIndex} (hk : ix.handles.Nodup) (h : UInt64) (r : RecordId) :
    ((ix.insert h r).1.records ++ (ix.get? h).toList).Perm (r :: ix.records) := by
  unfold insert records
  split
  · rename_i old hold
    simp only [hold, Option.toList_some]
    exact replace_perm hk ((get?_eq_some_iff hk).1 hold)
  · rename_i hnone
    simp only [hnone, Option.toList_none, List.append_nil, List.map_append, List.map_cons,
      List.map_nil]
    exact List.perm_append_singleton _ _

theorem remove_snd (ix : HeapIndex) (h : UInt64) : (ix.remove h).2 = ix.get? h := by
  unfold remove
  split <;> simp_all

theorem mem_remove {ix : HeapIndex} {h k : UInt64} {x : RecordId} :
    (k, x) ∈ (ix.remove h).1.entries ↔ k ≠ h ∧ (k, x) ∈ ix.entries := by
  unfold remove
  split
  · simp [And.comm]
  · rename_i hnone
    rw [get?_eq_none_iff] at hnone
    exact ⟨fun hm => ⟨fun e => hnone x (e ▸ hm), hm⟩, fun hm => hm.2⟩

theorem handles_nodup_remove {ix : HeapIndex} (hk : ix.handles.Nodup) (h : UInt64) :
    (ix.remove h).1.handles.Nodup := by
  unfold remove
  split
  · exact hk.sublist ((List.filter_sublist).map _)
  · exact hk

/-- A removal gives up the record it finds. -/
theorem records_remove_perm {ix : HeapIndex} (hk : ix.handles.Nodup) (h : UInt64) :
    ((ix.remove h).1.records ++ (ix.get? h).toList).Perm ix.records := by
  unfold remove records
  split
  · rename_i old hold
    simp only [hold, Option.toList_some]
    have hf := filter_key_eq hk ((get?_eq_some_iff hk).1 hold)
    have hp := List.filter_append_perm (fun e : UInt64 × RecordId => e.1 != h) ix.entries
    have hn : ix.entries.filter (fun e => !(e.1 != h)) = ix.entries.filter (·.1 == h) :=
      List.filter_congr fun e _ => by simp [bne]
    rw [hn, hf] at hp
    simpa using hp.map (·.2)
  · rename_i hnone
    simp [hnone]

theorem removeIfSame_of_get? {ix : HeapIndex} {h : UInt64} {r : RecordId} (hg : ix.get? h = some r) :
    ix.removeIfSame h r = ix.remove h := by
  simp [removeIfSame, hg]

theorem removeIfSame_of_ne {ix : HeapIndex} {h : UInt64} {r : RecordId} (hg : ix.get? h ≠ some r) :
    ix.removeIfSame h r = (ix, none) := by
  simp [removeIfSame, hg]

/-- A record listed after the records of an index, all unique, is under no handle of it. -/
theorem not_mem_of_nodup_append {ix : HeapIndex} {x : RecordId} (hnd : (ix.records ++ [x]).Nodup)
    (k : UInt64) : (k, x) ∉ ix.entries := fun hk =>
  (List.nodup_append.1 hnd).2.2 x (mem_records.2 ⟨k, hk⟩) x (List.mem_singleton_self x) rfl

/-! #### Relocation -/

theorem handles_nodup_settle {ix : HeapIndex} (hk : ix.handles.Nodup) (ms : List (UInt64 × RecordId)) :
    (ix.settle ms).1.handles.Nodup := by
  induction ms generalizing ix with
  | nil => exact hk
  | cons m ms ih => exact ih (handles_nodup_insert hk m.1 m.2)

/-- Settling moved entries holds their records and gives up the ones they displace. -/
theorem records_settle_perm {ix : HeapIndex} (hk : ix.handles.Nodup) (ms : List (UInt64 × RecordId)) :
    ((ix.settle ms).1.records ++ (ix.settle ms).2).Perm (ix.records ++ ms.map (·.2)) := by
  induction ms generalizing ix with
  | nil => simp [settle]
  | cons m ms ih =>
    obtain ⟨h, r⟩ := m
    have hins := records_insert_perm hk h r
    have hrest := ih (handles_nodup_insert hk h r)
    simp only [settle, insert_snd]
    rw [List.perm_iff_count] at hins hrest ⊢
    intro a
    have h1 := hins a
    have h2 := hrest a
    simp only [List.count_append, List.count_cons, List.map_cons] at h1 h2 ⊢
    omega

theorem mem_settle {ix : HeapIndex} {ms : List (UInt64 × RecordId)} {k : UInt64} {x : RecordId}
    (hm : (k, x) ∈ (ix.settle ms).1.entries) : (k, x) ∈ ix.entries ∨ (k, x) ∈ ms := by
  induction ms generalizing ix with
  | nil => exact .inl hm
  | cons m ms ih =>
    rcases ih hm with h | h
    · rcases mem_insert.1 h with ⟨rfl, rfl⟩ | ⟨-, h⟩
      · exact .inr List.mem_cons_self
      · exact .inl h
    · exact .inr (List.mem_cons_of_mem _ h)

theorem mem_moves {ix : HeapIndex} {remap : UInt64 → UInt64} {k : UInt64} {x : RecordId} :
    (k, x) ∈ ix.moves remap ↔ ∃ o, (o, x) ∈ ix.entries ∧ remap o ≠ o ∧ remap o = k := by
  simp only [moves, List.mem_map, List.mem_filter, bne_iff_ne, ne_eq, Prod.mk.injEq, Prod.exists]
  constructor
  · rintro ⟨o, y, ⟨hm, hne⟩, rfl, rfl⟩
    exact ⟨o, hm, hne, rfl⟩
  · rintro ⟨o, hm, hne, rfl⟩
    exact ⟨o, x, ⟨hm, hne⟩, rfl, rfl⟩

theorem records_moves_sublist (ix : HeapIndex) (remap : UInt64 → UInt64) :
    ((ix.moves remap).map (·.2)).Sublist ix.records := by
  simp only [moves, List.map_map, records]
  exact (List.filter_sublist).map _

theorem handles_nodup_relocate {ix : HeapIndex} (hk : ix.handles.Nodup) (remap : UInt64 → UInt64) :
    (ix.relocate remap).1.handles.Nodup :=
  @handles_nodup_settle { ix with entries := ix.entries.filter fun e => remap e.1 == e.1 }
    (hk.sublist ((List.filter_sublist).map _)) _

/-- A relocation gives up exactly the records it displaces. -/
theorem records_relocate_perm {ix : HeapIndex} (hk : ix.handles.Nodup) (remap : UInt64 → UInt64) :
    ((ix.relocate remap).1.records ++ (ix.relocate remap).2.1).Perm ix.records := by
  have hstay := @records_settle_perm
    { ix with entries := ix.entries.filter fun e => remap e.1 == e.1 }
    (hk.sublist ((List.filter_sublist).map _)) (ix.moves remap)
  have hsplit :=
    (List.filter_append_perm (fun e : UInt64 × RecordId => remap e.1 == e.1) ix.entries).map (·.2)
  have hn : ix.entries.filter (fun e => !(remap e.1 == e.1)) =
      ix.entries.filter (fun e => remap e.1 != e.1) :=
    List.filter_congr fun e _ => by simp [bne]
  rw [hn] at hsplit
  refine hstay.trans ?_
  simpa [records, moves, List.map_map, Function.comp_def] using hsplit

/-- After a relocation an entry either stayed under a handle the remapping keeps, or is one of
the moved entries. -/
theorem mem_relocate {ix : HeapIndex} {remap : UInt64 → UInt64} {k : UInt64} {x : RecordId}
    (hm : (k, x) ∈ (ix.relocate remap).1.entries) :
    ((k, x) ∈ ix.entries ∧ remap k = k) ∨ (k, x) ∈ ix.moves remap := by
  rcases mem_settle hm with h | h
  · simp only [List.mem_filter, beq_iff_eq] at h
    exact .inl h
  · exact .inr h

end HeapIndex

/-! ### The ledger -/

namespace Ledger

theorem push_eq_ok {l l' : Ledger} {r : RecordId} (h : l.push r = .ok l') :
    l.isFull = false ∧ l' = { l with records := r :: l.records } := by
  unfold push at h
  split at h
  · cases h
  · rename_i hf
    cases h
    exact ⟨by simpa using hf, rfl⟩

theorem unlink_fst (l : Ledger) (r : RecordId) : (l.unlink r).1 = { l with records := l.records.erase r } := by
  unfold unlink
  split
  · rfl
  · rename_i hr
    simp [List.erase_of_not_mem hr]

theorem unlink_snd (l : Ledger) (r : RecordId) :
    (l.unlink r).2 = if r ∈ l.records then some r else none := by
  unfold unlink
  split <;> rfl

end Ledger

/-! ### The record store -/

namespace RecordStore

theorem find?_filter_ne (l : List (RecordId × StoredRecord)) (id x : RecordId) :
    ((l.filter (·.1 != id)).find? (·.1 == x)).map (·.2) =
      if x = id then none else (l.find? (·.1 == x)).map (·.2) := by
  rw [List.find?_filter]
  split
  · subst x
    simp only [Option.map_eq_none_iff, List.find?_eq_none, decide_eq_true_eq, bne_iff_ne,
      beq_iff_eq]
    exact fun e _ h => h.1 h.2
  · congr 2
    funext e
    by_cases h : e.1 = x <;> simp_all

theorem find?_map_at (l : List (RecordId × StoredRecord)) (id x : RecordId)
    (g : StoredRecord → StoredRecord) :
    ((l.map fun e => if e.1 == id then (e.1, g e.2) else e).find? (·.1 == x)).map (·.2) =
      ((l.find? (·.1 == x)).map (·.2)).map fun e => if x = id then g e else e := by
  rw [List.find?_map, Option.map_map, Option.map_map]
  have hp : ((fun e : RecordId × StoredRecord => e.1 == x) ∘ fun e =>
      if e.1 == id then (e.1, g e.2) else e) = (·.1 == x) := by
    funext e; by_cases h : e.1 = id <;> simp [h]
  rw [hp]
  cases hf : l.find? (·.1 == x) with
  | none => rfl
  | some e =>
    have hx : e.1 = x := by simpa using List.find?_some hf
    by_cases h : x = id <;> simp [hx, h]

theorem find?_add (s : RecordStore) (hs : s.find? s.nextId = none) (r : SampleRecord) (n : Nat)
    (x : RecordId) : (s.add r n).1.find? x = if x = s.nextId then some ⟨r, n⟩ else s.find? x := by
  simp only [find?, Option.map_eq_none_iff] at hs
  by_cases h : x = s.nextId
  · subst h; simp [add, find?, List.find?_append, hs]
  · have : ¬s.nextId = x := fun e => h e.symm
    simp [add, find?, List.find?_append, this, h]

theorem find?_update (s : RecordStore) (id x : RecordId) (f : SampleRecord → SampleRecord) :
    (s.update id f).find? x =
      (s.find? x).map fun e => if x = id then { e with record := f e.record } else e :=
  find?_map_at s.entries id x fun e => { e with record := f e.record }

theorem find?_release (s : RecordStore) (id x : RecordId) :
    (s.release id).1.find? x =
      if x = id then (s.find? id).bind fun e =>
        if e.owners ≤ 1 then none else some { e with owners := e.owners - 1 }
      else s.find? x := by
  unfold release
  cases hf : s.find? id with
  | none =>
    by_cases h : x = id
    · subst h; simp [hf]
    · simp [h]
  | some e =>
    simp only [Option.bind_some]
    split
    · exact find?_filter_ne _ _ _
    · simp only [find?]
      rw [find?_map_at _ _ _ fun e => { e with owners := e.owners - 1 }]
      by_cases h : x = id
      · subst h
        simp only [find?] at hf
        simp [hf]
      · simp [h, Function.comp_def]

theorem release_snd (s : RecordStore) (id : RecordId) :
    (s.release id).2 = (s.find? id).bind fun e => if e.owners ≤ 1 then some e.record else none := by
  unfold release
  cases s.find? id with
  | none => rfl
  | some e => by_cases h : e.owners ≤ 1 <;> simp [h]

@[simp] theorem nextId_update (s : RecordStore) (id : RecordId) (f : SampleRecord → SampleRecord) :
    (s.update id f).nextId = s.nextId := rfl

@[simp] theorem nextId_release (s : RecordStore) (id : RecordId) : (s.release id).1.nextId = s.nextId := by
  unfold release
  split
  · rfl
  · split <;> rfl

@[simp] theorem nextId_add (s : RecordStore) (r : SampleRecord) (n : Nat) :
    (s.add r n).1.nextId = s.nextId + 1 := rfl

@[simp] theorem add_snd (s : RecordStore) (r : SampleRecord) (n : Nat) : (s.add r n).2 = s.nextId := rfl

theorem get?_eq (s : RecordStore) (id : RecordId) : s.get? id = (s.find? id).map (·.record) := rfl

theorem owners_eq (s : RecordStore) (id : RecordId) : s.owners id = ((s.find? id).map (·.owners)).getD 0 := rfl

theorem get?_update (s : RecordStore) (id x : RecordId) (f : SampleRecord → SampleRecord) :
    (s.update id f).get? x = if x = id then (s.get? x).map f else s.get? x := by
  rw [get?_eq, get?_eq, find?_update]
  by_cases h : x = id <;> simp [h, Option.map_map, Function.comp_def]

theorem get?_add (s : RecordStore) (hs : s.find? s.nextId = none) (r : SampleRecord) (n : Nat)
    (x : RecordId) : (s.add r n).1.get? x = if x = s.nextId then some r else s.get? x := by
  rw [get?_eq, get?_eq, find?_add s hs]
  split <;> rfl

theorem get?_release_of_ne {s : RecordStore} {id x : RecordId} (hx : x ≠ id) :
    (s.release id).1.get? x = s.get? x := by
  rw [get?_eq, get?_eq, find?_release, if_neg hx]

/-- A release never changes a record; it may only take it out. -/
theorem get?_of_get?_release {s : RecordStore} {id x : RecordId} {r : SampleRecord}
    (h : (s.release id).1.get? x = some r) : s.get? x = some r := by
  rw [get?_eq, find?_release] at h
  rw [get?_eq]
  split at h
  · rename_i hx
    subst hx
    cases hf : s.find? x with
    | none => rw [hf] at h; cases h
    | some e =>
      rw [hf] at h
      simp only [Option.bind_some] at h
      split at h
      · cases h
      · simpa using h
  · exact h

/-- After a release a record is as it was, or gone. -/
theorem get?_release_eq (s : RecordStore) (id x : RecordId) :
    (s.release id).1.get? x = none ∨ (s.release id).1.get? x = s.get? x := by
  cases h : (s.release id).1.get? x with
  | none => exact .inl rfl
  | some r => exact .inr (get?_of_get?_release h).symm

/-! #### Counting holders -/

/-- The store agrees with a list of holders: no name at or above the next one is in use, every
stored record has an owner, and each record has as many owners as the list holds it. -/
structure Counts (s : RecordStore) (holders : List RecordId) : Prop where
  /-- Names from the next one up are free. -/
  fresh : ∀ id, s.nextId ≤ id → s.find? id = none
  /-- A stored record has an owner. -/
  positive : ∀ id e, s.find? id = some e → 0 < e.owners
  /-- A record has one owner per hold. -/
  owners_count : ∀ id, s.owners id = holders.count id

namespace Counts

variable {s : RecordStore} {hs : List RecordId} {id : RecordId}

theorem find?_eq_none_iff (hc : s.Counts hs) {id : RecordId} : s.find? id = none ↔ hs.count id = 0 := by
  constructor
  · intro h
    rw [← hc.owners_count, owners_eq, h]
    rfl
  · intro h
    cases hf : s.find? id with
    | none => rfl
    | some e =>
      have := hc.owners_count id
      rw [owners_eq, hf, h] at this
      exact absurd this (Nat.ne_of_gt (hc.positive id e hf))

theorem get?_eq_none_iff (hc : s.Counts hs) {id : RecordId} : s.get? id = none ↔ id ∉ hs := by
  rw [get?_eq, Option.map_eq_none_iff, hc.find?_eq_none_iff, List.count_eq_zero]

theorem exists_get? (hc : s.Counts hs) {id : RecordId} (h : id ∈ hs) : ∃ r, s.get? id = some r := by
  cases hg : s.get? id with
  | none => exact absurd h (hc.get?_eq_none_iff.1 hg)
  | some r => exact ⟨r, rfl⟩

theorem not_mem_nextId (hc : s.Counts hs) : s.nextId ∉ hs :=
  hc.get?_eq_none_iff.1 (by rw [get?_eq, hc.fresh _ (Nat.le_refl _)]; rfl)

theorem perm {hs' : List RecordId} (hc : s.Counts hs) (hp : hs.Perm hs') : s.Counts hs' :=
  ⟨hc.fresh, hc.positive, fun id => (hc.owners_count id).trans (hp.count_eq id)⟩

/-- A new record comes with its holders. -/
theorem add (hc : s.Counts hs) (r : SampleRecord) {n : Nat} (hn : 0 < n) :
    (s.add r n).1.Counts (List.replicate n s.nextId ++ hs) := by
  have hfresh := hc.fresh s.nextId (Nat.le_refl _)
  refine ⟨fun x hx => ?_, fun x e he => ?_, fun x => ?_⟩
  · have hx' : s.nextId < x := hx
    rw [find?_add s hfresh, if_neg (Nat.ne_of_gt hx')]
    exact hc.fresh x (Nat.le_of_lt hx')
  · rw [find?_add s hfresh] at he
    split at he
    · cases he; exact hn
    · exact hc.positive x e he
  · rw [owners_eq, find?_add s hfresh, List.count_append, List.count_replicate]
    by_cases h : x = s.nextId
    · subst h
      have : hs.count s.nextId = 0 := List.count_eq_zero.2 hc.not_mem_nextId
      simp [this]
    · have : (s.nextId == x) = false := by simpa using Ne.symm h
      simp [h, this, ← owners_eq, hc.owners_count]

theorem update (hc : s.Counts hs) (id : RecordId) (f : SampleRecord → SampleRecord) :
    (s.update id f).Counts hs := by
  refine ⟨fun x hx => ?_, fun x e he => ?_, fun x => ?_⟩
  · rw [find?_update, hc.fresh x hx]; rfl
  · rw [find?_update] at he
    obtain ⟨e', he', rfl⟩ := Option.map_eq_some_iff.1 he
    split <;> exact hc.positive x e' he'
  · rw [owners_eq, find?_update, ← hc.owners_count, owners_eq]
    cases s.find? x with
    | none => rfl
    | some e => by_cases h : x = id <;> simp [h]

/-- A release drops one hold. -/
theorem release (hc : s.Counts (id :: hs)) : (s.release id).1.Counts hs := by
  obtain ⟨e, he⟩ : ∃ e, s.find? id = some e := by
    cases hf : s.find? id with
    | none => exact absurd (hc.find?_eq_none_iff.1 hf) (by simp)
    | some e => exact ⟨e, rfl⟩
  have hown : e.owners = hs.count id + 1 := by
    have := hc.owners_count id
    rw [owners_eq, he] at this
    simpa using this
  refine ⟨fun x hx => ?_, fun x e' he' => ?_, fun x => ?_⟩
  · rw [nextId_release] at hx
    rw [find?_release]
    split
    · rename_i h; subst h; rw [hc.fresh x hx]; rfl
    · exact hc.fresh x hx
  · rw [find?_release] at he'
    split at he'
    · rename_i h
      subst h
      rw [he] at he'
      simp only [Option.bind_some] at he'
      split at he'
      · cases he'
      · cases he'; simp only; omega
    · exact hc.positive x e' he'
  · rw [owners_eq, find?_release]
    split
    · rename_i h
      subst h
      rw [he]
      by_cases h1 : e.owners ≤ 1
      · simp [h1]; omega
      · simp [h1]; omega
    · rename_i h
      rw [← owners_eq, hc.owners_count]
      simp [Ne.symm h]

/-- A release hands a record back exactly when it had one owner left. -/
theorem release_isSome_iff (hc : s.Counts hs) (x : RecordId) :
    (s.release x).2.isSome ↔ s.owners x = 1 := by
  rw [RecordStore.release_snd, owners_eq]
  cases hf : s.find? x with
  | none => simp
  | some e =>
    have hp := hc.positive x e hf
    simp only [Option.bind_some, Option.map_some, Option.getD_some]
    split <;> simp <;> omega

end Counts

end RecordStore

end HeapSampler
