import HeapSampler.Proofs.Liveness
import HeapSampler.Proofs.Builder

/-!
# Exports

An export takes the ledger out, asks the host about every heap entry, freezes the string table,
writes the profile of the records taken out and of the heap records still live, and lets go of
the records taken out.  This file proves what it does for every collector a history reaches, as
long as the location hash tells apart the sites that history interned.

Nothing in an export can fail.  Letting go of a record releases only counts that the tables hold
(`Collector.TablesHold.release_ok`), so neither the sweep of the heap index nor the final letting
go stops.  Every record held then has its frames' functions in the table, whose names and files
are the table's live entries, as are the words of the vocabulary (`Collector.Resolved`); so the
frozen list has each of them, at its text, and the profile builder writes every sample.

The sweep visits the heap entries in order: a live object's record takes the host's size, a
dead one's entry leaves the heap index, its record loses its handle and the heap index lets go
of it.  The heap index keeps the live entries, in order, and no record but the one of the entry
visited changes (`Collector.sweep_spec`).

The hash is what the tables rely on.  Two sites whose location ids collide are interned as one
location, in the function of the first; `collidingHistory` is such a history, and from it an
export can either miss a string or abort.

## Main definitions

* `Collector.exportSweep` — the first half of an export.
* `Collector.sweptRecord`, `Collector.sweptSize` — a record, and its size, once swept.
* `Collector.Swept` — what the sweep leaves.
* `collidingHistory` — two sites with one location id.

## Main results

* `Collector.sweep_spec` — what the sweep does to the heap index and to the records.
* `History.flush_strings_listed` — an export never misses a string.
* `History.flush_spec` — what an export reports, leaves and writes.
* `flush_misses_string_on_collision`, `flush_aborts_on_collision` — both fail without the
  hash telling the sites apart.
-/

namespace List

variable {α β γ : Type}

/-- A relation from the values that a partial function finds for every element of a list is a
relation from the list itself. -/
theorem forall₂_of_filterMap {f : α → Option β} {R : β → γ → Prop} {l : List α} {ys : List γ}
    (hl : ∀ a ∈ l, (f a).isSome) (h : Forall₂ R (l.filterMap f) ys) :
    Forall₂ (fun a y => ∃ b, f a = some b ∧ R b y) l ys := by
  induction l generalizing ys with
  | nil =>
    rw [filterMap_nil] at h
    cases h
    exact .nil
  | cons a l ih =>
    obtain ⟨b, hb⟩ := Option.isSome_iff_exists.1 (hl a mem_cons_self)
    rw [filterMap_cons_some hb] at h
    cases h with
    | cons hr h' => exact .cons ⟨b, hb, hr⟩ (ih (fun a' ha' => hl a' (mem_cons_of_mem _ ha')) h')

end List

namespace HeapSampler

/-! ### Letting go never fails -/

namespace Collector

variable {P : Set (UInt64 × Int64)} {c c' : Collector}

/-- Letting go of a record succeeds when the tables count the stored frames: the last hold
releases the record's frames, which the tables count. -/
theorem TablesHold.release_ok (ht : c.TablesHold P) (id : RecordId) :
    ∃ c', c.release id = .ok c' := by
  obtain ⟨-, hp⟩ := ht.keyed.release id
  unfold Collector.release
  cases hr : c.store.release id with
  | mk store gone =>
    rw [hr] at hp
    cases gone with
    | none => exact ⟨_, rfl⟩
    | some r =>
      simp only [Option.map_some, Option.getD_some] at hp
      obtain ⟨t', S', hrel, -⟩ := ht.mirrors.release hp
      exact ⟨{ c with store, locations := t', strings := S' }, by
        simp [hrel, bind, Except.bind, pure, Except.pure]⟩

theorem TablesHold.releaseAll_ok (ht : c.TablesHold P) (ids : List RecordId) :
    ∃ c', c.releaseAll ids = .ok c' := by
  induction ids generalizing c with
  | nil => exact ⟨c, rfl⟩
  | cons id ids ih =>
    obtain ⟨c₁, h₁⟩ := ht.release_ok id
    obtain ⟨c₂, h₂⟩ := ih (ht.release h₁)
    exact ⟨c₂, by simp only [releaseAll, List.foldlM_cons, bind, Except.bind, h₁]; exact h₂⟩

theorem TablesHold.sweepEntry_ok (ht : c.TablesHold P) (probe : UInt64 → Option UInt64)
    (e : UInt64 × RecordId) : ∃ c', sweepEntry probe c e = .ok c' := by
  unfold sweepEntry
  cases probe e.1 with
  | some size => exact ⟨_, rfl⟩
  | none =>
    dsimp only
    cases (c.heap.removeIfSame e.1 e.2).2 with
    | none => exact ⟨_, rfl⟩
    | some id =>
      -- The record loses its handle, which keeps its frames, and is let go of.
      let c₁ := { c with heap := (c.heap.removeIfSame e.1 e.2).1 }
      have ht' : (c₁.updateRecord id SampleRecord.clearHandle).TablesHold P :=
        ht.releases ((Releases.keep rfl rfl rfl : Releases c c₁).trans
          (Releases.update c₁ id SampleRecord.clearHandle fun _ => rfl))
      exact ht'.release_ok id

/-- The sweep of an export never fails on tables that count the stored frames. -/
theorem TablesHold.sweep_ok (ht : c.TablesHold P) (probe : UInt64 → Option UInt64)
    (l : List (UInt64 × RecordId)) : ∃ c', l.foldlM (sweepEntry probe) c = .ok c' := by
  induction l generalizing c with
  | nil => exact ⟨c, rfl⟩
  | cons e l ih =>
    obtain ⟨c₁, h₁⟩ := ht.sweepEntry_ok probe e
    have h₁' : [e].foldlM (sweepEntry probe) c = .ok c₁ := by
      simp [h₁, bind, Except.bind, pure, Except.pure]
    obtain ⟨c₂, h₂⟩ := ih (ht.releases (sweep_releases h₁'))
    exact ⟨c₂, by simp only [List.foldlM_cons, bind, Except.bind, h₁]; exact h₂⟩

/-- Letting go of records changes none of them: each is as it was, or gone. -/
theorem releaseAll_get? {ids : List RecordId} (h : c.releaseAll ids = .ok c') (x : RecordId) :
    c'.store.get? x = none ∨ c'.store.get? x = c.store.get? x := by
  induction ids generalizing c with
  | nil => cases h; exact .inr rfl
  | cons id ids ih =>
    obtain ⟨c₁, h₁, h₂⟩ := releaseAll_cons h
    rcases ih h₂ with hn | he
    · exact .inl hn
    · rw [he, release_eq_ok h₁]
      exact RecordStore.get?_release_eq _ _ _

/-! ### The sweep -/

/-- The first half of an export: the ledger is taken out, nothing is pending, the drop counts
are zeroed, and every heap entry is visited in order. -/
def exportSweep (c : Collector) (probe : UInt64 → Option UInt64) : Except Abort Collector :=
  c.heap.entries.foldlM (sweepEntry probe)
    { c with pending := 0, ledger := { c.ledger with records := [] }, dropped := {} }

/-- What the sweep does to the record of the entry under handle `h`: a live object's record
takes the host's size, a dead one's loses its handle. -/
def sweptRecord (probe : UInt64 → Option UInt64) (h : UInt64) (r : SampleRecord) : SampleRecord :=
  match probe h with
  | some size => r.setCurrentSize size
  | none => r.clearHandle

theorem sweptRecord_of_some {probe : UInt64 → Option UInt64} {h size : UInt64}
    (hp : probe h = some size) : sweptRecord probe h = (·.setCurrentSize size) := by
  funext r
  simp [sweptRecord, hp]

theorem sweptRecord_of_none {probe : UInt64 → Option UInt64} {h : UInt64} (hp : probe h = none) :
    sweptRecord probe h = SampleRecord.clearHandle := by
  funext r
  simp [sweptRecord, hp]

/-- The current size record `id` shows once swept: the host's size if the heap index holds it
under its handle and its object is live, its own otherwise. -/
def sweptSize (c : Collector) (probe : UInt64 → Option UInt64) (id : RecordId) (r : SampleRecord) :
    UInt64 :=
  if (r.handle, id) ∈ c.heap.entries then (probe r.handle).getD r.currentSize else r.currentSize

/-- An export whose sweep and final letting go succeed: the profile is that of the records
taken out of the ledger and of the heap records left, over the table the sweep leaves. -/
theorem flush_of_ok {probe : UInt64 → Option UInt64} (time : Int64) {c₁ c₂ : Collector}
    (hs : c.exportSweep probe = .ok c₁) (hr : c₁.releaseAll c.ledger.records = .ok c₂) :
    c.flush probe time = .ok (c₂, (Profile.ofRecords c₁.strings.snapshot c₁.strings.vocabulary time
      (c₁.recordsOf c.ledger.records) (c₁.recordsOf c₁.heap.records)).map
        fun p => ⟨⟨c.ledger.records.length, c₁.heap.records.length, c.dropped⟩, p⟩) := by
  unfold exportSweep at hs
  unfold flush
  simp only [Ledger.detach, bind, Except.bind, pure, Except.pure]
  rw [hs]
  simp only
  rw [hr]
  rfl

theorem OwnedWith.exportSweep {extra loose : List RecordId} {probe : UInt64 → Option UInt64}
    {c₁ : Collector} (ho : c.OwnedWith extra loose) (hs : c.exportSweep probe = .ok c₁) :
    c₁.OwnedWith (c.ledger.records ++ extra) loose := by
  -- The ledger's holds are handed over to the export before the sweep.
  have h₀ : ({ c with pending := 0, ledger := { c.ledger with records := [] }, dropped := {} } :
      Collector).OwnedWith (c.ledger.records ++ extra) loose := ho.detachLedger rfl rfl rfl
  exact h₀.sweep hs

theorem OwnedWith.isSome_get? {extra loose : List RecordId} (ho : c.OwnedWith extra loose)
    {id : RecordId} (h : id ∈ c.holdings ++ extra) : (c.store.get? id).isSome :=
  Option.isSome_iff_exists.2 (ho.counts.exists_get? h)

end Collector

/-- In an index with unique handles, the handle of an entry finds it. -/
theorem HeapIndex.get?_of_entries_eq {ix : HeapIndex} {done l : List (UInt64 × RecordId)}
    {e : UInt64 × RecordId} (he : ix.entries = done ++ e :: l) (hk : ix.handles.Nodup) :
    ix.get? e.1 = some e.2 :=
  (HeapIndex.get?_eq_some_iff hk).2 (by rw [he]; exact List.mem_append_right _ List.mem_cons_self)

/-- Taking out the entry under a handle, in an index with unique handles, leaves the entries
before and after it. -/
theorem HeapIndex.remove_entries {ix : HeapIndex} {done l : List (UInt64 × RecordId)}
    {e : UInt64 × RecordId} (he : ix.entries = done ++ e :: l) (hk : ix.handles.Nodup) :
    (ix.remove e.1).1 = { ix with entries := done ++ l } := by
  have hnd := hk
  rw [HeapIndex.handles, he, List.map_append, List.map_cons, List.nodup_append,
    List.nodup_cons] at hnd
  obtain ⟨-, ⟨hel, -⟩, hdis⟩ := hnd
  -- No entry before or after it has its handle.
  have hdone : done.filter (·.1 != e.1) = done := List.filter_eq_self.2 fun x hx =>
    bne_iff_ne.2 (hdis x.1 (List.mem_map_of_mem hx) e.1 List.mem_cons_self)
  have hl : l.filter (·.1 != e.1) = l := List.filter_eq_self.2 fun x hx =>
    bne_iff_ne.2 fun h => hel (h ▸ List.mem_map_of_mem hx)
  unfold HeapIndex.remove
  rw [HeapIndex.get?_of_entries_eq he hk]
  dsimp only
  rw [he, List.filter_append, List.filter_cons_of_neg (by simp), hdone, hl]

namespace Collector

variable {P : Set (UInt64 × Int64)} {c c' : Collector} {probe : UInt64 → Option UInt64}

/-- One entry `e` of the sweep, met between the entries `done` and `l` of a heap index with
unique handles: a live object's record takes its size; a dead one's entry leaves the index and
its record, with no handle, is let go of, so that it is kept or gone.  No other record, and
nothing but the heap index, the store and the tables, changes. -/
theorem sweepEntry_spec {s s' : Collector} {done l : List (UInt64 × RecordId)}
    {e : UInt64 × RecordId} (he : s.heap.entries = done ++ e :: l) (hk : s.heap.handles.Nodup)
    (hs : sweepEntry probe s e = .ok s') :
    s' = { s with
      heap := { s.heap with entries := done ++ [e].filter (fun e => (probe e.1).isSome) ++ l },
      store := s'.store, locations := s'.locations, strings := s'.strings } ∧
      (∀ id, id ≠ e.2 → s'.store.get? id = s.store.get? id) ∧
      (s'.store.get? e.2 = (s.store.get? e.2).map (sweptRecord probe e.1) ∨
        (probe e.1 = none ∧ s'.store.get? e.2 = none)) := by
  have hg := HeapIndex.get?_of_entries_eq he hk
  rcases sweepEntry_eq_ok hs with ⟨size, hp, rfl⟩ | ⟨hp, -, hr⟩ | ⟨-, hne, -⟩
  · -- A live object: its record takes the size, and its entry stays.
    have hkeep : [e].filter (fun e => (probe e.1).isSome) = [e] := by simp [hp]
    refine ⟨?_, fun id hid => ?_, .inl ?_⟩
    · rw [hkeep, List.append_assoc, List.singleton_append, ← he]
      rfl
    · rw [updateRecord_store, RecordStore.get?_update, if_neg hid]
    · rw [updateRecord_store, RecordStore.get?_update, if_pos rfl, sweptRecord_of_some hp]
  · -- A dead object: its entry leaves the heap index, and its record is let go of.
    have hdrop : [e].filter (fun e => (probe e.1).isSome) = [] := by simp [hp]
    have hstore : s'.store = ((s.store.update e.2 SampleRecord.clearHandle).release e.2).1 := by
      rw [release_eq_ok hr]
      rfl
    refine ⟨?_, fun id hid => ?_, ?_⟩
    · rw [hdrop, List.append_nil, ← HeapIndex.remove_entries he hk, release_eq_ok hr]
      rfl
    · rw [hstore, RecordStore.get?_release_of_ne hid, RecordStore.get?_update, if_neg hid]
    · rw [hstore, sweptRecord_of_none hp]
      rcases RecordStore.get?_release_eq (s.store.update e.2 SampleRecord.clearHandle) e.2 e.2
        with h | h
      · exact .inr ⟨hp, h⟩
      · rw [h, RecordStore.get?_update, if_pos rfl]
        exact .inl rfl
  · exact absurd hg hne

/-- The sweep over the entries `l` of a heap index that lists the entries `done` before them,
handles and records all unique: the entries of live objects stay, in order; the record under
an entry of `l` is swept, or gone if its object is dead; no other record changes. -/
theorem sweep_entries {s s' : Collector} {done l : List (UInt64 × RecordId)}
    (hs : l.foldlM (sweepEntry probe) s = .ok s') (he : s.heap.entries = done ++ l)
    (hk : s.heap.handles.Nodup) (hr : s.heap.records.Nodup) :
    s' = { s with
      heap := { s.heap with entries := done ++ l.filter fun e => (probe e.1).isSome },
      store := s'.store, locations := s'.locations, strings := s'.strings } ∧
      (∀ id, id ∉ l.map (·.2) → s'.store.get? id = s.store.get? id) ∧
      ∀ e ∈ l, s'.store.get? e.2 = (s.store.get? e.2).map (sweptRecord probe e.1) ∨
        (probe e.1 = none ∧ s'.store.get? e.2 = none) := by
  induction l generalizing s done with
  | nil =>
    cases hs
    refine ⟨?_, fun _ _ => rfl, fun _ h => by cases h⟩
    rw [List.filter_nil, ← he]
  | cons e l ih =>
    rw [List.foldlM_cons] at hs
    obtain ⟨s₁, h₁, h₂⟩ := Except.ok_of_bind hs
    obtain ⟨e₁, hother₁, hself₁⟩ := sweepEntry_spec he hk h₁
    -- The heap index now lists the entries visited that stay, then the rest.
    have he₁ : s₁.heap.entries = done ++ [e].filter (fun e => (probe e.1).isSome) ++ l := by
      rw [e₁]
    have hsub : s₁.heap.entries.Sublist s.heap.entries := by
      rw [he₁, he, List.append_assoc]
      exact (List.filter_sublist.append_right l).append_left done
    obtain ⟨e₂, hother₂, hself₂⟩ := ih h₂ he₁ (hk.sublist (hsub.map _)) (hr.sublist (hsub.map _))
    -- The record of `e` is under no later entry.
    have hnot : e.2 ∉ l.map (·.2) := by
      have hnd := hr
      rw [HeapIndex.records, he, List.map_append, List.map_cons, List.nodup_append,
        List.nodup_cons] at hnd
      exact hnd.2.1.1
    refine ⟨?_, fun id hid => ?_, fun x hx => ?_⟩
    · have hX : done ++ [e].filter (fun e => (probe e.1).isSome) ++
          l.filter (fun e => (probe e.1).isSome) =
          done ++ (e :: l).filter fun e => (probe e.1).isSome := by
        rw [List.append_assoc, ← List.filter_append, List.singleton_append]
      rw [e₂, hX, e₁]
    · rw [hother₂ id fun h => hid (List.mem_cons_of_mem _ h),
        hother₁ id fun h => hid (by rw [h, List.map_cons]; exact List.mem_cons_self)]
    · rcases List.mem_cons.1 hx with rfl | hx
      · rw [hother₂ x.2 hnot]
        exact hself₁
      · have hne : x.2 ≠ e.2 := fun h => hnot (by rw [← h]; exact List.mem_map_of_mem hx)
        rw [← hother₁ x.2 hne]
        exact hself₂ x hx

/-- What the sweep of an export leaves of `c`. -/
structure Swept (c : Collector) (probe : UInt64 → Option UInt64) (c₁ : Collector) : Prop where
  /-- The ledger is taken out, nothing is pending, the drop counts are zeroed, and the heap
  index keeps the entries of live objects, in order; only the store and the tables change
  besides. -/
  eq : c₁ = { c with
    pending := 0, ledger := { c.ledger with records := [] }, dropped := {},
    heap := { c.heap with entries := c.heap.entries.filter fun e => (probe e.1).isSome },
    store := c₁.store, locations := c₁.locations, strings := c₁.strings }
  /-- A record under no heap entry is as it was. -/
  other : ∀ id, id ∉ c.heap.records → c₁.store.get? id = c.store.get? id
  /-- The record of a heap entry is swept, or gone with its object. -/
  entry : ∀ e ∈ c.heap.entries, c₁.store.get? e.2 = (c.store.get? e.2).map (sweptRecord probe e.1) ∨
    (probe e.1 = none ∧ c₁.store.get? e.2 = none)

/-- **What the sweep does**, to a collector whose heap index has unique handles and records. -/
theorem sweep_spec {c₁ : Collector} (hk : c.heap.handles.Nodup) (hr : c.heap.records.Nodup)
    (hs : c.exportSweep probe = .ok c₁) : c.Swept probe c₁ := by
  obtain ⟨e, hother, hentry⟩ := sweep_entries hs (List.nil_append c.heap.entries).symm hk hr
  exact ⟨e, hother, hentry⟩

/-- A record the sweep kept is the one before it, its size swept. -/
theorem Swept.get? {extra loose : List RecordId} {c₁ : Collector} (hs : c.Swept probe c₁)
    (ho : c.OwnedWith extra loose) {id : RecordId} {r₁ : SampleRecord}
    (h : c₁.store.get? id = some r₁) :
    ∃ r, c.store.get? id = some r ∧ r₁.backtrace = r.backtrace ∧
      r₁.allocationSize = r.allocationSize ∧ r₁.currentSize = c.sweptSize probe id r := by
  by_cases hid : id ∈ c.heap.records
  · -- Under a heap entry: the record is swept.
    obtain ⟨k, hk⟩ := HeapIndex.mem_records.1 hid
    obtain ⟨r, hr, hrk⟩ := ho.entry_handle k id hk
    have hsize : c.sweptSize probe id r = (probe k).getD r.currentSize := by
      rw [sweptSize, hrk, if_pos hk]
    rcases hs.entry (k, id) hk with he | ⟨-, he⟩
    · dsimp only at he
      rw [h, hr] at he
      refine ⟨r, hr, ?_⟩
      rw [hsize, Option.some.inj he]
      cases hp : probe k with
      | some size => rw [sweptRecord_of_some hp]; exact ⟨rfl, rfl, rfl⟩
      | none => rw [sweptRecord_of_none hp]; exact ⟨rfl, rfl, rfl⟩
    · dsimp only at he
      rw [h] at he
      cases he
  · -- Under none: the record is as it was.
    have hr := hs.other id hid
    rw [h] at hr
    refine ⟨r₁, hr.symm, rfl, rfl, ?_⟩
    rw [sweptSize, if_neg fun hm => hid (HeapIndex.mem_records.2 ⟨_, hm⟩)]

/-- Samples that show the records of `ids`, all stored, show them one by one. -/
theorem forall₂_recordsOf {ids : List RecordId} {ss : List Sample} {table : List String}
    {k : SampleKind} (hids : ∀ id ∈ ids, (c.store.get? id).isSome)
    (h : List.Forall₂ (fun s x => SampleShows table s x.1 x.2) ss ((c.recordsOf ids).map (·, k))) :
    List.Forall₂ (fun id s => ∃ r, c.store.get? id = some r ∧ SampleShows table s r k) ids ss := by
  rw [List.forall₂_map_right_iff] at h
  exact List.forall₂_of_filterMap hids (List.Forall₂.flip h)

theorem Swept.heap_records {c₁ : Collector} (hs : c.Swept probe c₁) :
    c₁.heap.records = (c.heap.entries.filter fun e => (probe e.1).isSome).map (·.2) := by
  rw [HeapIndex.records, congrArg Collector.heap hs.eq]

/-- Samples of the records of `ids` after the sweep show the records before it, with their
swept sizes. -/
theorem Swept.allocation_samples {extra loose : List RecordId} {c₁ : Collector}
    (hs : c.Swept probe c₁) (ho : c.OwnedWith extra loose) {ids : List RecordId}
    {ss : List Sample} {table : List String} {k : SampleKind}
    (hids : ∀ id ∈ ids, (c₁.store.get? id).isSome)
    (h : List.Forall₂ (fun s x => SampleShows table s x.1 x.2) ss ((c₁.recordsOf ids).map (·, k))) :
    List.Forall₂ (fun id s => ∃ r, c.store.get? id = some r ∧
      SampleShows table s (r.setCurrentSize (c.sweptSize probe id r)) k) ids ss :=
  (forall₂_recordsOf hids h).imp fun _ _ ⟨_, hr₁, hshow⟩ => by
    obtain ⟨r, hr, hb, ha, hc⟩ := hs.get? ho hr₁
    exact ⟨r, hr, hshow.congr hb.symm ha.symm hc.symm⟩

/-- Samples of the heap records after the sweep show the records of the live entries before it,
with the host's sizes. -/
theorem Swept.heap_samples {c₁ : Collector} (hs : c.Swept probe c₁) {ss : List Sample}
    {table : List String} {k : SampleKind}
    (hids : ∀ id ∈ c₁.heap.records, (c₁.store.get? id).isSome)
    (h : List.Forall₂ (fun s x => SampleShows table s x.1 x.2) ss
      ((c₁.recordsOf c₁.heap.records).map (·, k))) :
    List.Forall₂ (fun e s => ∃ r size, c.store.get? e.2 = some r ∧ probe e.1 = some size ∧
      SampleShows table s (r.setCurrentSize size) k)
      (c.heap.entries.filter fun e => (probe e.1).isSome) ss := by
  have h' := forall₂_recordsOf hids h
  rw [hs.heap_records, List.forall₂_map_left_iff] at h'
  refine ((List.forall₂_and_left _ _).2 ⟨fun e he => he, h'⟩).imp
    fun e s ⟨he, r₁, hr₁, hshow⟩ => ?_
  obtain ⟨he, hlive⟩ := List.mem_filter.1 he
  obtain ⟨size, hsize⟩ := Option.isSome_iff_exists.1 hlive
  rcases hs.entry e he with h' | ⟨h', -⟩
  · rw [hr₁, sweptRecord_of_some hsize] at h'
    obtain ⟨r, hr, rfl⟩ := Option.map_eq_some_iff.1 h'.symm
    exact ⟨r, size, hr, hsize, hshow⟩
  · rw [hsize] at h'
    cases h'

/-- Once the records taken out of the ledger are let go of too, the heap index alone holds
records: the record of a heap entry is swept if its object is live, and gone if it is dead. -/
theorem Swept.released_get? {extra loose : List RecordId} {c₁ c₂ : Collector}
    {ids : List RecordId} (hs : c.Swept probe c₁) (ho : c.OwnedWith extra loose)
    (hr : c₁.releaseAll ids = .ok c₂) (ho₂ : c₂.OwnedWith [] []) {e : UInt64 × RecordId}
    (he : e ∈ c.heap.entries) :
    c₂.store.get? e.2 =
      (probe e.1).bind fun size => (c.store.get? e.2).map (·.setCurrentSize size) := by
  have hheld : ∀ x, x ∈ c₂.holdings ++ [] ↔ ∃ k, (k, x) ∈ c.heap.entries ∧ (probe k).isSome := by
    intro x
    have hl : c₂.ledger.records = [] := by rw [releaseAll_eq_ok hr, hs.eq]
    have hh : c₂.heap.records = c₁.heap.records := by rw [releaseAll_eq_ok hr]
    rw [holdings, hl, hh, hs.heap_records]
    simp
  cases hp : probe e.1 with
  | none =>
    refine ho₂.counts.get?_eq_none_iff.2 fun hm => ?_
    obtain ⟨k, hk, hlive⟩ := (hheld e.2).1 hm
    rw [HeapIndex.handle_eq_of_records_nodup ho.records_nodup hk he, hp] at hlive
    cases hlive
  | some size =>
    obtain ⟨r₂, hr₂⟩ := ho₂.counts.exists_get? ((hheld e.2).2 ⟨e.1, he, by simp [hp]⟩)
    rcases releaseAll_get? hr e.2 with h | h
    · rw [hr₂] at h
      cases h
    · rcases hs.entry e he with h' | ⟨h', -⟩
      · rw [h, h', sweptRecord_of_some hp]
        rfl
      · rw [hp] at h'
        cases h'

/-! ### Resolved collectors export -/

namespace Resolved

section

variable (hP : Set.InjOn (Function.uncurry locationId) P)
include hP

/-- The sweep of a resolved collector succeeds and leaves it resolved. -/
theorem exportSweep_ok (hc : c.Resolved P) (probe : UInt64 → Option UInt64) :
    ∃ c₁, c.exportSweep probe = .ok c₁ ∧ c₁.Resolved P := by
  have h₀ : ({ c with pending := 0, ledger := { c.ledger with records := [] }, dropped := {} } :
      Collector).Resolved P := (resolved_siteInvariant hP).keep hc rfl rfl rfl
  obtain ⟨c₁, hs⟩ := h₀.tables.sweep_ok probe c.heap.entries
  exact ⟨c₁, hs, (resolved_siteInvariant hP).releases (sweep_releases hs) h₀⟩

end

/-- The functions of the frames of the stored records of a resolved collector have their names
and files in its frozen list, at their texts. -/
theorem finds_frames (hc : c.Resolved P) {ids : List RecordId} {r : SampleRecord}
    (hr : r ∈ c.recordsOf ids) {l : Location} (hl : l ∈ r.backtrace) :
    c.strings.snapshot.Finds l.function.name ∧ c.strings.snapshot.Finds l.function.file := by
  obtain ⟨id, -, hid⟩ := List.mem_filterMap.1 hr
  obtain ⟨hname, hfile⟩ := hc.isLive_function hid hl
  exact ⟨hc.finds_of_isLive hname, hc.finds_of_isLive hfile⟩

/-- The profile of any stored records of a resolved collector is written. -/
theorem ofRecords_ok (hc : c.Resolved P) (time : Int64) (as hs : List RecordId) :
    ∃ p, Profile.ofRecords c.strings.snapshot c.strings.vocabulary time (c.recordsOf as)
        (c.recordsOf hs) = .ok p ∧ p.stringTable = c.strings.snapshot.texts ∧
      List.Forall₂ (fun s x => SampleShows p.stringTable s x.1 x.2) p.samples
        ((c.recordsOf as).map (·, .allocation) ++ (c.recordsOf hs).map (·, .heap)) := by
  refine Profile.ofRecords_eq_ok hc.stamped time
    (fun w => (hc.finds_of_isLive (hc.isLive_vocabulary w)).isSome) fun r hr l hl => ?_
  have hr' : r ∈ c.recordsOf (as ++ hs) := by
    rw [recordsOf, List.filterMap_append]
    exact hr
  obtain ⟨hname, hfile⟩ := hc.finds_frames hr' hl
  exact ⟨hname.isSome, hfile.isSome⟩

/-- An export of a resolved collector succeeds: the sweep leaves it resolved, the profile of the
records taken out of the ledger and of the heap records left is written, and the records taken
out are let go of. -/
theorem flush_ok (hP : Set.InjOn (Function.uncurry locationId) P) (hc : c.Resolved P)
    (probe : UInt64 → Option UInt64) (time : Int64) :
    ∃ c₁ c₂ p, c.exportSweep probe = .ok c₁ ∧ c₁.Resolved P ∧
      c₁.releaseAll c.ledger.records = .ok c₂ ∧
      List.Forall₂ (fun s x => SampleShows p.stringTable s x.1 x.2) p.samples
        ((c₁.recordsOf c.ledger.records).map (·, .allocation) ++
          (c₁.recordsOf c₁.heap.records).map (·, .heap)) ∧
      c.flush probe time =
        .ok (c₂, .ok ⟨⟨c.ledger.records.length, c₁.heap.records.length, c.dropped⟩, p⟩) := by
  obtain ⟨c₁, hs, hc₁⟩ := hc.exportSweep_ok hP probe
  obtain ⟨c₂, hr⟩ := hc₁.tables.releaseAll_ok c.ledger.records
  obtain ⟨p, hp, -, hsamples⟩ := hc₁.ofRecords_ok time c.ledger.records c₁.heap.records
  have hflush := flush_of_ok time hs hr
  rw [hp] at hflush
  exact ⟨c₁, c₂, p, hs, hc₁, hr, hsamples, hflush⟩

end Resolved

end Collector

/-! ### Exports of reachable collectors -/

/-- **An export never misses a string.**  In a collector that a history reaches, if the location
hash tells apart the sites the history interned, an export writes its profile.  The sweep
succeeds, and in the frozen list taken after it every function name and file of a record taken
out of the ledger or left in the heap index, and every word of the vocabulary, has a position
holding its text. -/
theorem History.flush_strings_listed {c : Collector} (t : History c)
    (hfree : Set.InjOn (Function.uncurry locationId) {p | p ∈ t.sites})
    (probe : UInt64 → Option UInt64) (time : Int64) :
    (∃ c' rep, c.flush probe time = .ok (c', .ok rep)) ∧
      ∃ c₁, c.exportSweep probe = .ok c₁ ∧
        (∀ r ∈ c₁.recordsOf (c.ledger.records ++ c₁.heap.records), ∀ l ∈ r.backtrace,
          c₁.strings.snapshot.Finds l.function.name ∧ c₁.strings.snapshot.Finds l.function.file) ∧
        ∀ w, c₁.strings.snapshot.Finds (c₁.strings.vocabulary w) := by
  obtain ⟨c₁, c₂, _, hs, hc₁, -, -, hflush⟩ := (t.resolved hfree).flush_ok hfree probe time
  exact ⟨⟨c₂, _, hflush⟩, c₁, hs, fun r hr l hl => hc₁.finds_frames hr hl,
    fun w => hc₁.finds_of_isLive (hc₁.isLive_vocabulary w)⟩

/-- After `sharedFrameHistory`, with the object of handle `7` gone, an export writes its profile:
the sweep lets go of the heap entry of `7`, whose record shares its function and a location with
the record of `8`. -/
theorem flush_strings_listed_after_shared_frames :
    ∃ (c : Collector) (t : History c), Set.InjOn (Function.uncurry locationId) {p | p ∈ t.sites} ∧
      ∃ c' rep, c.flush (fun h => if h = 7 then none else some 24) 0 = .ok (c', .ok rep) :=
  ⟨_, _, sharedFrameHistory_injOn, (History.flush_strings_listed _ sharedFrameHistory_injOn _ 0).1⟩

/-! ### Colliding location ids -/

/-- Two functions whose frames at line `0` get one location id. -/
theorem locationId_collision :
    locationId 15368651960797290627 0 = locationId 2981100479311591759 0 := by
  decide +kernel

theorem Except.eq_ok_get {ε α : Type} {x : Except ε α} (h : x.toOption.isSome) :
    x = .ok (x.toOption.get h) := by
  cases x with
  | error e => cases h
  | ok a => rfl

theorem Except.exists_error_of_toBool {ε α : Type} {x : Except ε α} (h : x.toBool = false) :
    ∃ e, x = .error e := by
  cases x with
  | error e => exact ⟨e, rfl⟩
  | ok a => cases h

/-- A started collector that sampled two objects, one in each function of
`locationId_collision` at line `0`, exported them, and saw the first freed.  Both frames were
interned as one location, in the first function; letting go of the first record took that
function and its strings out of the tables, while the second record still points at them.  The
collectors past the second capture are computed by the kernel. -/
noncomputable def collidingHistory : Σ c, History c :=
  let sampled := History.events
    (@History.start _ _ (.ok ()) (.new Rate.always Rate.always .fast 4 4) (.ok ()) rfl)
    (.allocCaptured 1 40 0 .fast
      [{ functionId := 15368651960797290627, name := "a", file := "f", startLine := 1 }]
      rfl (.nil _ _) rfl
      (.allocCaptured 2 40 0 .fast
        [{ functionId := 2981100479311591759, name := "b", file := "g", startLine := 1 }]
        rfl (.nil _ _) rfl (.nil _ _)))
  let exported := History.flush sampled (fun _ => some 40) 0 (Except.eq_ok_get (by decide +kernel))
  ⟨_, .events exported (.free 1 (Except.eq_ok_get (by decide +kernel)) (.nil _ _))⟩

theorem collidingHistory_not_injOn :
    ¬Set.InjOn (Function.uncurry locationId) {p | p ∈ collidingHistory.2.sites} := fun h => by
  have hA : ((15368651960797290627 : UInt64), (0 : Int64)) ∈ collidingHistory.2.sites := by
    decide +kernel
  have hB : ((2981100479311591759 : UInt64), (0 : Int64)) ∈ collidingHistory.2.sites := by
    decide +kernel
  have := h hA hB locationId_collision
  simp at this

/-- Without the hash telling the sites apart an export can fail to write its profile: at
`collidingHistory`, the frame of the second record names a function whose strings the table no
longer holds. -/
theorem flush_misses_string_on_collision :
    ¬Set.InjOn (Function.uncurry locationId) {p | p ∈ collidingHistory.2.sites} ∧
      ∃ c' e, collidingHistory.1.flush (fun _ => some 40) 0 = .ok (c', .error e) := by
  refine ⟨collidingHistory_not_injOn, ?_⟩
  have h : ((collidingHistory.1.flush (fun _ => some 40) 0).toOption.map fun x => x.2.isOk) =
      some false := by
    decide +kernel
  cases hx : collidingHistory.1.flush (fun _ => some 40) 0 with
  | error e => rw [hx] at h; cases h
  | ok x =>
    obtain ⟨c', r⟩ := x
    cases r with
    | error e => exact ⟨c', e, rfl⟩
    | ok rep => rw [hx] at h; cases h

/-! ### What an export does -/

/-- **What an export does.**  In a collector that a history reaches, if the location hash tells
apart the sites the history interned, an export succeeds, whatever the host says of its objects.
It reports the number of records in the ledger, the number of heap entries of live objects and
the drop counts.  It leaves the ledger empty with its capacity, nothing pending, the drop counts
zeroed, the heap index with the entries of live objects only, in order, each record of one with
the host's size and the record of a dead one gone, and the settings as they were.  Its profile
has one allocation sample per record of the ledger, in order, showing the record with the size
the sweep gave it, then one heap sample per live entry, showing its record with the host's
size. -/
theorem History.flush_spec {c : Collector} (t : History c)
    (hfree : Set.InjOn (Function.uncurry locationId) {p | p ∈ t.sites})
    (probe : UInt64 → Option UInt64) (time : Int64) :
    ∃ c' rep, c.flush probe time = .ok (c', .ok rep) ∧
      rep.stats = ⟨c.ledger.records.length,
        (c.heap.entries.filter fun e => (probe e.1).isSome).length, c.dropped⟩ ∧
      (c'.ledger = { c.ledger with records := [] } ∧ c'.pending = 0 ∧ c'.dropped = {} ∧
        c'.heap = { c.heap with entries := c.heap.entries.filter fun e => (probe e.1).isSome } ∧
        (∀ e ∈ c.heap.entries, c'.store.get? e.2 =
          (probe e.1).bind fun size => (c.store.get? e.2).map (·.setCurrentSize size)) ∧
        c'.running = c.running ∧ c'.sampleRate = c.sampleRate ∧ c'.retainRate = c.retainRate ∧
        c'.method = c.method) ∧
      ∃ sa sh, rep.profile.samples = sa ++ sh ∧
        List.Forall₂ (fun id s => ∃ r, c.store.get? id = some r ∧
          SampleShows rep.profile.stringTable s (r.setCurrentSize (c.sweptSize probe id r))
            .allocation) c.ledger.records sa ∧
        List.Forall₂ (fun e s => ∃ r size, c.store.get? e.2 = some r ∧ probe e.1 = some size ∧
          SampleShows rep.profile.stringTable s (r.setCurrentSize size) .heap)
          (c.heap.entries.filter fun e => (probe e.1).isSome) sh := by
  have ho : c.OwnedWith [] [] := Collector.owned_invariant.holds t
  obtain ⟨c₁, c₂, p, hs, -, hr, hsamples, hflush⟩ := (t.resolved hfree).flush_ok hfree probe time
  have hsw := Collector.sweep_spec ho.handles_nodup ho.records_nodup hs
  have ho₁ : c₁.OwnedWith (c.ledger.records ++ []) [] := ho.exportSweep hs
  -- The final letting go changes the store and the tables only.
  have e₂ : c₂ = { c with
      pending := 0, ledger := { c.ledger with records := [] }, dropped := {},
      heap := { c.heap with entries := c.heap.entries.filter fun e => (probe e.1).isSome },
      store := c₂.store, locations := c₂.locations, strings := c₂.strings } := by
    rw [Collector.releaseAll_eq_ok hr, hsw.eq]
  refine ⟨c₂, _, hflush, by rw [hsw.heap_records, List.length_map],
    ⟨by rw [e₂], by rw [e₂], by rw [e₂], by rw [e₂],
      fun e he => hsw.released_get? ho hr (ho₁.releaseAll hr) he,
      by rw [e₂], by rw [e₂], by rw [e₂], by rw [e₂]⟩, ?_⟩
  -- The samples of the records taken out of the ledger, which are held until the profile is
  -- written, come first; then those of the heap records.
  let n := ((c₁.recordsOf c.ledger.records).map (·, SampleKind.allocation)).length
  exact ⟨p.samples.take n, p.samples.drop n, (List.take_append_drop _ _).symm,
    hsw.allocation_samples ho
      (fun _ hid => ho₁.isSome_get? (List.mem_append_right _ (List.mem_append_left _ hid)))
      (List.forall₂_take_append _ _ _ hsamples),
    hsw.heap_samples
      (fun _ hid => ho₁.isSome_get? (List.mem_append_left _ (List.mem_append_right _ hid)))
      (List.forall₂_drop_append _ _ _ hsamples)⟩

/-- After `sharedFrameHistory`, with the object of handle `7` gone, an export reports both records
as allocation samples and the record of `8` alone as a heap sample, and keeps only the entry
of `8`. -/
theorem flush_spec_after_shared_frames :
    ∃ (c : Collector) (t : History c), Set.InjOn (Function.uncurry locationId) {p | p ∈ t.sites} ∧
      ∃ c' rep, c.flush (fun h => if h = 7 then none else some 24) 0 = .ok (c', .ok rep) ∧
        rep.stats = ⟨2, 1, {}⟩ ∧ c'.heap.entries.map (·.1) = [8] := by
  obtain ⟨c', rep, hf, hstats, ⟨-, -, -, hheap, -⟩, -⟩ :=
    History.flush_spec sharedFrameHistory.2 sharedFrameHistory_injOn
      (fun h => if h = 7 then none else some 24) 0
  refine ⟨_, _, sharedFrameHistory_injOn, c', rep, hf, hstats.trans (by decide +kernel), ?_⟩
  rw [hheap]
  decide +kernel

/-- Without the hash telling the sites apart an export can abort: at `collidingHistory`, with the
second object dead, the sweep lets go of its record, whose frame's function the free already
released. -/
theorem flush_aborts_on_collision :
    ¬Set.InjOn (Function.uncurry locationId) {p | p ∈ collidingHistory.2.sites} ∧
      ∃ e, collidingHistory.1.flush (fun h => if h = 2 then none else some 40) 0 = .error e := by
  refine ⟨collidingHistory_not_injOn, ?_⟩
  have h : (collidingHistory.1.flush (fun h => if h = 2 then none else some 40) 0).isOk = false := by
    decide +kernel
  cases hx : collidingHistory.1.flush (fun h => if h = 2 then none else some 40) 0 with
  | error e => exact ⟨e, rfl⟩
  | ok x => rw [hx] at h; cases h

end HeapSampler
