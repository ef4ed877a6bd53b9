import HeapSampler.Proofs.Tables
import HeapSampler.Proofs.Releases
import HeapSampler.Proofs.Ownership
import Mathlib.Data.List.Dedup

/-!
# The interning tables mirror the records

A record keeps the backtrace it was sampled with, and every frame of it holds one count on its
location and one on its location's function; a function holds a count on its name and one on
its file in the string table, which also holds the words of the vocabulary.  The counts are
given back when the last holder of a record lets go of it, from a dozen places in the
collector.  This file proves that they never drift: between calls, every count of the tables
is the number of references to it from the records the ledger or the heap index holds
(`tables_mirror_held_records`), so nothing leaks and no release runs short.

Locations are found by a hash of their function's id and their line.  The statement assumes
that the hash tells apart the sites (pairs of function id and line) that a history interned:
two of them with one hash would pool their counts.  `History.sites` reads those sites off a
history.

The proof keeps `Collector.TablesHold P`: the tables count the frames of the stored records,
with every location keyed by a site of `P`.  Every operation but the second half of an
allocation only lets go of records (`Collector.Releases`), and letting go of the last hold on a
record releases exactly its frames; the second half of an allocation interns the frames of the
record it makes.

## Main definitions

* `RecordStore.frames`, `RecordStore.Keyed`.
* `Collector.TablesHold` — the tables count the frames of the stored records.
* `EventRun.sites`, `History.sites` — the sites a run interned.
* `Collector.heldFrames`, `Collector.textRefs`, `Collector.TablesMirror`.

## Main results

* `History.tablesHold` — the tables of every reachable collector count the stored frames.
* `tables_mirror_held_records` — they count exactly the references from the records held.
-/

namespace HeapSampler

/-! ### The frames of the stored records -/

namespace RecordStore

/-- The names in use. -/
def ids (s : RecordStore) : List RecordId := s.entries.map (·.1)

/-- The frames of the backtraces of the stored records, each record once. -/
def frames (s : RecordStore) : List Location := s.entries.flatMap (·.2.record.backtrace)

/-- Each name in use is used once, and is below the next one. -/
structure Keyed (s : RecordStore) : Prop where
  /-- No name is used twice. -/
  nodup : s.ids.Nodup
  /-- The names in use are below the next one. -/
  lt_nextId : ∀ id ∈ s.ids, id < s.nextId

theorem keyed_empty : ({} : RecordStore).Keyed := ⟨List.nodup_nil, fun _ h => by cases h⟩

variable {s : RecordStore}

/-- Changing the entries in place keeps the names. -/
theorem ids_map (s : RecordStore) {g : RecordId × StoredRecord → RecordId × StoredRecord}
    (hg : ∀ x, (g x).1 = x.1) : ({ s with entries := s.entries.map g } : RecordStore).ids = s.ids := by
  simp only [ids, List.map_map]
  exact List.map_congr_left fun x _ => hg x

/-- Changing the entries without touching the backtraces keeps the frames. -/
theorem frames_map (s : RecordStore) {g : RecordId × StoredRecord → RecordId × StoredRecord}
    (hg : ∀ x, (g x).2.record.backtrace = x.2.record.backtrace) :
    ({ s with entries := s.entries.map g } : RecordStore).frames = s.frames := by
  simp only [frames, List.flatMap_map]
  exact List.flatMap_congr fun x _ => hg x

theorem ids_update (s : RecordStore) (id : RecordId) (f : SampleRecord → SampleRecord) :
    (s.update id f).ids = s.ids :=
  ids_map s fun x => by by_cases h : (x.1 == id) = true <;> simp [h]

theorem frames_update (s : RecordStore) (id : RecordId) {f : SampleRecord → SampleRecord}
    (hf : ∀ r, (f r).backtrace = r.backtrace) : (s.update id f).frames = s.frames :=
  frames_map s fun x => by by_cases h : (x.1 == id) = true <;> simp [h, hf]

theorem Keyed.update (hk : s.Keyed) (id : RecordId) (f : SampleRecord → SampleRecord) :
    (s.update id f).Keyed := by
  refine ⟨?_, ?_⟩ <;> rw [ids_update]
  · exact hk.nodup
  · exact hk.lt_nextId

theorem frames_add (s : RecordStore) (r : SampleRecord) (n : Nat) :
    (s.add r n).1.frames = s.frames ++ r.backtrace := by
  simp [frames, add, List.flatMap_append]

theorem Keyed.add (hk : s.Keyed) (r : SampleRecord) (n : Nat) : (s.add r n).1.Keyed := by
  have hids : (s.add r n).1.ids = s.ids ++ [s.nextId] := by simp [ids, RecordStore.add]
  refine ⟨?_, fun id hid => ?_⟩
  · rw [hids]
    refine hk.nodup.append (List.nodup_singleton _) fun x hx hy => ?_
    rw [List.mem_singleton] at hy
    exact Nat.lt_irrefl _ (hy ▸ hk.lt_nextId x hx)
  · rw [hids, List.mem_append, List.mem_singleton] at hid
    show id < s.nextId + 1
    rcases hid with hid | rfl
    · exact Nat.lt_succ_of_lt (hk.lt_nextId id hid)
    · exact Nat.lt_succ_self _

/-- One holder lets go of a record: the names stay keyed, and the stored frames lose the
backtrace of the record handed back, if it was the last hold. -/
theorem Keyed.release (hk : s.Keyed) (id : RecordId) :
    (s.release id).1.Keyed ∧
      s.frames.Perm ((s.release id).1.frames ++ ((s.release id).2.map (·.backtrace)).getD []) := by
  unfold RecordStore.release
  cases hf : s.find? id with
  | none => exact ⟨hk, by simp⟩
  | some e =>
    dsimp only
    have hf' : (s.entries.find? (·.1 == id)).map (·.2) = some e := hf
    obtain ⟨p, hp, rfl⟩ := Option.map_eq_some_iff.1 hf'
    have hkey : p.1 = id := key_of_find? Prod.fst hp
    split
    · -- The last hold: the entry goes, and its frames with it.
      have hperm := perm_cons_filter_key Prod.fst hk.nodup (List.mem_of_find?_eq_some hp)
      rw [hkey] at hperm
      have hsub : (s.entries.filter (·.1 != id)).map (·.1) ⊆ s.ids :=
        List.map_subset _ (List.filter_subset_self _)
      refine ⟨⟨hk.nodup.sublist (List.filter_sublist.map _), fun x hx => hk.lt_nextId x (hsub hx)⟩, ?_⟩
      simp only [frames, Option.map_some, Option.getD_some]
      refine (hperm.flatMap_right _).trans ?_
      rw [List.flatMap_cons]
      exact List.perm_append_comm
    · -- Another holder stays: only the count of owners changes.
      have hi := ids_map s (g := fun x => if x.1 == id then (x.1, { x.2 with owners := x.2.owners - 1 })
        else x) fun x => by by_cases h : (x.1 == id) = true <;> simp [h]
      have hfr := frames_map s (g := fun x => if x.1 == id then (x.1, { x.2 with owners := x.2.owners - 1 })
        else x) fun x => by by_cases h : (x.1 == id) = true <;> simp [h]
      refine ⟨⟨?_, ?_⟩, ?_⟩
      · rw [hi]
        exact hk.nodup
      · rw [hi]
        exact hk.lt_nextId
      · rw [Option.map_none, Option.getD_none, List.append_nil, hfr]

end RecordStore

/-! ### The tables count the stored frames -/

namespace Collector

/-- The tables of `c` count the frames of its stored records, with every location keyed by a
site of `P`, and the store uses each name once. -/
structure TablesHold (P : Set (UInt64 × Int64)) (c : Collector) : Prop where
  /-- The store uses each name once. -/
  keyed : c.store.Keyed
  /-- The tables count the stored frames. -/
  mirrors : c.locations.Mirrors P c.strings StringTable.pins c.store.frames

namespace TablesHold

variable {P : Set (UInt64 × Int64)} {c c' : Collector}

theorem initial (P : Set (UInt64 × Int64)) (sampleRate retainRate : Rate) (method : CaptureMethod)
    (maxAllocs maxHeap : Nat) :
    (Collector.initial sampleRate retainRate method maxAllocs maxHeap).TablesHold P :=
  ⟨RecordStore.keyed_empty, LocationTable.mirrors_empty P⟩

/-- Only the store and the two tables matter. -/
theorem of_eq (ht : c.TablesHold P) (hs : c'.store = c.store) (hl : c'.locations = c.locations)
    (hst : c'.strings = c.strings) : c'.TablesHold P :=
  ⟨by rw [hs]; exact ht.keyed, by rw [hs, hl, hst]; exact ht.mirrors⟩

/-- The last holder of a record to let go of it gives its frames back to the tables. -/
theorem release (ht : c.TablesHold P) {id : RecordId} (h : c.release id = .ok c') :
    c'.TablesHold P := by
  obtain ⟨hk, hp⟩ := ht.keyed.release id
  unfold Collector.release at h
  cases hr : c.store.release id with
  | mk store gone =>
    rw [hr] at h hk hp
    cases gone with
    | none =>
      cases h
      exact ⟨hk, ht.mirrors.perm (by simpa using hp)⟩
    | some r =>
      simp only [Option.map_some, Option.getD_some] at hp
      obtain ⟨t', S', hrel, hm⟩ := ht.mirrors.release hp
      simp only [hrel, bind, Except.bind, pure, Except.pure, Except.ok.injEq] at h
      subst h
      exact ⟨hk, hm⟩

theorem step (ht : c.TablesHold P) (hs : ReleaseStep c c') : c'.TablesHold P := by
  cases hs with
  | keep hs hl hst => exact ht.of_eq hs hl hst
  | update id f hf hs hl hst =>
    refine ⟨by rw [hs]; exact ht.keyed.update id f, ?_⟩
    rw [hs, hl, hst, RecordStore.frames_update _ _ hf]
    exact ht.mirrors
  | release id h => exact ht.release h

theorem releases (ht : c.TablesHold P) (h : Releases c c') : c'.TablesHold P := by
  induction h with
  | refl => exact ht
  | tail _ hs ih => exact ih.step hs

/-- A new record interns its frames, which lie at sites of `P`. -/
theorem enroll (ht : c.TablesHold P) (hP : Set.InjOn (Function.uncurry locationId) P)
    {frames : List Frame} (hf : ∀ f ∈ frames, f.site ∈ P) (h size : UInt64) :
    (c.enroll h size frames).TablesHold P := by
  refine ⟨by rw [enroll_store]; exact ht.keyed.add _ 2, ?_⟩
  rw [enroll_locations, enroll_strings, enroll_store, RecordStore.frames_add]
  exact ht.mirrors.intern hP hf

theorem finishAlloc (ht : c.TablesHold P) (hP : Set.InjOn (Function.uncurry locationId) P)
    {h size : UInt64} {frames : List Frame} (hs : c.checkRoom.2 = true → ∀ f ∈ frames, f.site ∈ P)
    (hf : c.finishAlloc h size frames = .ok c') : c'.TablesHold P := by
  rcases finishAlloc_eq_ok hf with ⟨-, rfl⟩ | ⟨hc, hm⟩
  · have e := checkRoom_fst c
    exact ht.of_eq (by rw [e]) (by rw [e]) (by rw [e])
  · have he := ht.enroll hP (hs (by rw [hc])) h size
    cases hg : c.heap.get? h with
    | none =>
      rw [hg] at hm
      rw [hm]
      exact he
    | some old =>
      rw [hg] at hm
      exact he.releases ((Releases.update _ old SampleRecord.clearHandle fun _ => rfl).trans
        (.release hm))

end TablesHold

end Collector

/-! ### The sites a history interned -/

/-- The sites of the frames that a run of events interned: those of every capture that found
room. -/
def EventRun.sites {d : Nat} {c c' : Collector} : EventRun d c c' → List (UInt64 × Int64)
  | .nil _ _ => []
  | .free _ _ rest => rest.sites
  | .ret _ _ _ rest => rest.sites
  | .alloc _ _ _ rest => rest.sites
  | .allocFailed _ _ _ _ nested rest => nested.sites ++ rest.sites
  | @EventRun.allocCaptured _ _ _ c₂ _ _ _ _ _ _ frames _ nested _ rest =>
    nested.sites ++ (if c₂.checkRoom.2 then frames.map Frame.site else []) ++ rest.sites

/-- The sites of the frames that a history interned. -/
def History.sites {c : Collector} : History c → List (UInt64 × Int64)
  | .new .. => []
  | .start prev _ _ => prev.sites
  | .stop prev _ => prev.sites
  | .configure prev _ _ => prev.sites
  | .setSampleRate prev _ _ => prev.sites
  | .setRetainRate prev _ _ => prev.sites
  | .setMaxAllocationSamples prev _ => prev.sites
  | .setMaxHeapSamples prev _ => prev.sites
  | .setMethod prev _ => prev.sites
  | .relocate prev _ _ => prev.sites
  | .flush prev _ _ _ => prev.sites
  | .events prev run => prev.sites ++ run.sites

/-- The hash tells apart the sites of a list when the ids of its distinct sites are distinct. -/
theorem injOn_of_nodup_locationIds {S : List (UInt64 × Int64)}
    (h : (S.dedup.map (Function.uncurry locationId)).Nodup) :
    Set.InjOn (Function.uncurry locationId) {p | p ∈ S} :=
  fun _ hp _ hq hpq => List.inj_on_of_nodup_map h (List.mem_dedup.2 hp) (List.mem_dedup.2 hq) hpq

/-- The hash tells apart the two sites of `sharedFrameHistory`. -/
theorem sharedFrameHistory_injOn :
    Set.InjOn (Function.uncurry locationId) {p | p ∈ sharedFrameHistory.2.sites} :=
  injOn_of_nodup_locationIds (by decide +kernel)

section Runs

variable {P : Set (UInt64 × Int64)} (hP : Set.InjOn (Function.uncurry locationId) P)
include hP

open Collector

/-- A run of events whose interned sites lie in `P` keeps the tables counting the stored frames. -/
theorem EventRun.tablesHold {d : Nat} {c c' : Collector} (r : EventRun d c c')
    (hsub : ∀ p ∈ r.sites, p ∈ P) (hc : c.TablesHold P) : c'.TablesHold P := by
  induction r with
  | nil => exact hc
  | free _ he _ ih => exact ih hsub (hc.releases (evict_releases he))
  | ret _ _ hr _ ih => exact ih hsub (hc.releases (onReturn_releases hr))
  | alloc _ _ hb _ ih => exact ih hsub (hc.releases (beginAlloc_releases hb))
  | allocFailed _ _ _ hb _ _ ihn ih =>
    simp only [EventRun.sites, List.mem_append] at hsub
    exact ih (fun p hp => hsub p (.inr hp))
      (ihn (fun p hp => hsub p (.inl hp)) (hc.releases (beginAlloc_releases hb)))
  | @allocCaptured _ _ _ c₂ _ _ _ _ _ _ frames hb _ hf _ ihn ih =>
    simp only [EventRun.sites, List.mem_append] at hsub
    have hc₂ := ihn (fun p hp => hsub p (.inl (.inl hp))) (hc.releases (beginAlloc_releases hb))
    -- The captured frames are interned only when there is still room.
    have hs : c₂.checkRoom.2 = true → ∀ f ∈ frames, f.site ∈ P := fun hroom f hf =>
      hsub f.site (.inl (.inr (by rw [if_pos hroom]; exact List.mem_map_of_mem hf)))
    exact ih (fun p hp => hsub p (.inr hp)) (hc₂.finishAlloc hP hs hf)

/-- A history whose interned sites lie in `P` leaves the tables counting the stored frames. -/
theorem History.tablesHold {c : Collector} (t : History c) (hsub : ∀ p ∈ t.sites, p ∈ P) :
    c.TablesHold P := by
  induction t with
  | new => exact TablesHold.initial P _ _ _ _ _
  | start _ _ hs ih => exact (ih hsub).releases (start_releases hs)
  | stop prev unhooks ih =>
    rcases stop_fst _ unhooks with e | e <;> rw [e]
    · exact ih hsub
    · exact (ih hsub).of_eq rfl rfl rfl
  | configure _ _ hs ih =>
    rw [configure_eq_ok hs]
    exact (ih hsub).of_eq rfl rfl rfl
  | setSampleRate _ _ hs ih =>
    rw [setSampleRate_eq_ok hs]
    exact (ih hsub).of_eq rfl rfl rfl
  | setRetainRate _ _ hs ih =>
    rw [setRetainRate_eq_ok hs]
    exact (ih hsub).of_eq rfl rfl rfl
  | setMaxAllocationSamples _ _ ih => exact (ih hsub).of_eq rfl rfl rfl
  | setMaxHeapSamples _ _ ih => exact (ih hsub).of_eq rfl rfl rfl
  | setMethod _ _ ih => exact (ih hsub).of_eq rfl rfl rfl
  | relocate _ _ hs ih => exact (ih hsub).releases (relocate_releases hs)
  | flush _ _ _ hs ih => exact (ih hsub).releases (flush_releases hs)
  | events prev run ih =>
    exact run.tablesHold hP (fun p hp => hsub p (List.mem_append_right _ hp))
      (ih fun p hp => hsub p (List.mem_append_left _ hp))

end Runs

/-! ### The tables mirror the records held -/

namespace RecordStore

variable {s : RecordStore} {hs : List RecordId}

theorem mem_ids_iff {id : RecordId} : id ∈ s.ids ↔ s.get? id ≠ none := by
  simp [ids, get?, find?, List.find?_eq_none]

/-- A keyed store that counts the holders `hs` stores the records they hold, each once. -/
theorem Keyed.records_perm (hk : s.Keyed) (hc : s.Counts hs) :
    (s.entries.map (·.2.record)).Perm (hs.dedup.filterMap s.get?) := by
  -- The names in use are the holders, each once.
  have hids : s.ids.Perm hs.dedup := by
    refine (List.perm_ext_iff_of_nodup hk.nodup (List.nodup_dedup hs)).2 fun id => ?_
    rw [mem_ids_iff, List.mem_dedup, Ne, hc.get?_eq_none_iff, not_not]
  have hget : ∀ e ∈ s.entries, s.get? e.1 = some e.2.record := fun e he => by
    simp only [get?, find?, find?_key_of_mem Prod.fst hk.nodup he, Option.map_some]
  have hmap : s.entries.map (·.2.record) = s.ids.filterMap s.get? := by
    rw [ids, List.filterMap_map, ← List.filterMap_eq_map]
    exact List.filterMap_congr fun e he => (hget e he).symm
  rw [hmap]
  exact hids.filterMap _

theorem Keyed.frames_perm (hk : s.Keyed) (hc : s.Counts hs) :
    s.frames.Perm ((hs.dedup.filterMap s.get?).flatMap (·.backtrace)) := by
  have := (hk.records_perm hc).flatMap_right (·.backtrace)
  rwa [List.flatMap_map] at this

end RecordStore

/-- The texts of a location table's references are the vocabulary's, the functions' names and
the functions' files. -/
theorem LocationTable.count_texts (t : LocationTable) (s : String) :
    ((StringTable.pins ++ t.texts).map (·.text)).count s =
      (if s ∈ VocabWord.all.map VocabWord.text then 1 else 0) +
        (t.functions.map (·.value.name.text)).count s + (t.functions.map (·.value.file.text)).count s := by
  have hpins : StringTable.pins.map (·.text) = VocabWord.all.map VocabWord.text := by decide
  rw [List.map_append, List.count_append, StringTable.pins_texts_nodup.count, hpins, t.texts_count]
  omega

namespace Collector

/-- The records the ledger or the heap index holds, each once. -/
def heldRecords (c : Collector) : List SampleRecord := c.holdings.dedup.filterMap c.store.get?

/-- The frames of the backtraces of the records held, each record once. -/
def heldFrames (c : Collector) : List Location := c.heldRecords.flatMap (·.backtrace)

/-- The references to a text: one from the vocabulary if it is a word of it, and one from each
function of the location table named by it and one from each in a file named by it. -/
def textRefs (c : Collector) (s : String) : Nat :=
  (if s ∈ VocabWord.all.map VocabWord.text then 1 else 0) +
    (c.locations.functions.map (·.value.name.text)).count s +
    (c.locations.functions.map (·.value.file.text)).count s

/-- Every count of the three tables is the number of references to its entry, and an entry is
there exactly when that number is not zero.  A location is referred to by the frames at it of
the records held, a function by the frames in it, and a text by the vocabulary and the
functions.  So once the ledger and the heap index are empty, the tables are back to the
vocabulary alone. -/
structure TablesMirror (c : Collector) : Prop where
  /-- A location counts the frames at it. -/
  locations : ∀ L, c.locations.locationCount? L = present ((c.heldFrames.map (·.id)).count L)
  /-- A function counts the frames in it. -/
  functions : ∀ F, c.locations.functionCount? F =
    present ((c.heldFrames.map (·.function.id)).count F)
  /-- A text counts its references. -/
  strings : ∀ s, c.strings.refcount? s = present (c.textRefs s)
  /-- Nothing held, nothing interned but the vocabulary. -/
  empty : c.ledger.records = [] → c.heap.entries = [] →
    c.locations.locations = [] ∧ c.locations.functions = [] ∧
      ∀ s, c.strings.refcount? s = if s ∈ VocabWord.all.map VocabWord.text then some 1 else none

variable {P : Set (UInt64 × Int64)} {c : Collector}

/-- Tables that count the stored frames count the held ones, once every stored record is held
and every hold is in a container. -/
theorem TablesHold.tablesMirror (ht : c.TablesHold P) (ho : c.OwnedWith [] []) :
    c.TablesMirror := by
  have hc : c.store.Counts c.holdings := by simpa using ho.counts
  have hm : c.locations.Mirrors P c.strings StringTable.pins c.heldFrames := ht.mirrors.perm (ht.keyed.frames_perm hc)
  have hstrings : ∀ s, c.strings.refcount? s = present (c.textRefs s) := fun s => by
    rw [hm.strings.refcount s, LocationTable.count_texts]
    rfl
  refine ⟨hm.locations, hm.functions, hstrings, fun hl hh => ?_⟩
  have hnil : c.heldFrames = [] := by
    simp [heldFrames, heldRecords, holdings, hl, HeapIndex.records, hh, List.dedup_nil]
  rw [hnil] at hm
  have hfns := Tallies.eq_nil hm.functions
  refine ⟨Tallies.eq_nil hm.locations, hfns, fun s => ?_⟩
  rw [hstrings, textRefs, hfns]
  split <;> rfl

end Collector

/-- **The interning tables mirror the records held.**  If the location hash tells apart the
sites a history interned, then after it every location and every function counts the frames at
it, or in it, of the records the ledger or the heap index holds, and every text counts its
references from the vocabulary and the functions; an entry is there exactly when it has one. -/
theorem tables_mirror_held_records {c : Collector} (t : History c)
    (hfree : Set.InjOn (Function.uncurry locationId) {p | p ∈ t.sites}) : c.TablesMirror :=
  (t.tablesHold hfree fun _ hp => hp).tablesMirror (Collector.owned_invariant.holds t)

/-- After `sharedFrameHistory` the tables count the three frames held: the function three times
and the location of line `3`, in both stacks, twice. -/
theorem tables_mirror_after_shared_frames :
    ∃ (c : Collector) (t : History c), Set.InjOn (Function.uncurry locationId) {p | p ∈ t.sites} ∧
      c.heldFrames.length = 3 ∧ c.locations.functionCount? 5 = some 3 ∧
      c.locations.locationCount? (locationId 5 3) = some 2 ∧ c.TablesMirror :=
  ⟨_, sharedFrameHistory.2, sharedFrameHistory_injOn, by decide +kernel, by decide +kernel,
    by decide +kernel, tables_mirror_held_records _ sharedFrameHistory_injOn⟩

end HeapSampler
