import HeapSampler.Proofs.Interning
import HeapSampler.Proofs.Snapshot

/-!
# Held functions name live strings

A profile names a function's name and file by their positions in a list frozen from the string
table, and a reference has a position there when it is the table's live entry for its text
(`StringTable.Stamped.finds_of_isLive`).  This file proves that the references the records
hold are live: every frame of a stored record is a location of the table, every location of the
table lies in one of the table's functions, and the string table counts the name and the file
of every function (`LocationTable.Mirrors`), so each is the live entry for its text.  The words
of the vocabulary are counted, and so live, the same way.

Interning keeps the first two facts whatever the hash does.  Releasing needs the hash to tell
apart the sites of the locations: a function leaves the table when the last frame in it goes,
and a location that stays is counted by a frame that stays, whose site, and so whose function,
is the location's own.

## Main definitions

* `LocationTable.Resolves` — the frames are the table's locations, in the table's functions.
* `Collector.SiteInvariant` — a property that letting go of records keeps, and interning frames
  at sites of `P` keeps.
* `Collector.Resolved` — the tables count the stored frames and resolve them, and the string
  table is stamped.

## Main results

* `Collector.SiteInvariant.holds` — a site invariant holds after every history whose sites lie
  in `P`.
* `History.resolved` — every collector such a history reaches is resolved.
* `Collector.Resolved.isLive_function`, `Collector.Resolved.isLive_vocabulary` — the names and
  files of the functions of held frames, and the words of the vocabulary, are live.
-/

namespace HeapSampler

/-- A key that an entry of a tally carries is counted. -/
theorem Tallies.mem_of_mem {α : Type} {key : α → UInt64} {xs : List (Counted α)} {ks : List UInt64}
    (ht : Tallies key xs ks) {v : α} (hv : v ∈ xs.map (·.value)) : key v ∈ ks := by
  by_contra hk
  obtain ⟨x, hx, rfl⟩ := List.mem_map.1 hv
  have := List.find?_eq_none.1 ((ht.find?_eq_none_iff (key x.value)).2 hk) x hx
  simp at this

namespace LocationTable

variable {P : Set (UInt64 × Int64)} {t t' : LocationTable} {S S' : StringTable} {D : List Interned}
  {fs : List Location}

/-- The frames `fs` are locations of the table, and every location of the table lies in one of
the table's functions. -/
structure Resolves (t : LocationTable) (fs : List Location) : Prop where
  /-- A frame is one of the table's locations. -/
  frames : ∀ l ∈ fs, l ∈ t.locations.map (·.value)
  /-- A location's function is one of the table's functions. -/
  functions : ∀ l ∈ t.locations.map (·.value), l.function ∈ t.functions.map (·.value)

theorem resolves_empty : ({} : LocationTable).Resolves [] :=
  ⟨(fun _ h => by cases h), (fun _ h => by cases h)⟩

theorem Resolves.perm (hr : t.Resolves fs) {fs' : List Location} (hp : fs.Perm fs') :
    t.Resolves fs' :=
  ⟨fun l hl => hr.frames l (hp.symm.subset hl), hr.functions⟩

/-! ### Interning -/

theorem internFunction_locations (t : LocationTable) (S : StringTable) (f : Frame) :
    (t.internFunction S f).1.locations = t.locations := by
  unfold internFunction
  split <;> rfl

/-- The function half keeps every function and hands back one of the table's. -/
theorem internFunction_functions (t : LocationTable) (S : StringTable) (f : Frame) :
    t.functions.map (·.value) ⊆ (t.internFunction S f).1.functions.map (·.value) ∧
      (t.internFunction S f).2.2 ∈ (t.internFunction S f).1.functions.map (·.value) := by
  unfold internFunction
  cases hf : t.function? f.resolvedFunctionId with
  | some c =>
    have hv := values_map_count t.functions (·.value.id == f.resolvedFunctionId) (·.count + 1)
    simp only [bump]
    rw [hv]
    exact ⟨List.Subset.refl _, List.mem_map_of_mem (List.mem_of_find?_eq_some hf)⟩
  | none =>
    simp only [List.map_append, List.map_singleton]
    exact ⟨List.subset_append_left _ _, List.mem_append_right _ (List.mem_singleton_self _)⟩

/-- The location half keeps the functions and every location, and hands back one of the
table's; a location it adds lies in the function it was given. -/
theorem internLocation_locations (t : LocationTable) (fid : UInt64) (fn : FunctionInfo) (line : Int64) :
    (t.internLocation fid fn line).1.functions = t.functions ∧
      t.locations.map (·.value) ⊆ (t.internLocation fid fn line).1.locations.map (·.value) ∧
      (t.internLocation fid fn line).2 ∈ (t.internLocation fid fn line).1.locations.map (·.value) ∧
      ∀ l ∈ (t.internLocation fid fn line).1.locations.map (·.value),
        l ∈ t.locations.map (·.value) ∨ l.function = fn := by
  unfold internLocation
  cases hl : t.location? (locationId fid line) with
  | some c =>
    have hv := values_map_count t.locations (·.value.id == locationId fid line) (·.count + 1)
    refine ⟨rfl, ?_⟩
    simp only [bump]
    rw [hv]
    exact ⟨List.Subset.refl _, List.mem_map_of_mem (List.mem_of_find?_eq_some hl), fun l hl' => .inl hl'⟩
  | none =>
    refine ⟨rfl, ?_⟩
    simp only [List.map_append, List.map_singleton]
    refine ⟨List.subset_append_left _ _, List.mem_append_right _ (List.mem_singleton_self _),
      fun l hl' => ?_⟩
    rcases List.mem_append.1 hl' with hl' | hl'
    · exact .inl hl'
    · rw [List.mem_singleton.1 hl']
      exact .inr rfl

/-- Interning a frame hands back one of the table's locations and keeps the table resolved. -/
theorem Resolves.internFrame (hr : t.Resolves fs) (f : Frame) :
    (t.internFrame S f).1.Resolves (fs ++ [(t.internFrame S f).2.2]) := by
  obtain ⟨hfsub, hfmem⟩ := internFunction_functions t S f
  have hloc₁ := internFunction_locations t S f
  obtain ⟨hfun₂, hlsub, hlmem, hnew⟩ := internLocation_locations (t.internFunction S f).1
    f.resolvedFunctionId (t.internFunction S f).2.2 f.line
  rw [internFrame_eq]
  refine ⟨fun l hl => ?_, fun l hl => ?_⟩
  · rcases List.mem_append.1 hl with hl | hl
    · exact hlsub (hloc₁ ▸ hr.frames l hl)
    · rw [List.mem_singleton.1 hl]
      exact hlmem
  · rw [hfun₂]
    rcases hnew l hl with hl | hl
    · exact hfsub (hr.functions l (hloc₁ ▸ hl))
    · rw [hl]
      exact hfmem

/-- Interning a stack hands back the table's locations and keeps the table resolved. -/
theorem Resolves.intern (hr : t.Resolves fs) (frames : List Frame) :
    (t.intern S frames).1.Resolves (fs ++ (t.intern S frames).2.2) := by
  induction frames generalizing t S fs with
  | nil => simpa [LocationTable.intern] using hr
  | cons f frames ih =>
    rw [intern_cons]
    simpa [List.append_assoc] using ih (hr.internFrame f)

theorem internFunction_stamped (hS : S.Stamped) (t : LocationTable) (f : Frame) :
    (t.internFunction S f).2.1.Stamped := by
  unfold internFunction
  split
  · exact hS
  · exact (hS.intern _).intern _

theorem intern_stamped (hS : S.Stamped) (t : LocationTable) (frames : List Frame) :
    (t.intern S frames).2.1.Stamped := by
  induction frames generalizing t S with
  | nil => exact hS
  | cons f frames ih =>
    rw [intern_cons, internFrame_eq]
    exact ih (internFunction_stamped hS t f) _

/-! ### Releasing -/

/-- Releasing a location keeps the functions, and keeps only locations of the table. -/
theorem releaseLocation_eq_ok {id : UInt64} (h : t.releaseLocation id = .ok t') :
    t'.functions = t.functions ∧ t'.locations.map (·.value) ⊆ t.locations.map (·.value) := by
  unfold releaseLocation at h
  split at h
  · cases h
  · split at h <;> cases h
    · exact ⟨rfl, List.map_subset _ (List.filter_subset_self _)⟩
    · rw [values_map_count]
      exact ⟨rfl, List.Subset.refl _⟩

/-- Releasing a location keeps every location that a frame left still counts on. -/
theorem releaseLocation_keeps {id : UInt64} {ks : List UInt64}
    (ht : Tallies Location.id t.locations (id :: ks)) (h : t.releaseLocation id = .ok t')
    {l : Location} (hl : l ∈ t.locations.map (·.value)) (hk : l.id ∈ ks) :
    l ∈ t'.locations.map (·.value) := by
  obtain ⟨c, hc⟩ := ht.exists_find?
  have hc' : t.location? id = some c := hc
  unfold releaseLocation at h
  rw [hc'] at h
  dsimp only at h
  split at h <;> cases h
  · -- The entry goes with its last frame, so no frame left is at it.
    rename_i h1
    obtain ⟨hcount, -⟩ := ht.count_of_find? hc
    have hne : l.id ≠ id := by
      rintro rfl
      rw [List.count_cons_self] at hcount
      exact absurd (List.count_pos_iff.2 hk) (by omega)
    obtain ⟨x, hx, rfl⟩ := List.mem_map.1 hl
    exact List.mem_map_of_mem (List.mem_filter.2 ⟨hx, by simpa using hne⟩)
  · rw [values_map_count]
    exact hl

/-- Releasing a function keeps the locations, and what it does to the functions and the strings:
the function goes with its last frame, its name and then its file released, or loses a count. -/
theorem releaseFunction_eq_ok {id : UInt64} (h : t.releaseFunction S id = .ok (t', S')) :
    t'.locations = t.locations ∧ ∃ c, t.function? id = some c ∧
      ((c.count ≤ 1 ∧ t'.functions = t.functions.filter (·.value.id != id) ∧
          ∃ S₁, S.release c.value.name = .ok S₁ ∧ S₁.release c.value.file = .ok S') ∨
        (t'.functions.map (·.value) = t.functions.map (·.value) ∧ S' = S)) := by
  unfold releaseFunction at h
  cases hc : t.function? id with
  | none => rw [hc] at h; cases h
  | some c =>
    rw [hc] at h
    dsimp only at h
    split at h
    · rename_i h1
      simp only [bind, Except.bind, pure, Except.pure] at h
      cases h₁ : S.release c.value.name with
      | error e => rw [h₁] at h; cases h
      | ok S₁ =>
        rw [h₁] at h
        dsimp only at h
        cases h₂ : S₁.release c.value.file with
        | error e => rw [h₂] at h; cases h
        | ok S₂ =>
          rw [h₂] at h
          cases h
          exact ⟨rfl, c, rfl, .inl ⟨h1, rfl, S₁, h₁, h₂⟩⟩
    · cases h
      rw [values_map_count]
      exact ⟨rfl, c, rfl, .inr ⟨rfl, rfl⟩⟩

/-- Releasing a function keeps every function that a frame left still counts on. -/
theorem releaseFunction_keeps {id : UInt64} {ks : List UInt64}
    (ht : Tallies FunctionInfo.id t.functions (id :: ks)) (h : t.releaseFunction S id = .ok (t', S'))
    {fn : FunctionInfo} (hf : fn ∈ t.functions.map (·.value)) (hk : fn.id ∈ ks) :
    fn ∈ t'.functions.map (·.value) := by
  obtain ⟨-, c, hc, ⟨h1, hfun, -⟩ | ⟨hfun, -⟩⟩ := releaseFunction_eq_ok h
  · -- The function goes with its last frame, so no frame left is in it.
    obtain ⟨hcount, -⟩ := ht.count_of_find? hc
    have hne : fn.id ≠ id := by
      rintro rfl
      rw [List.count_cons_self] at hcount
      exact absurd (List.count_pos_iff.2 hk) (by omega)
    obtain ⟨x, hx, rfl⟩ := List.mem_map.1 hf
    rw [hfun]
    exact List.mem_map_of_mem (List.mem_filter.2 ⟨hx, by simpa using hne⟩)
  · rw [hfun]
    exact hf

theorem releaseFunction_stamped (hS : S.Stamped) {id : UInt64}
    (h : t.releaseFunction S id = .ok (t', S')) : S'.Stamped := by
  obtain ⟨-, c, -, ⟨-, -, S₁, h₁, h₂⟩ | ⟨-, rfl⟩⟩ := releaseFunction_eq_ok h
  · exact (hS.release h₁).release h₂
  · exact hS

theorem releaseOne_eq_ok {loc : Location} (h : t.releaseOne S loc = .ok (t', S')) :
    ∃ t₁, t.releaseLocation loc.id = .ok t₁ ∧ t₁.releaseFunction S loc.function.id = .ok (t', S') := by
  unfold releaseOne at h
  cases h₁ : t.releaseLocation loc.id with
  | error e => rw [h₁] at h; cases h
  | ok t₁ =>
    rw [h₁] at h
    exact ⟨t₁, rfl, h⟩

/-- Releasing one counted frame keeps the table resolved for the frames left: a location that
stays is counted by a frame left, at its own site, so in its own function. -/
theorem Resolves.releaseOne (hP : Set.InjOn (Function.uncurry locationId) P) {loc : Location}
    (hm : t.Mirrors P S D (loc :: fs)) (hr : t.Resolves (loc :: fs))
    (h : t.releaseOne S loc = .ok (t', S')) : t'.Resolves fs := by
  obtain ⟨t₁, h₁, h₂⟩ := releaseOne_eq_ok h
  obtain ⟨hfun₁, hsub₁⟩ := releaseLocation_eq_ok h₁
  have hloc₂ : t'.locations = t₁.locations := (releaseFunction_eq_ok h₂).1
  obtain ⟨t₀, h₀, -, htal, -⟩ := releaseLocation_spec hm.locations
  rw [h₁] at h₀
  cases h₀
  refine ⟨fun l hl => ?_, fun l hl => ?_⟩
  · rw [hloc₂]
    exact releaseLocation_keeps hm.locations h₁ (hr.frames l (List.mem_cons_of_mem _ hl))
      (List.mem_map_of_mem hl)
  · rw [hloc₂] at hl
    have hl₀ := hsub₁ hl
    -- A frame left is at the location, so at its site.
    obtain ⟨g, hg, hgid⟩ := List.mem_map.1 (htal.mem_of_mem hl)
    have hg₀ := hr.frames g (List.mem_cons_of_mem _ hg)
    obtain ⟨hgk, hgP⟩ := hm.keyed g hg₀
    obtain ⟨hlk, hlP⟩ := hm.keyed l hl₀
    have hsite : (g.function.id, g.line) = (l.function.id, l.line) :=
      hP hgP hlP (by rw [Function.uncurry_apply_pair, Function.uncurry_apply_pair, ← hgk, ← hlk, hgid])
    have hk : l.function.id ∈ fs.map (·.function.id) :=
      (Prod.mk.inj hsite).1 ▸ List.mem_map_of_mem hg
    exact releaseFunction_keeps (hfun₁ ▸ hm.functions) h₂ (hfun₁ ▸ hr.functions l hl₀) hk

/-- Releasing a backtrace whose frames the tables count keeps them resolved for the frames
left. -/
theorem Resolves.release (hP : Set.InjOn (Function.uncurry locationId) P)
    (hm : t.Mirrors P S D fs) (hr : t.Resolves fs) {rest bt : List Location}
    (hp : fs.Perm (rest ++ bt)) (h : t.release S bt = .ok (t', S')) : t'.Resolves rest := by
  -- Resolving the frames needs the tables to count them, so both go along the release.
  refine (release_induction (fun t S fs => t.Mirrors P S D fs ∧ t.Resolves fs) ?_ ?_ hp
    ⟨hm, hr⟩ h).2
  · rintro t S fs fs' hp ⟨hm, hr⟩
    exact ⟨hm.perm hp, hr.perm hp⟩
  · rintro t S t₁ S₁ loc fs ⟨hm, hr⟩ h₁
    exact ⟨hm.of_releaseOne h₁, hr.releaseOne hP hm h₁⟩

theorem release_stamped (hS : S.Stamped) {bt : List Location} (h : t.release S bt = .ok (t', S')) :
    S'.Stamped := by
  refine release_induction (fun _ S _ => S.Stamped) (fun _ hS => hS) ?_
    (List.Perm.refl ([] ++ bt)) hS h
  intro t S t₁ S₁ loc fs hS h₁
  obtain ⟨t₂, -, h₂⟩ := releaseOne_eq_ok h₁
  exact releaseFunction_stamped hS h₂

end LocationTable

/-- The frames of a stored record are stored frames. -/
theorem RecordStore.mem_frames {s : RecordStore} {id : RecordId} {r : SampleRecord}
    (hr : s.get? id = some r) {l : Location} (hl : l ∈ r.backtrace) : l ∈ s.frames := by
  obtain ⟨e, he, rfl⟩ := Option.map_eq_some_iff.1 hr
  obtain ⟨p, hp, rfl⟩ := Option.map_eq_some_iff.1 he
  exact List.mem_flatMap.2 ⟨p, List.mem_of_find?_eq_some hp, hl⟩

/-! ### Properties kept by letting go and by interning at sites of `P` -/

namespace Collector

variable {P : Set (UInt64 × Int64)} {Q : Collector → Prop}

/-- A property of collectors that every new one has, that only the store and the tables decide,
that letting go of a record and changing one keep, and that a new record whose frames lie at
sites of `P` keeps. -/
structure SiteInvariant (P : Set (UInt64 × Int64)) (Q : Collector → Prop) : Prop where
  /-- A new collector has it. -/
  initial : ∀ sampleRate retainRate method maxAllocs maxHeap,
    Q (Collector.initial sampleRate retainRate method maxAllocs maxHeap)
  /-- Only the store and the tables decide it. -/
  keep : ∀ {c c' : Collector}, Q c → c'.store = c.store → c'.locations = c.locations →
    c'.strings = c.strings → Q c'
  /-- Changing a record without touching its backtrace keeps it. -/
  update : ∀ {c : Collector} (id : RecordId) (f : SampleRecord → SampleRecord),
    (∀ r, (f r).backtrace = r.backtrace) → Q c → Q { c with store := c.store.update id f }
  /-- Letting go of a record keeps it. -/
  release : ∀ {c c' : Collector} {id : RecordId}, Q c → c.release id = .ok c' → Q c'
  /-- A new record whose frames lie at sites of `P` keeps it. -/
  enroll : ∀ {c : Collector} {frames : List Frame}, Q c → (∀ f ∈ frames, f.site ∈ P) →
    ∀ h size, Q (c.enroll h size frames)

namespace SiteInvariant

variable (hQ : SiteInvariant P Q)
include hQ

theorem releases {c c' : Collector} (h : Releases c c') (hc : Q c) : Q c' := by
  induction h with
  | refl => exact hc
  | tail _ hs ih =>
    cases hs with
    | keep hs hl ht => exact hQ.keep ih hs hl ht
    | update id f hf hs hl ht => exact hQ.keep (hQ.update id f hf ih) hs hl ht
    | release id h => exact hQ.release ih h

theorem finishAlloc {c c' : Collector} {h size : UInt64} {frames : List Frame}
    (hs : c.checkRoom.2 = true → ∀ f ∈ frames, f.site ∈ P)
    (hf : c.finishAlloc h size frames = .ok c') (hc : Q c) : Q c' := by
  rcases finishAlloc_eq_ok hf with ⟨-, rfl⟩ | ⟨hroom, hm⟩
  · have e := checkRoom_fst c
    exact hQ.keep hc (by rw [e]) (by rw [e]) (by rw [e])
  · have he := hQ.enroll hc (hs (by rw [hroom])) h size
    -- The record pushed out of the heap index, if any, loses its handle and is let go of.
    cases hg : c.heap.get? h with
    | none =>
      rw [hg] at hm
      rw [hm]
      exact he
    | some old =>
      rw [hg] at hm
      exact hQ.releases ((Releases.update _ old SampleRecord.clearHandle fun _ => rfl).trans
        (.release hm)) he

/-- A run of events whose interned sites lie in `P` keeps a site invariant. -/
theorem run {d : Nat} {c c' : Collector} (r : EventRun d c c') (hsub : ∀ p ∈ r.sites, p ∈ P)
    (hc : Q c) : Q c' := by
  induction r with
  | nil => exact hc
  | free _ he _ ih => exact ih hsub (hQ.releases (evict_releases he) hc)
  | ret _ _ hr _ ih => exact ih hsub (hQ.releases (onReturn_releases hr) hc)
  | alloc _ _ hb _ ih => exact ih hsub (hQ.releases (beginAlloc_releases hb) hc)
  | allocFailed _ _ _ hb _ _ ihn ih =>
    simp only [EventRun.sites, List.mem_append] at hsub
    exact ih (fun p hp => hsub p (.inr hp))
      (ihn (fun p hp => hsub p (.inl hp)) (hQ.releases (beginAlloc_releases hb) hc))
  | @allocCaptured _ _ _ c₂ _ _ _ _ _ _ frames hb _ hf _ ihn ih =>
    simp only [EventRun.sites, List.mem_append] at hsub
    have hc₂ := ihn (fun p hp => hsub p (.inl (.inl hp))) (hQ.releases (beginAlloc_releases hb) hc)
    -- The captured frames are interned only when there is still room.
    have hs : c₂.checkRoom.2 = true → ∀ f ∈ frames, f.site ∈ P := fun hroom f hf =>
      hsub f.site (.inl (.inr (by rw [if_pos hroom]; exact List.mem_map_of_mem hf)))
    exact ih (fun p hp => hsub p (.inr hp)) (hQ.finishAlloc hs hf hc₂)

/-- A site invariant holds after every history whose interned sites lie in `P`. -/
theorem holds {c : Collector} (t : History c) (hsub : ∀ p ∈ t.sites, p ∈ P) : Q c := by
  induction t with
  | new => exact hQ.initial _ _ _ _ _
  | start _ _ hs ih => exact hQ.releases (start_releases hs) (ih hsub)
  | stop prev unhooks ih =>
    rcases stop_fst _ unhooks with e | e <;> rw [e]
    · exact ih hsub
    · exact hQ.keep (ih hsub) rfl rfl rfl
  | configure _ _ hs ih =>
    rw [configure_eq_ok hs]
    exact hQ.keep (ih hsub) rfl rfl rfl
  | setSampleRate _ _ hs ih =>
    rw [setSampleRate_eq_ok hs]
    exact hQ.keep (ih hsub) rfl rfl rfl
  | setRetainRate _ _ hs ih =>
    rw [setRetainRate_eq_ok hs]
    exact hQ.keep (ih hsub) rfl rfl rfl
  | setMaxAllocationSamples _ _ ih => exact hQ.keep (ih hsub) rfl rfl rfl
  | setMaxHeapSamples _ _ ih => exact hQ.keep (ih hsub) rfl rfl rfl
  | setMethod _ _ ih => exact hQ.keep (ih hsub) rfl rfl rfl
  | relocate _ _ hs ih => exact hQ.releases (relocate_releases hs) (ih hsub)
  | flush _ _ _ hs ih => exact hQ.releases (flush_releases hs) (ih hsub)
  | events prev run ih =>
    exact hQ.run run (fun p hp => hsub p (List.mem_append_right _ hp))
      (ih fun p hp => hsub p (List.mem_append_left _ hp))

end SiteInvariant

/-! ### Resolved collectors -/

/-- The tables of `c` count the frames of its stored records at sites of `P`, every such frame
is a location of the table in a function of the table, and the string table is stamped. -/
structure Resolved (P : Set (UInt64 × Int64)) (c : Collector) : Prop where
  /-- The tables count the stored frames. -/
  tables : c.TablesHold P
  /-- The stored frames resolve through the location table. -/
  resolves : c.locations.Resolves c.store.frames
  /-- The string table is stamped. -/
  stamped : c.strings.Stamped

namespace Resolved

variable {c c' : Collector}

/-- Letting go of the last hold on a record releases its frames, which keeps the rest resolved. -/
theorem release (hP : Set.InjOn (Function.uncurry locationId) P) (hc : c.Resolved P) {id : RecordId}
    (h : c.release id = .ok c') : c'.Resolved P := by
  have ht := hc.tables.release h
  obtain ⟨-, hp⟩ := hc.tables.keyed.release id
  unfold Collector.release at h
  cases hr : c.store.release id with
  | mk store gone =>
    rw [hr] at h hp
    cases gone with
    | none =>
      cases h
      exact ⟨ht, hc.resolves.perm (by simpa using hp), hc.stamped⟩
    | some r =>
      simp only [Option.map_some, Option.getD_some] at hp
      cases hrel : c.locations.release c.strings r.backtrace with
      | error e => simp [hrel, bind, Except.bind] at h
      | ok p =>
        simp only [hrel, bind, Except.bind, pure, Except.pure, Except.ok.injEq] at h
        subst h
        exact ⟨ht, hc.resolves.release hP hc.tables.mirrors hp hrel,
          LocationTable.release_stamped hc.stamped hrel⟩

theorem enroll (hP : Set.InjOn (Function.uncurry locationId) P) (hc : c.Resolved P)
    {frames : List Frame} (hf : ∀ f ∈ frames, f.site ∈ P) (h size : UInt64) :
    (c.enroll h size frames).Resolved P := by
  refine ⟨hc.tables.enroll hP hf h size, ?_, ?_⟩
  · rw [enroll_locations, enroll_store, RecordStore.frames_add]
    exact hc.resolves.intern frames
  · rw [enroll_strings]
    exact LocationTable.intern_stamped hc.stamped _ _

end Resolved

/-- Being resolved is a site invariant, when the hash tells apart the sites of `P`. -/
theorem resolved_siteInvariant (hP : Set.InjOn (Function.uncurry locationId) P) :
    SiteInvariant P (Resolved P) where
  initial _ _ _ _ _ := ⟨TablesHold.initial P _ _ _ _ _, LocationTable.resolves_empty,
    StringTable.stamped_new⟩
  keep hc hs hl ht := ⟨hc.tables.of_eq hs hl ht, by rw [hs, hl]; exact hc.resolves,
    by rw [ht]; exact hc.stamped⟩
  update id f hf hc := ⟨⟨hc.tables.keyed.update id f, by
      rw [RecordStore.frames_update _ _ hf]; exact hc.tables.mirrors⟩,
    by rw [RecordStore.frames_update _ _ hf]; exact hc.resolves, hc.stamped⟩
  release hc h := hc.release hP h
  enroll hc hf h size := hc.enroll hP hf h size

/-! ### The references held are live -/

namespace Resolved

variable {c : Collector}

/-- The name and the file of the function of a frame of a stored record are live. -/
theorem isLive_function (hc : c.Resolved P) {id : RecordId} {r : SampleRecord}
    (hr : c.store.get? id = some r) {l : Location} (hl : l ∈ r.backtrace) :
    c.strings.IsLive l.function.name ∧ c.strings.IsLive l.function.file := by
  have hfn := hc.resolves.functions l (hc.resolves.frames l (RecordStore.mem_frames hr hl))
  -- The string table counts the name and the file of every function of the location table.
  have hmem : ∀ x ∈ [l.function.name, l.function.file], x ∈ StringTable.pins ++ c.locations.texts :=
    fun x hx => List.mem_append_right _ (List.mem_flatMap.2 ⟨l.function, hfn, hx⟩)
  exact ⟨hc.tables.mirrors.strings.stamp _ (hmem _ (by simp)),
    hc.tables.mirrors.strings.stamp _ (hmem _ (by simp))⟩

/-- The words of the vocabulary are live. -/
theorem isLive_vocabulary (hc : c.Resolved P) (w : VocabWord) :
    c.strings.IsLive (c.strings.vocabulary w) := by
  rw [hc.stamped.vocabulary]
  exact hc.tables.mirrors.strings.stamp _
    (List.mem_append_left _ (List.mem_map_of_mem (VocabWord.mem_all w)))

/-- A live reference is listed in the frozen list, at its own text. -/
theorem finds_of_isLive (hc : c.Resolved P) {r : Interned} (hr : c.strings.IsLive r) :
    c.strings.snapshot.Finds r :=
  hc.stamped.finds_of_isLive (hc.isLive_vocabulary .empty) hr

end Resolved

end Collector

/-- Every collector that a history reaches is resolved, if the location hash tells apart the
sites the history interned. -/
theorem History.resolved {c : Collector} (t : History c)
    (hfree : Set.InjOn (Function.uncurry locationId) {p | p ∈ t.sites}) :
    c.Resolved {p | p ∈ t.sites} :=
  (Collector.resolved_siteInvariant hfree).holds t fun _ hp => hp

end HeapSampler
