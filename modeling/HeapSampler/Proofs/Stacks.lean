import HeapSampler.Proofs.Liveness

/-!
# Interned stacks and the references they hold

A location table and a string table are driven by a sequence of calls: stacks of frames are
interned and the backtraces handed back are released, each at most once, and between them texts
are interned and released directly in the string table.  `LocationTable.Run` is such a sequence,
with what it holds: the backtraces interned and not yet released, each with the frames it came
from, the references to texts taken directly (the vocabulary's first), and, for each function id,
the frame that made the function.  A frame makes the function of its id when no frame held is in
that function; otherwise it shares the one there.

Locations are found by an id hashed from a function id and a line, so the results assume that the
hash tells apart the sites of the frames interned: every site lies in a set `P` on which it is
injective.  Under that assumption every state of a run is accounted for
(`LocationTable.Accounts`): each interned frame lies in the function its frame resolves to, at
the frame's line; two frames held are one location exactly when they are at one site, and share
one function exactly when their function ids agree; a function keeps the name, the file and the
first line of the frame that made it; the tables count one reference per frame held on its
location and on its function, and on a text one per reference taken directly and one per
function held named by it or in a file named by it; and every backtrace held and every reference
taken directly can be released.

## Main definitions

* `Frame.InternsTo`, `FunctionInfo.MadeBy`.
* `LocationTable.adopt` — the frame that made each function.
* `LocationTable.Counts` — what the tables keep, frame by frame.
* `LocationTable.Run`, `LocationTable.Accounts`.

## Main results

* `LocationTable.Counts.intern`, `LocationTable.Counts.release` — interning a stack and releasing
  a backtrace keep `Counts`.
* `LocationTable.Run.accounts` — every state of a run is accounted for.
-/

namespace HeapSampler

/-- What an interned location keeps of the frame it came from: it lies in the function the frame
resolves to (the frame's own id, or the one hashed from its name, file and first line), at the
frame's line, and its id is the hash of that site. -/
def Frame.InternsTo (f : Frame) (l : Location) : Prop :=
  l.function.id = f.resolvedFunctionId ∧ l.line = f.line ∧
    l.id = locationId f.resolvedFunctionId f.line

/-- The function keeps the id, the name, the file and the first line of the frame `f`. -/
def FunctionInfo.MadeBy (fn : FunctionInfo) (f : Frame) : Prop :=
  fn.id = f.resolvedFunctionId ∧ fn.name.text = f.name ∧ fn.file.text = f.file ∧
    fn.startLine = f.startLine

namespace LocationTable

variable {P : Set (UInt64 × Int64)} {t t' : LocationTable} {S S' : StringTable}
  {D : List Interned} {fs : List Location} {mk : UInt64 → Option Frame}

/-! ### The frame that made each function -/

/-- The frame that made each function once `f` is interned while frames in the functions `ids`
are held: `f` makes the function of its id when no frame held is in it. -/
def adoptFrame (mk : UInt64 → Option Frame) (ids : List UInt64) (f : Frame) :
    UInt64 → Option Frame :=
  if f.resolvedFunctionId ∈ ids then mk else Function.update mk f.resolvedFunctionId (some f)

/-- The frame that made each function once the stack `frames` is interned, frame by frame. -/
def adopt (mk : UInt64 → Option Frame) (ids : List UInt64) : List Frame → UInt64 → Option Frame
  | [] => mk
  | f :: frames => adopt (adoptFrame mk ids f) (ids ++ [f.resolvedFunctionId]) frames

/-! ### What the tables keep -/

/-- The tables count the frames `fs` and the references `D` (`Mirrors`), the frames are the
table's locations in the table's functions (`Resolves`), no two locations share an id, and every
function was made by the frame `mk` names for its id. -/
structure Counts (P : Set (UInt64 × Int64)) (t : LocationTable) (S : StringTable)
    (D : List Interned) (fs : List Location) (mk : UInt64 → Option Frame) : Prop where
  /-- The tables count the frames and the references. -/
  mirrors : t.Mirrors P S D fs
  /-- The frames are the table's locations, in its functions. -/
  resolves : t.Resolves fs
  /-- No two locations share an id. -/
  locations_nodup : ((t.locations.map (·.value)).map (·.id)).Nodup
  /-- Every function was made by the frame named for its id. -/
  made : ∀ fn ∈ t.functions.map (·.value), ∃ f, mk fn.id = some f ∧ fn.MadeBy f

theorem Counts.perm (hc : t.Counts P S D fs mk) {fs' : List Location} (hp : fs.Perm fs') :
    t.Counts P S D fs' mk :=
  { hc with mirrors := hc.mirrors.perm hp, resolves := hc.resolves.perm hp }

/-! ### Interning -/

/-- The location half hands back a location keyed by the site it was asked for. -/
theorem internLocation_id (t : LocationTable) (fid : UInt64) (fn : FunctionInfo) (line : Int64) :
    (t.internLocation fid fn line).2.id = locationId fid line := by
  unfold internLocation
  cases hl : t.location? (locationId fid line) with
  | some c => exact key_of_find? (fun c : Counted Location => c.value.id) hl
  | none => rfl

/-- The location half keeps the ids of the locations apart. -/
theorem internLocation_nodup (hn : ((t.locations.map (·.value)).map (·.id)).Nodup) (fid : UInt64)
    (fn : FunctionInfo) (line : Int64) :
    (((t.internLocation fid fn line).1.locations.map (·.value)).map (·.id)).Nodup := by
  unfold internLocation
  cases hl : t.location? (locationId fid line) with
  | some c =>
    simp only [bump]
    rw [values_map_count]
    exact hn
  | none =>
    refine nodup_push Location.id hn ?_
    exact hl

/-- The function half of interning `f`, while the frames held are in the functions `ks`, leaves
every function made by the frame `adoptFrame` names for its id. -/
theorem internFunction_made {ks : List UInt64} (ht : Tallies FunctionInfo.id t.functions ks)
    (hmade : ∀ fn ∈ t.functions.map (·.value), ∃ g, mk fn.id = some g ∧ fn.MadeBy g) (f : Frame) :
    ∀ fn ∈ (t.internFunction S f).1.functions.map (·.value),
      ∃ g, adoptFrame mk ks f fn.id = some g ∧ fn.MadeBy g := by
  unfold internFunction adoptFrame
  cases hf : t.function? f.resolvedFunctionId with
  | some c =>
    -- A frame held is in the function already there, which stays as it was.
    have hk : f.resolvedFunctionId ∈ ks := by
      by_contra hk
      have : t.function? f.resolvedFunctionId = none := (ht.find?_eq_none_iff _).2 hk
      rw [hf] at this
      cases this
    rw [if_pos hk]
    simp only [bump]
    rw [values_map_count]
    exact hmade
  | none =>
    -- No frame held is in a function of the id, so `f` makes it.
    have hk : f.resolvedFunctionId ∉ ks := (ht.find?_eq_none_iff _).1 hf
    rw [if_neg hk]
    rcases h₁ : S.intern f.name with ⟨S₁, name⟩
    have hname : name.text = f.name := by rw [← S.intern_text f.name, h₁]
    intro fn hfn
    simp only [List.map_append, List.map_singleton, List.mem_append, List.mem_singleton] at hfn
    rcases hfn with hfn | rfl
    · have hne : fn.id ≠ f.resolvedFunctionId := by
        intro he
        obtain ⟨c, hc, rfl⟩ := List.mem_map.1 hfn
        exact absurd (List.find?_eq_none.1 hf c hc) (by simp [he])
      rw [Function.update_of_ne hne]
      exact hmade fn hfn
    · exact ⟨f, Function.update_self _ _ _, rfl, hname, S₁.intern_text f.file, rfl⟩

/-- Interning a frame at a site of `P` keeps `Counts`, with the frame counted and the makers as
`adoptFrame` says, and hands back a location at the frame's site. -/
theorem Counts.internFrame (hc : t.Counts P S D fs mk)
    (hP : Set.InjOn (Function.uncurry locationId) P) {f : Frame} (hf : f.site ∈ P) :
    (t.internFrame S f).1.Counts P (t.internFrame S f).2.1 D (fs ++ [(t.internFrame S f).2.2])
      (adoptFrame mk (fs.map (·.function.id)) f) ∧ f.InternsTo (t.internFrame S f).2.2 := by
  have hm := hc.mirrors.internFrame hP hf
  have hr := hc.resolves.internFrame (S := S) f
  -- The location handed back is keyed by its own site and by the frame's: the two agree.
  have hid : (t.internFrame S f).2.2.id = locationId f.resolvedFunctionId f.line := by
    rw [internFrame_eq]
    exact internLocation_id _ _ _ _
  obtain ⟨hkey, hsite⟩ :=
    hm.keyed _ (hr.frames _ (List.mem_append_right _ (List.mem_singleton_self _)))
  have hsame : _ = f.site := hP hsite hf (by
    rw [Frame.site, Function.uncurry_apply_pair, Function.uncurry_apply_pair, ← hkey, hid])
  simp only [Frame.site, Prod.mk.injEq] at hsame
  refine ⟨⟨hm, hr, ?_, ?_⟩, hsame.1, hsame.2, hid⟩
  · rw [internFrame_eq]
    exact internLocation_nodup (by rw [internFunction_locations]; exact hc.locations_nodup) _ _ _
  · rw [internFrame_eq]
    dsimp only
    rw [(internLocation_locations _ _ _ _).1]
    exact internFunction_made hc.mirrors.functions hc.made f

/-- Interning a stack of frames at sites of `P` keeps `Counts`, with its frames counted and the
makers as `adopt` says, and hands back a backtrace interned from the frames. -/
theorem Counts.intern (hc : t.Counts P S D fs mk) (hP : Set.InjOn (Function.uncurry locationId) P)
    {frames : List Frame} (hf : ∀ f ∈ frames, f.site ∈ P) :
    (t.intern S frames).1.Counts P (t.intern S frames).2.1 D (fs ++ (t.intern S frames).2.2)
        (adopt mk (fs.map (·.function.id)) frames) ∧
      List.Forall₂ Frame.InternsTo frames (t.intern S frames).2.2 := by
  induction frames generalizing t S fs mk with
  | nil => exact ⟨by simpa [LocationTable.intern, adopt] using hc, .nil⟩
  | cons f frames ih =>
    obtain ⟨hc₁, hi⟩ := hc.internFrame hP (hf f List.mem_cons_self)
    obtain ⟨hc₂, hall⟩ := ih hc₁ fun g hg => hf g (List.mem_cons_of_mem f hg)
    -- The frame just interned is in the function its frame resolves to.
    have hids : (fs ++ [(t.internFrame S f).2.2]).map (·.function.id) =
        fs.map (·.function.id) ++ [f.resolvedFunctionId] := by
      rw [List.map_append, List.map_singleton, hi.1]
    rw [hids] at hc₂
    rw [intern_cons]
    exact ⟨by simpa [adopt, List.append_assoc] using hc₂, .cons hi hall⟩

/-! ### Releasing -/

/-- Releasing a location keeps some of the locations, in order. -/
theorem releaseLocation_sublist {id : UInt64} (h : t.releaseLocation id = .ok t') :
    (t'.locations.map (·.value)).Sublist (t.locations.map (·.value)) := by
  unfold releaseLocation at h
  split at h
  · cases h
  · split at h <;> cases h
    · exact List.filter_sublist.map _
    · rw [values_map_count]

/-- Releasing a frame keeps the ids of the locations apart. -/
theorem releaseOne_nodup {loc : Location} (h : t.releaseOne S loc = .ok (t', S'))
    (hn : ((t.locations.map (·.value)).map (·.id)).Nodup) :
    ((t'.locations.map (·.value)).map (·.id)).Nodup := by
  obtain ⟨t₁, h₁, h₂⟩ := releaseOne_eq_ok h
  rw [(releaseFunction_eq_ok h₂).1]
  exact hn.sublist ((releaseLocation_sublist h₁).map _)

/-- Releasing a frame keeps only functions of the table. -/
theorem releaseOne_functions {loc : Location} (h : t.releaseOne S loc = .ok (t', S')) :
    t'.functions.map (·.value) ⊆ t.functions.map (·.value) := by
  obtain ⟨t₁, h₁, h₂⟩ := releaseOne_eq_ok h
  obtain ⟨hfun₁, -⟩ := releaseLocation_eq_ok h₁
  obtain ⟨-, c, -, ⟨-, hfun, -⟩ | ⟨hfun, -⟩⟩ := releaseFunction_eq_ok h₂
  · rw [hfun, ← hfun₁]
    exact List.map_subset _ (List.filter_subset_self _)
  · rw [hfun]
    exact hfun₁ ▸ List.Subset.refl _

/-- Releasing a frame that `Counts` counts keeps it for the frames left. -/
theorem Counts.releaseOne (hc : t.Counts P S D (loc :: fs) mk)
    (hP : Set.InjOn (Function.uncurry locationId) P) (h : t.releaseOne S loc = .ok (t', S')) :
    t'.Counts P S' D fs mk :=
  ⟨hc.mirrors.of_releaseOne h, hc.resolves.releaseOne hP hc.mirrors h,
    releaseOne_nodup h hc.locations_nodup, fun fn hfn => hc.made fn (releaseOne_functions h hfn)⟩

/-- Releasing a backtrace whose frames `Counts` counts keeps it for the frames left. -/
theorem Counts.release (hc : t.Counts P S D fs mk) (hP : Set.InjOn (Function.uncurry locationId) P)
    {rest bt : List Location} (hp : fs.Perm (rest ++ bt)) (h : t.release S bt = .ok (t', S')) :
    t'.Counts P S' D rest mk :=
  release_induction (fun t S fs => t.Counts P S D fs mk) (fun hp hc => hc.perm hp)
    (fun hc h₁ => hc.releaseOne hP h₁) hp hc h

/-! ### Texts interned and released directly -/

/-- Interning a text directly adds the reference it hands out to those taken directly. -/
theorem Mirrors.internText (hm : t.Mirrors P S D fs) (s : String) :
    t.Mirrors P (S.intern s).1 (D ++ [(S.intern s).2]) fs :=
  { hm with
    strings := (hm.strings.intern s).1.perm (by
      simp only [List.append_assoc]
      exact List.perm_append_comm.append_left D) }

/-- Releasing a reference taken directly succeeds and takes it out. -/
theorem Mirrors.releaseText (hm : t.Mirrors P S D fs) {r : Interned} (hr : r ∈ D) :
    ∃ S', S.release r = .ok S' ∧ t.Mirrors P S' (D.erase r) fs := by
  obtain ⟨S', h, hs⟩ := hm.strings.release (List.mem_append_left _ hr)
  rw [List.erase_append_left _ hr] at hs
  exact ⟨S', h, { hm with strings := hs }⟩

theorem Counts.internText (hc : t.Counts P S D fs mk) (s : String) :
    t.Counts P (S.intern s).1 (D ++ [(S.intern s).2]) fs mk :=
  { hc with mirrors := hc.mirrors.internText s }

theorem Counts.releaseText (hc : t.Counts P S D fs mk) {r : Interned} (hr : r ∈ D)
    (h : S.release r = .ok S') : t.Counts P S' (D.erase r) fs mk := by
  obtain ⟨S₁, h₁, hm⟩ := hc.mirrors.releaseText hr
  rw [h, Except.ok.injEq] at h₁
  subst h₁
  exact { hc with mirrors := hm }

/-! ### What the tables answer -/

/-- Two frames at one site are one location. -/
theorem Counts.eq_of_site (hc : t.Counts P S D fs mk) {l₁ l₂ : Location} (h₁ : l₁ ∈ fs)
    (h₂ : l₂ ∈ fs) (hs : (l₁.function.id, l₁.line) = (l₂.function.id, l₂.line)) : l₁ = l₂ := by
  have hm₁ := hc.resolves.frames l₁ h₁
  have hm₂ := hc.resolves.frames l₂ h₂
  obtain ⟨hf, hl⟩ := Prod.mk.inj hs
  have hid : l₁.id = l₂.id := by
    rw [(hc.mirrors.keyed l₁ hm₁).1, (hc.mirrors.keyed l₂ hm₂).1, hf, hl]
  exact List.inj_on_of_nodup_map hc.locations_nodup hm₁ hm₂ hid

/-- The function of a frame is one of the table's. -/
theorem Counts.function_mem (hc : t.Counts P S D fs mk) {l : Location} (hl : l ∈ fs) :
    l.function ∈ t.functions.map (·.value) :=
  hc.resolves.functions _ (hc.resolves.frames l hl)

/-- Two frames in functions of one id are in one function. -/
theorem Counts.function_eq (hc : t.Counts P S D fs mk) {l₁ l₂ : Location} (h₁ : l₁ ∈ fs)
    (h₂ : l₂ ∈ fs) (hid : l₁.function.id = l₂.function.id) : l₁.function = l₂.function :=
  List.inj_on_of_nodup_map hc.mirrors.functions_nodup (hc.function_mem h₁) (hc.function_mem h₂) hid

/-- The functions of the table are those of the frames, each once. -/
theorem Counts.functions_perm (hc : t.Counts P S D fs mk) :
    (t.functions.map (·.value)).Perm (fs.map (·.function)).dedup := by
  refine (List.perm_ext_iff_of_nodup (hc.mirrors.functions_nodup.of_map _)
    (List.nodup_dedup _)).2 fun fn => ?_
  rw [List.mem_dedup]
  constructor
  · -- A function of the table counts a frame, which lies in it.
    intro hfn
    obtain ⟨l, hl, hid⟩ := List.mem_map.1 (hc.mirrors.functions.mem_of_mem hfn)
    rw [← List.inj_on_of_nodup_map hc.mirrors.functions_nodup (hc.function_mem hl) hfn hid]
    exact List.mem_map_of_mem hl
  · intro hfn
    obtain ⟨l, hl, rfl⟩ := List.mem_map.1 hfn
    exact hc.function_mem hl

/-- A text is counted once for each reference to it taken directly, and once for each function
of the frames named by it and once for each in a file named by it. -/
theorem Counts.refcount (hc : t.Counts P S D fs mk) (s : String) :
    S.refcount? s = present ((D.map (·.text)).count s +
      ((fs.map (·.function)).dedup.map (·.name.text)).count s +
      ((fs.map (·.function)).dedup.map (·.file.text)).count s) := by
  have hname : (t.functions.map (·.value.name.text)).count s =
      ((fs.map (·.function)).dedup.map (·.name.text)).count s := by
    rw [← (hc.functions_perm.map (·.name.text)).count_eq, List.map_map]
    rfl
  have hfile : (t.functions.map (·.value.file.text)).count s =
      ((fs.map (·.function)).dedup.map (·.file.text)).count s := by
    rw [← (hc.functions_perm.map (·.file.text)).count_eq, List.map_map]
    rfl
  rw [hc.mirrors.strings.refcount s, List.map_append, List.count_append, texts_count, hname, hfile,
    Nat.add_assoc]

/-! ### Runs -/

/-- The frames of the backtraces held. -/
def liveFrames (live : List (List Frame × Backtrace)) : List Location := live.flatMap (·.2)

/-- The function ids the frames of the stacks held resolve to. -/
def liveIds (live : List (List Frame × Backtrace)) : List UInt64 :=
  (live.flatMap (·.1)).map Frame.resolvedFunctionId

/-- The functions of the frames held, each once. -/
def liveFunctions (live : List (List Frame × Backtrace)) : List FunctionInfo :=
  ((liveFrames live).map (·.function)).dedup

/-- A run of calls on a location table and a string table from new ones, with the backtraces it
holds (each with the stack it was interned from), the references to texts it took directly, and
the frame that made each function.  Every frame interned is at a site of `P`. -/
inductive Run (P : Set (UInt64 × Int64)) : LocationTable → StringTable →
    List (List Frame × Backtrace) → List Interned → (UInt64 → Option Frame) → Prop
  /-- New tables: nothing held but the vocabulary. -/
  | new : Run P {} .new [] StringTable.pins fun _ => none
  /-- A stack is interned and its backtrace held. -/
  | intern {t : LocationTable} {S : StringTable} {live : List (List Frame × Backtrace)}
      {D : List Interned} {mk : UInt64 → Option Frame} (frames : List Frame) :
      Run P t S live D mk → (∀ f ∈ frames, f.site ∈ P) →
      Run P (t.intern S frames).1 (t.intern S frames).2.1
        (live ++ [(frames, (t.intern S frames).2.2)]) D (adopt mk (liveIds live) frames)
  /-- A backtrace held is released, once, and the release goes through. -/
  | release {t t' : LocationTable} {S S' : StringTable} {live : List (List Frame × Backtrace)}
      {D : List Interned} {mk : UInt64 → Option Frame} {p : List Frame × Backtrace} :
      Run P t S live D mk → p ∈ live → t.release S p.2 = .ok (t', S') →
      Run P t' S' (live.erase p) D mk
  /-- A text is interned directly. -/
  | internText {t : LocationTable} {S : StringTable} {live : List (List Frame × Backtrace)}
      {D : List Interned} {mk : UInt64 → Option Frame} (s : String) :
      Run P t S live D mk → Run P t (S.intern s).1 live (D ++ [(S.intern s).2]) mk
  /-- A reference taken directly is released, once, and the release goes through. -/
  | releaseText {t : LocationTable} {S S' : StringTable} {live : List (List Frame × Backtrace)}
      {D : List Interned} {mk : UInt64 → Option Frame} {r : Interned} :
      Run P t S live D mk → r ∈ D → S.release r = .ok S' → Run P t S' live (D.erase r) mk

/-- What a run keeps: `Counts` over the frames held, each backtrace interned from its stack. -/
structure Tracks (P : Set (UInt64 × Int64)) (t : LocationTable) (S : StringTable)
    (live : List (List Frame × Backtrace)) (D : List Interned) (mk : UInt64 → Option Frame) :
    Prop where
  /-- The tables keep `Counts` over the frames held. -/
  counts : t.Counts P S D (liveFrames live) mk
  /-- Each backtrace held was interned from its stack. -/
  frames : ∀ p ∈ live, List.Forall₂ Frame.InternsTo p.1 p.2

theorem map_resolvedFunctionId {frames : List Frame} {bt : Backtrace}
    (h : List.Forall₂ Frame.InternsTo frames bt) :
    frames.map Frame.resolvedFunctionId = bt.map (·.function.id) := by
  induction h with
  | nil => rfl
  | cons hi _ ih => rw [List.map_cons, List.map_cons, ih, hi.1]

/-- The function ids the stacks held resolve to are those of the frames held. -/
theorem liveIds_eq {live : List (List Frame × Backtrace)}
    (h : ∀ p ∈ live, List.Forall₂ Frame.InternsTo p.1 p.2) :
    liveIds live = (liveFrames live).map (·.function.id) := by
  induction live with
  | nil => rfl
  | cons p live ih =>
    simp only [liveIds, liveFrames, List.flatMap_cons, List.map_append] at ih ⊢
    rw [map_resolvedFunctionId (h p List.mem_cons_self),
      ih fun q hq => h q (List.mem_cons_of_mem p hq)]

/-- Letting go of one backtrace held leaves the frames of the others. -/
theorem liveFrames_perm_erase {live : List (List Frame × Backtrace)} {p : List Frame × Backtrace}
    (hp : p ∈ live) : (liveFrames live).Perm (liveFrames (live.erase p) ++ p.2) := by
  have := (List.perm_cons_erase hp).flatMap_right (·.2)
  rw [List.flatMap_cons] at this
  exact this.trans List.perm_append_comm

/-- Every state of a run is tracked. -/
theorem Run.tracks (hP : Set.InjOn (Function.uncurry locationId) P)
    {live : List (List Frame × Backtrace)} (h : Run P t S live D mk) : Tracks P t S live D mk := by
  induction h with
  | new =>
    exact ⟨⟨mirrors_empty P, resolves_empty, List.nodup_nil, fun _ h => by cases h⟩,
      fun _ h => by cases h⟩
  | intern frames _ hf ih =>
    obtain ⟨hc, hi⟩ := ih.counts.intern hP hf
    rw [← liveIds_eq ih.frames] at hc
    refine ⟨by simpa [liveFrames] using hc, fun p hp => ?_⟩
    rcases List.mem_append.1 hp with hp | hp
    · exact ih.frames p hp
    · rw [List.mem_singleton.1 hp]
      exact hi
  | release _ hp hrel ih =>
    exact ⟨ih.counts.release hP (liveFrames_perm_erase hp) hrel,
      fun q hq => ih.frames q (List.mem_of_mem_erase hq)⟩
  | internText s _ ih => exact ⟨ih.counts.internText s, ih.frames⟩
  | releaseText _ hr hrel ih => exact ⟨ih.counts.releaseText hr hrel, ih.frames⟩

/-- What the tables answer after a run holding the backtraces `live`, with the references `D`
taken directly and the frames `mk` that made the functions, and what can be released. -/
structure Accounts (t : LocationTable) (S : StringTable) (live : List (List Frame × Backtrace))
    (D : List Interned) (mk : UInt64 → Option Frame) : Prop where
  /-- Each backtrace held was interned from its stack: each location lies in the function its
  frame resolves to, at the frame's line, under the hash of that site. -/
  interned : ∀ p ∈ live, List.Forall₂ Frame.InternsTo p.1 p.2
  /-- Two frames held are one location exactly when they are at one site. -/
  same_location : ∀ l₁ ∈ liveFrames live, ∀ l₂ ∈ liveFrames live,
    l₁ = l₂ ↔ (l₁.function.id, l₁.line) = (l₂.function.id, l₂.line)
  /-- Two frames held share one function exactly when their function ids agree. -/
  same_function : ∀ l₁ ∈ liveFrames live, ∀ l₂ ∈ liveFrames live,
    l₁.function = l₂.function ↔ l₁.function.id = l₂.function.id
  /-- The function of a frame held keeps what the frame that made it gave it. -/
  made : ∀ l ∈ liveFrames live, ∃ f, mk l.function.id = some f ∧ l.function.MadeBy f
  /-- A location counts the frames held at it, and is there exactly when one is. -/
  locations : ∀ L, t.locationCount? L = present (((liveFrames live).map (·.id)).count L)
  /-- A function counts the frames held in it, and is there exactly when one is. -/
  functions : ∀ F, t.functionCount? F = present (((liveFrames live).map (·.function.id)).count F)
  /-- A text counts the references to it taken directly, one for each function held named by it
  and one for each in a file named by it. -/
  strings : ∀ s, S.refcount? s = present ((D.map (·.text)).count s +
    ((liveFunctions live).map (·.name.text)).count s +
    ((liveFunctions live).map (·.file.text)).count s)
  /-- Every backtrace held can be released. -/
  release : ∀ p ∈ live, ∃ t' S', t.release S p.2 = .ok (t', S')
  /-- Every reference taken directly can be released. -/
  releaseText : ∀ r ∈ D, ∃ S', S.release r = .ok S'

/-- Every state of a run whose sites the location-id hash tells apart is accounted for. -/
theorem Run.accounts (hP : Set.InjOn (Function.uncurry locationId) P)
    {live : List (List Frame × Backtrace)} (h : Run P t S live D mk) : Accounts t S live D mk := by
  obtain ⟨hc, hi⟩ := h.tracks hP
  refine ⟨hi, fun l₁ h₁ l₂ h₂ => ⟨?_, hc.eq_of_site h₁ h₂⟩,
    fun l₁ h₁ l₂ h₂ => ⟨congrArg _, hc.function_eq h₁ h₂⟩,
    fun l hl => hc.made _ (hc.function_mem hl), hc.mirrors.locations, hc.mirrors.functions,
    hc.refcount, fun p hp => ?_, fun r hr => ?_⟩
  · rintro rfl
    rfl
  · obtain ⟨t', S', hrel, -⟩ := hc.mirrors.release (liveFrames_perm_erase hp)
    exact ⟨t', S', hrel⟩
  · obtain ⟨S', hrel, -⟩ := hc.mirrors.releaseText hr
    exact ⟨S', hrel⟩

/-- Two stacks interned into new tables, the first with frames at lines `3` and `4` of one
function and the second with one frame at line `3`, are accounted for: they share the function
and a location. -/
theorem accounts_after_shared_stacks :
    ∃ (t : LocationTable) (S : StringTable) (live : List (List Frame × Backtrace))
      (D : List Interned) (mk : UInt64 → Option Frame),
      Set.InjOn (Function.uncurry locationId) {p | p ∈ [((5 : UInt64), (3 : Int64)), (5, 4)]} ∧
        Run {p | p ∈ [((5 : UInt64), (3 : Int64)), (5, 4)]} t S live D mk ∧ live.length = 2 ∧
        Accounts t S live D mk := by
  have hP : Set.InjOn (Function.uncurry locationId) {p | p ∈ [((5 : UInt64), (3 : Int64)), (5, 4)]} :=
    injOn_of_nodup_locationIds (by decide +kernel)
  -- Every frame of both stacks is at one of the two sites.
  have hsites : ∀ f ∈ [{ functionId := 5, name := "f", file := "m", line := 3 },
      { functionId := 5, name := "f", file := "m", line := 4 }], (f : Frame).site ∈
        [((5 : UInt64), (3 : Int64)), (5, 4)] := by
    decide
  have h₁ := Run.intern _ (Run.new (P := {p | p ∈ [((5 : UInt64), (3 : Int64)), (5, 4)]})) hsites
  have h₂ := Run.intern [{ functionId := 5, name := "f", file := "m", line := 3 }] h₁
    fun f hf => hsites f (List.mem_cons.2 (.inl (List.mem_singleton.1 hf)))
  exact ⟨_, _, _, _, _, hP, h₂, rfl, Run.accounts hP h₂⟩

end LocationTable

end HeapSampler
