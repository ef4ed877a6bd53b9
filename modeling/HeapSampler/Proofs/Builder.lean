import HeapSampler.Proofs.Snapshot
import HeapSampler.Profile.Builder
import Mathlib.Data.List.Induction
import Mathlib.Data.List.Forall2

/-!
# What a profile builder writes

A profile builder writes one sample per record it is given and, lazily, the functions and the
locations of the frames it scans, each once: a function or a location whose id was written
before is skipped.  This file says what a builder has written after any sequence of calls.

A call scans its record's stack leaf first.  It writes the function of a frame the first time
it meets the function's id, with its name and its file at their positions in the frozen list,
and the location of a frame the first time it meets the location's id.  A function met for the
first time whose name or file has no position stops the call: the frames before it stay
written, and neither it nor the frames after it are scanned (`ProfileBuilder.scan`).  A call
that scans all of its frames writes its sample, unless a word of the vocabulary that the labels
name has no position.  So after any calls the functions and the locations written are the
first ones met by id over all the frames scanned, in the order met, and the samples are those
of the calls that wrote one, in order (`ProfileBuilder.trace`, `ProfileBuilder.Wrote.addSamples`).

Keeping the first element met of each id is the library's `List.eraseDupsBy`; the builder
computes it one element at a time, and `List.eraseDupsBy_append_singleton` is that step.

## Main definitions

* `IndexNames`, `SampleShows`, `FunctionEntry`, `locationEntry` — what the entries say.
* `ProfileBuilder.scan`, `ProfileBuilder.trace` — what calls scan and write.
* `ProfileBuilder.Keeps`, `ProfileBuilder.Lists`, `ProfileBuilder.Wrote`.

## Main results

* `ProfileBuilder.Lists.addFrames` — one stack.
* `ProfileBuilder.Wrote.addSample`, `ProfileBuilder.Wrote.addSamples` — one call, any calls.
* `ProfileBuilder.addSamples_profile` — what a new builder writes.
* `Profile.ofRecords_eq_ok` — the profile of records whose texts are all listed.
-/

/-! ### Keeping first occurrences -/

namespace List

variable {α : Type}

theorem eraseDupsBy_loop_append (r : α → α → Bool) (as cs bs : List α) :
    eraseDupsBy.loop r (as ++ cs) bs = eraseDupsBy.loop r cs (eraseDupsBy.loop r as bs).reverse := by
  induction as generalizing bs with
  | nil => simp [eraseDupsBy.loop]
  | cons a as ih =>
    rw [cons_append]
    simp only [eraseDupsBy.loop]
    cases bs.any (r a) <;> exact ih _

/-- An element put at the end is kept unless an element kept before matches it. -/
theorem eraseDupsBy_append_singleton (r : α → α → Bool) (as : List α) (x : α) :
    (as ++ [x]).eraseDupsBy r =
      if (as.eraseDupsBy r).any (r x) then as.eraseDupsBy r else as.eraseDupsBy r ++ [x] := by
  simp only [eraseDupsBy, eraseDupsBy_loop_append, eraseDupsBy.loop, any_reverse]
  split <;> simp_all

section Keyed

variable {κ : Type} [BEq κ] [LawfulBEq κ]

theorem eraseDups_append_singleton (xs : List κ) (x : κ) :
    (xs ++ [x]).eraseDups = if x ∈ xs then xs.eraseDups else xs.eraseDups ++ [x] := by
  have h : xs.eraseDups.any (x == ·) = true ↔ x ∈ xs := by
    rw [any_eq_true]
    constructor
    · rintro ⟨y, hy, hxy⟩
      rw [beq_iff_eq] at hxy
      exact mem_eraseDups.1 (hxy ▸ hy)
    · exact fun hx => ⟨x, mem_eraseDups.2 hx, beq_self_eq_true x⟩
  show (xs ++ [x]).eraseDupsBy (· == ·) = _
  rw [eraseDupsBy_append_singleton]
  change (if xs.eraseDups.any (x == ·) = true then xs.eraseDups else xs.eraseDups ++ [x]) = _
  by_cases hx : x ∈ xs
  · rw [if_pos (h.2 hx), if_pos hx]
  · rw [if_neg (mt h.1 hx), if_neg hx]

variable (key : α → κ)

theorem any_key_iff (l : List α) (x : α) :
    l.any (fun b => key x == key b) = true ↔ key x ∈ l.map key := by
  rw [any_eq_true, mem_map]
  simp only [beq_iff_eq]
  exact ⟨fun ⟨b, hb, e⟩ => ⟨b, hb, e.symm⟩, fun ⟨b, hb, e⟩ => ⟨b, hb, e.symm⟩⟩

/-- The keys kept are the keys of the list. -/
theorem mem_map_eraseDupsBy_key (as : List α) (k : κ) :
    k ∈ (as.eraseDupsBy (fun a b => key a == key b)).map key ↔ k ∈ as.map key := by
  induction as using List.reverseRecOn generalizing k with
  | nil => rfl
  | append_singleton as x ih =>
    have hx := (any_key_iff key (as.eraseDupsBy fun a b => key a == key b) x).trans (ih (key x))
    rw [eraseDupsBy_append_singleton, map_append, mem_append, map_singleton, mem_singleton, ← ih]
    by_cases hmem : key x ∈ as.map key
    · rw [if_pos (hx.2 hmem)]
      exact ⟨.inl, fun h => h.elim id fun e => e ▸ (ih (key x)).2 hmem⟩
    · rw [if_neg (mt hx.1 hmem), map_append, mem_append, map_singleton, mem_singleton]

/-- An element put at the end is kept unless its key was met before. -/
theorem eraseDupsBy_key_append_singleton (as : List α) (x : α) :
    (as ++ [x]).eraseDupsBy (fun a b => key a == key b) =
      if key x ∈ as.map key then as.eraseDupsBy (fun a b => key a == key b)
      else as.eraseDupsBy (fun a b => key a == key b) ++ [x] := by
  have hx := (any_key_iff key (as.eraseDupsBy fun a b => key a == key b) x).trans
    (mem_map_eraseDupsBy_key key as (key x))
  rw [eraseDupsBy_append_singleton]
  by_cases hmem : key x ∈ as.map key
  · rw [if_pos (hx.2 hmem), if_pos hmem]
  · rw [if_neg (mt hx.1 hmem), if_neg hmem]

/-- The keys of the first elements met by key are the keys, each first occurrence kept. -/
theorem map_eraseDupsBy_key (as : List α) :
    (as.eraseDupsBy (fun a b => key a == key b)).map key = (as.map key).eraseDups := by
  induction as using List.reverseRecOn with
  | nil => rfl
  | append_singleton as x ih =>
    rw [eraseDupsBy_key_append_singleton, map_append, map_singleton, eraseDups_append_singleton, ← ih]
    by_cases hmem : key x ∈ as.map key
    · rw [if_pos hmem, if_pos hmem]
    · rw [if_neg hmem, if_neg hmem, map_append, map_singleton]

end Keyed

/-- Related lists map to one list when related elements map to one value. -/
theorem Forall₂.map_eq {β γ : Type} {R : α → β → Prop} {f : α → γ} {g : β → γ}
    (hfg : ∀ a b, R a b → g b = f a) {l₁ : List α} {l₂ : List β} (h : Forall₂ R l₁ l₂) :
    l₂.map g = l₁.map f := by
  induction h with
  | nil => rfl
  | cons hab _ ih => rw [map_cons, map_cons, hfg _ _ hab, ih]

end List

namespace HeapSampler

/-! ### What the entries say -/

/-- An index names a text of a string table: it is the 64-bit form of a position holding it. -/
def IndexNames (table : List String) (i : Int64) (s : String) : Prop :=
  ∃ n : Nat, table[n]? = some s ∧ i = n.toInt64

/-- The word of the vocabulary that names a kind. -/
def SampleKind.word : SampleKind → VocabWord
  | .allocation => .allocation
  | .heap => .heap

/-- The words of the vocabulary that the labels of a sample of a kind name, in the order they
are looked up. -/
def SampleKind.labelWords (k : SampleKind) : List VocabWord :=
  [.kind, k.word, .allocationSize, .bytes, .currentSize]

/-- The labels of a sample of a record of kind `k`, over a string table: the kind, and the
allocation size and the current size as 64-bit numbers in bytes. -/
def LabelsShow (table : List String) (ls : List Label) (r : SampleRecord) (k : SampleKind) : Prop :=
  ∃ kl al cl : Label, ls = [kl, al, cl] ∧
    (IndexNames table kl.key "kind" ∧ IndexNames table kl.str k.word.text ∧ kl.num = 0 ∧
      kl.numUnit = 0) ∧
    (IndexNames table al.key "allocation_size" ∧ al.str = 0 ∧ al.num = r.allocationSize.toInt64 ∧
      IndexNames table al.numUnit "bytes") ∧
    (IndexNames table cl.key "current_size" ∧ cl.str = 0 ∧ cl.num = r.currentSize.toInt64 ∧
      IndexNames table cl.numUnit "bytes")

/-- A sample shows a record of kind `k`: the record's stack as location ids, leaf first, the
value `1` for one allocation, and the labels of the record. -/
def SampleShows (table : List String) (s : Sample) (r : SampleRecord) (k : SampleKind) : Prop :=
  s.locationIds = r.backtrace.reverse.map (·.id) ∧ s.values = [1] ∧ LabelsShow table s.labels r k

/-- Whether a sample shows a record depends only on its stack and its two sizes. -/
theorem SampleShows.congr {table : List String} {s : Sample} {r r' : SampleRecord} {k : SampleKind}
    (h : SampleShows table s r k) (hb : r'.backtrace = r.backtrace)
    (ha : r'.allocationSize = r.allocationSize) (hc : r'.currentSize = r.currentSize) :
    SampleShows table s r' k := by
  unfold SampleShows LabelsShow at h ⊢
  rw [hb, ha, hc]
  exact h

/-- A function of a profile is the entry of `fn`: its id and first line, its name, as name and
as system name, and its file, at their positions in the frozen list. -/
def FunctionEntry (ix : StringIndex) (fn : FunctionInfo) (pf : ProfileFunction) : Prop :=
  pf.id = fn.id ∧ pf.startLine = fn.startLine ∧ pf.systemName = pf.name ∧
    (∃ i, ix.position? fn.name = some i ∧ pf.name = i.toInt64) ∧
    (∃ j, ix.position? fn.file = some j ∧ pf.filename = j.toInt64)

/-- The entry of a location: its id, and one line, in its function. -/
def locationEntry (l : Location) : ProfileLocation :=
  { id := l.id, lines := [⟨l.function.id, l.line⟩] }

/-- The vocabulary is listed at its own texts: a word with a position holds its text there. -/
def StringIndex.ListsVocabulary (ix : StringIndex) (voc : Vocabulary) : Prop :=
  ∀ w n, ix.position? (voc w) = some n → ix.texts[n]? = some w.text

/-- A stamped table lists its vocabulary at its texts. -/
theorem StringTable.Stamped.listsVocabulary {t : StringTable} (ht : t.Stamped) :
    t.snapshot.ListsVocabulary t.vocabulary := fun w _ h => by
  have := ht.texts_of_position? (ht.agrees_vocabulary w) h
  rw [ht.vocabulary_apply] at this
  exact this

theorem Except.ok_of_bind {ε α β : Type} {x : Except ε α} {f : α → Except ε β} {b : β}
    (h : (x >>= f) = .ok b) : ∃ a, x = .ok a ∧ f a = .ok b := by
  cases x with
  | error e => cases h
  | ok a => exact ⟨a, rfl, h⟩

namespace ProfileBuilder

/-! ### What calls scan and write -/

/-- The frames of a stack, leaf first, that a builder scans after meeting the frames `met`:
every frame up to the first whose function is met for the first time and whose name or file
has no position in the frozen list. -/
def scan (ix : StringIndex) (met : List Location) : List Location → List Location
  | [] => []
  | l :: ls =>
    if l.function.id ∈ met.map (·.function.id) ∨
        ((ix.position? l.function.name).isSome ∧ (ix.position? l.function.file).isSome) then
      l :: scan ix (met ++ [l]) ls
    else []

/-- What a sequence of calls does after meeting the frames `met`: all the frames met, and the
calls that wrote a sample, those that scanned all their frames and whose labels have positions. -/
def trace (ix : StringIndex) (voc : Vocabulary) (met : List Location) :
    List (SampleRecord × SampleKind) → List Location × List (SampleRecord × SampleKind)
  | [] => (met, [])
  | (r, k) :: calls =>
    let s := scan ix met r.backtrace.reverse
    let rest := trace ix voc (met ++ s) calls
    if s = r.backtrace.reverse ∧ ∀ w ∈ k.labelWords, (ix.position? (voc w)).isSome then
      (rest.1, (r, k) :: rest.2)
    else rest

/-- Adds a sample for each call in turn, whatever the calls before returned. -/
def addSamples (b : ProfileBuilder) (calls : List (SampleRecord × SampleKind)) : ProfileBuilder :=
  calls.foldl (fun b c => (b.addSample c.1 c.2).1) b

/-! ### What a builder keeps -/

variable {b b₁ b₂ : ProfileBuilder} {met : List Location}

/-- `b'` is `b` with more written: the frozen list, the vocabulary, and every field of the profile
but the functions, the locations and the samples are kept. -/
structure Keeps (b b' : ProfileBuilder) : Prop where
  /-- The frozen list is kept. -/
  strings : b'.strings = b.strings
  /-- The vocabulary is kept. -/
  vocabulary : b'.vocabulary = b.vocabulary
  /-- The rest of the profile is kept. -/
  profile : b'.profile = { b.profile with
    functions := b'.profile.functions, locations := b'.profile.locations,
    samples := b'.profile.samples }

theorem Keeps.refl (b : ProfileBuilder) : Keeps b b := ⟨rfl, rfl, rfl⟩

theorem Keeps.trans (h₁ : Keeps b b₁) (h₂ : Keeps b₁ b₂) : Keeps b b₂ :=
  ⟨h₂.strings.trans h₁.strings, h₂.vocabulary.trans h₁.vocabulary,
    h₂.profile.trans (congrArg (fun p : Profile => { p with
      functions := b₂.profile.functions, locations := b₂.profile.locations,
      samples := b₂.profile.samples }) h₁.profile)⟩

/-- What is kept of the profile: the string table, the sample and period types and the period. -/
theorem Keeps.header (h : Keeps b b') :
    b'.profile.stringTable = b.profile.stringTable ∧ b'.profile.sampleType = b.profile.sampleType ∧
      b'.profile.periodType = b.profile.periodType ∧ b'.profile.period = b.profile.period := by
  rw [h.profile]
  exact ⟨rfl, rfl, rfl, rfl⟩

/-- The builder has written the functions and the locations of the frames `met`: the first
function and the first location met with each id, in the order met. -/
structure Lists (b : ProfileBuilder) (met : List Location) : Prop where
  /-- The functions written are the first met by id, at their texts' positions. -/
  functions : List.Forall₂ (FunctionEntry b.strings)
    ((met.map (·.function)).eraseDupsBy (fun f g => f.id == g.id)) b.profile.functions
  /-- The builder remembers the ids of the functions met. -/
  addedFunctions : b.addedFunctions = (met.map (·.function.id)).eraseDups
  /-- The locations written are the first met by id. -/
  locations : b.profile.locations = (met.eraseDupsBy (fun l k => l.id == k.id)).map locationEntry
  /-- The builder remembers the ids of the locations met. -/
  addedLocations : b.addedLocations = (met.map (·.id)).eraseDups

/-! ### One frame -/

/-- A function met before is not written again. -/
theorem addFunction_of_met (h : b.Lists met) {l : Location}
    (hl : l.function.id ∈ met.map (·.function.id)) : b.addFunction l = .ok b := by
  have hc : l.function.id ∈ b.addedFunctions := by
    rw [h.addedFunctions, List.mem_eraseDups]
    exact hl
  simp [addFunction, hc, pure, Except.pure]

/-- A function met for the first time with a name or a file that has no position stops the scan,
with the field of the first of the two lookups that fails. -/
theorem addFunction_error (h : b.Lists met) {l : Location}
    (hl : ¬(l.function.id ∈ met.map (·.function.id) ∨
      ((b.strings.position? l.function.name).isSome ∧ (b.strings.position? l.function.file).isSome))) :
    (b.strings.position? l.function.name = none ∧
        b.addFunction l = .error (.nonInterned "Function.name" l.function.name.text)) ∨
      ((b.strings.position? l.function.name).isSome ∧ b.strings.position? l.function.file = none ∧
        b.addFunction l = .error (.nonInterned "Function.filename" l.function.file.text)) := by
  rw [not_or, not_and_or] at hl
  obtain ⟨hnew, hmiss⟩ := hl
  have hc : l.function.id ∉ b.addedFunctions := by
    rw [h.addedFunctions, List.mem_eraseDups]
    exact hnew
  cases hi : b.strings.position? l.function.name with
  | none => exact .inl ⟨rfl, by simp [addFunction, hc, position, hi, bind, Except.bind]⟩
  | some i =>
    have hj : b.strings.position? l.function.file = none := by simpa [hi] using hmiss
    exact .inr ⟨rfl, hj, by simp [addFunction, hc, position, hi, hj, bind, Except.bind]⟩

/-- Writing a location keeps the frozen list, the functions and the samples. -/
theorem keeps_addLocation (b : ProfileBuilder) (l : Location) :
    Keeps b (b.addLocation l) ∧ (b.addLocation l).profile.functions = b.profile.functions ∧
      (b.addLocation l).addedFunctions = b.addedFunctions ∧
      (b.addLocation l).profile.samples = b.profile.samples := by
  unfold ProfileBuilder.addLocation
  split
  · exact ⟨Keeps.refl b, rfl, rfl, rfl⟩
  · exact ⟨⟨rfl, rfl, rfl⟩, rfl, rfl, rfl⟩

/-- A location is written unless one with its id was met before. -/
theorem addLocation_lists {met : List Location}
    (hloc : b.profile.locations = (met.eraseDupsBy (fun l k => l.id == k.id)).map locationEntry)
    (hadd : b.addedLocations = (met.map (·.id)).eraseDups) (l : Location) :
    (b.addLocation l).profile.locations =
        ((met ++ [l]).eraseDupsBy (fun l k => l.id == k.id)).map locationEntry ∧
      (b.addLocation l).addedLocations = ((met ++ [l]).map (·.id)).eraseDups := by
  rw [List.eraseDupsBy_key_append_singleton Location.id, List.map_append, List.map_singleton,
    List.eraseDups_append_singleton]
  unfold ProfileBuilder.addLocation
  by_cases hl : l.id ∈ met.map (·.id)
  · have hc : b.addedLocations.contains l.id = true := by
      rw [hadd, List.contains_iff_mem, List.mem_eraseDups]
      exact hl
    rw [if_pos hc, if_pos hl, if_pos hl]
    exact ⟨hloc, hadd⟩
  · have hc : ¬b.addedLocations.contains l.id = true := by
      rw [hadd, List.contains_iff_mem, List.mem_eraseDups]
      exact hl
    rw [if_neg hc, if_neg hl, if_neg hl, List.map_append, List.map_singleton]
    exact ⟨by rw [hloc]; rfl, by rw [hadd]⟩

/-- The function of a frame whose function was met, or has its name and file listed, is
written if it is new. -/
theorem Lists.addFunction (h : b.Lists met) {l : Location}
    (hl : l.function.id ∈ met.map (·.function.id) ∨
      ((b.strings.position? l.function.name).isSome ∧ (b.strings.position? l.function.file).isSome)) :
    ∃ b₁, b.addFunction l = .ok b₁ ∧ Keeps b b₁ ∧ b₁.profile.samples = b.profile.samples ∧
      b₁.profile.locations = b.profile.locations ∧ b₁.addedLocations = b.addedLocations ∧
      List.Forall₂ (FunctionEntry b₁.strings)
        (((met ++ [l]).map (·.function)).eraseDupsBy (fun f g => f.id == g.id)) b₁.profile.functions ∧
      b₁.addedFunctions = ((met ++ [l]).map (·.function.id)).eraseDups := by
  have hfid : (met.map (·.function)).map (·.id) = met.map (·.function.id) := by
    rw [List.map_map]
    rfl
  rw [List.map_append, List.map_singleton, List.eraseDupsBy_key_append_singleton FunctionInfo.id,
    hfid, List.map_append, List.map_singleton, List.eraseDups_append_singleton]
  by_cases hmet : l.function.id ∈ met.map (·.function.id)
  · -- Met before: nothing is written.
    rw [if_pos hmet, if_pos hmet]
    exact ⟨b, addFunction_of_met h hmet, Keeps.refl b, rfl, rfl, rfl, h.functions, h.addedFunctions⟩
  · -- Met for the first time: both texts have positions, and the function is written.
    obtain ⟨i, hi⟩ := Option.isSome_iff_exists.1 (hl.resolve_left hmet).1
    obtain ⟨j, hj⟩ := Option.isSome_iff_exists.1 (hl.resolve_left hmet).2
    have hc : l.function.id ∉ b.addedFunctions := by
      rw [h.addedFunctions, List.mem_eraseDups]
      exact hmet
    rw [if_neg hmet, if_neg hmet]
    refine ⟨{ b with
      profile := { b.profile with functions := b.profile.functions ++
        [⟨l.function.id, i.toInt64, i.toInt64, j.toInt64, l.function.startLine⟩] }
      addedFunctions := b.addedFunctions ++ [l.function.id] }, ?_, ⟨rfl, rfl, rfl⟩, rfl, rfl, rfl,
      List.rel_append h.functions (.cons ⟨rfl, rfl, rfl, ⟨i, hi, rfl⟩, ⟨j, hj, rfl⟩⟩ .nil), ?_⟩
    · simp [ProfileBuilder.addFunction, hc, position, hi, hj, bind, Except.bind, pure, Except.pure]
    · rw [h.addedFunctions]

/-- Scanning a frame whose function was met, or has its name and file listed: its function is
written if it is new, then its location if it is new. -/
theorem Lists.addFrame (h : b.Lists met) {l : Location}
    (hl : l.function.id ∈ met.map (·.function.id) ∨
      ((b.strings.position? l.function.name).isSome ∧ (b.strings.position? l.function.file).isSome)) :
    ∃ b₁, b.addFunction l = .ok b₁ ∧ (b₁.addLocation l).Lists (met ++ [l]) ∧
      Keeps b (b₁.addLocation l) ∧ (b₁.addLocation l).profile.samples = b.profile.samples := by
  obtain ⟨b₁, h₁, hk₁, hs₁, hl₁, hal₁, hf₁, haf₁⟩ := h.addFunction hl
  obtain ⟨hk₂, hf₂, haf₂, hs₂⟩ := keeps_addLocation b₁ l
  obtain ⟨hloc, hadd⟩ := addLocation_lists (b := b₁) (by rw [hl₁]; exact h.locations)
    (by rw [hal₁]; exact h.addedLocations) l
  refine ⟨b₁, h₁, ⟨?_, by rw [haf₂]; exact haf₁, hloc, hadd⟩, hk₁.trans hk₂, hs₂.trans hs₁⟩
  rw [hf₂, hk₂.strings]
  exact hf₁

/-! ### One stack -/

/-- Scanning a stack leaf first writes the functions and the locations of the frames scanned;
the call goes on exactly when it scanned all of them. -/
theorem Lists.addFrames (h : b.Lists met) (fs : List Location) :
    (b.addFrames fs).1.Lists (met ++ scan b.strings met fs) ∧
      ((b.addFrames fs).2 = none ↔ scan b.strings met fs = fs) ∧
      Keeps b (b.addFrames fs).1 ∧ (b.addFrames fs).1.profile.samples = b.profile.samples := by
  induction fs generalizing b met with
  | nil => exact ⟨by simpa [scan, addFrames] using h, by simp [addFrames, scan], Keeps.refl b, rfl⟩
  | cons l ls ih =>
    by_cases hl : l.function.id ∈ met.map (·.function.id) ∨
        ((b.strings.position? l.function.name).isSome ∧ (b.strings.position? l.function.file).isSome)
    · obtain ⟨b₁, h₁, hm, hk, hs⟩ := h.addFrame hl
      have e : b.addFrames (l :: ls) = (b₁.addLocation l).addFrames ls := by
        simp [addFrames, h₁]
      have hscan : scan b.strings met (l :: ls) = l :: scan b.strings (met ++ [l]) ls := by
        simp only [scan, if_pos hl]
      obtain ⟨ih₁, ih₂, ih₃, ih₄⟩ := ih hm
      rw [hk.strings] at ih₁ ih₂
      rw [e, hscan]
      exact ⟨by simpa using ih₁, by simpa using ih₂, hk.trans ih₃, ih₄.trans hs⟩
    · -- The function is new and a text of it has no position: the scan stops here.
      obtain ⟨err, he⟩ : ∃ err, b.addFunction l = .error err :=
        (addFunction_error h hl).elim (fun h => ⟨_, h.2⟩) (fun h => ⟨_, h.2.2⟩)
      have e : b.addFrames (l :: ls) = (b, some err) := by
        simp [addFrames, he]
      have hscan : scan b.strings met (l :: ls) = [] := by
        simp only [scan, if_neg hl]
      rw [e, hscan]
      exact ⟨by simpa using h, by simp, Keeps.refl b, rfl⟩

/-! ### Labels -/

/-- The labels of a record, once the words they name have positions. -/
theorem labels_eq (b : ProfileBuilder) (r : SampleRecord) (k : SampleKind) {n₁ n₂ n₃ n₄ n₅ : Nat}
    (h₁ : b.strings.position? (b.vocabulary .kind) = some n₁)
    (h₂ : b.strings.position? (b.vocabulary k.word) = some n₂)
    (h₃ : b.strings.position? (b.vocabulary .allocationSize) = some n₃)
    (h₄ : b.strings.position? (b.vocabulary .bytes) = some n₄)
    (h₅ : b.strings.position? (b.vocabulary .currentSize) = some n₅) :
    b.labels r k = .ok [{ key := n₁.toInt64, str := n₂.toInt64 },
      { key := n₃.toInt64, num := r.allocationSize.toInt64, numUnit := n₄.toInt64 },
      { key := n₅.toInt64, num := r.currentSize.toInt64, numUnit := n₄.toInt64 }] := by
  cases k <;> simp only [SampleKind.word] at h₂ <;>
    simp [labels, position, h₁, h₂, h₃, h₄, h₅, bind, Except.bind, pure, Except.pure]

/-- Labels are written only when every word they name has a position. -/
theorem labels_positions {r : SampleRecord} {k : SampleKind} {ls : List Label}
    (h : b.labels r k = .ok ls) : ∀ w ∈ k.labelWords, (b.strings.position? (b.vocabulary w)).isSome := by
  have hpos : ∀ {field : String} {s : Interned} {i : Int64}, b.position field s = .ok i →
      (b.strings.position? s).isSome := by
    intro field s i hi
    unfold position at hi
    split at hi
    · rename_i n hn
      rw [hn]
      rfl
    · cases hi
  intro w hw
  -- The text of the kind is looked up second, and depends on the kind.
  cases k <;>
  · unfold labels at h
    obtain ⟨i₁, h₁, h⟩ := Except.ok_of_bind h
    obtain ⟨i₂, h₂, h⟩ := Except.ok_of_bind h
    obtain ⟨i₃, h₃, h⟩ := Except.ok_of_bind h
    obtain ⟨i₄, h₄, h⟩ := Except.ok_of_bind h
    obtain ⟨i₅, h₅, -⟩ := Except.ok_of_bind h
    simp only [SampleKind.labelWords, SampleKind.word, List.mem_cons, List.not_mem_nil, or_false] at hw
    rcases hw with rfl | rfl | rfl | rfl | rfl
    · exact hpos h₁
    · exact hpos h₂
    · exact hpos h₃
    · exact hpos h₄
    · exact hpos h₅

/-- Labels whose words have positions show the record, over a frozen list that lists the
vocabulary at its texts. -/
theorem labels_show (hvoc : b.strings.ListsVocabulary b.vocabulary) (r : SampleRecord)
    (k : SampleKind) (hp : ∀ w ∈ k.labelWords, (b.strings.position? (b.vocabulary w)).isSome) :
    ∃ ls, b.labels r k = .ok ls ∧ LabelsShow b.strings.texts ls r k := by
  have hw : ∀ w ∈ k.labelWords, ∃ n, b.strings.position? (b.vocabulary w) = some n ∧
      IndexNames b.strings.texts n.toInt64 w.text := fun w hw => by
    obtain ⟨n, hn⟩ := Option.isSome_iff_exists.1 (hp w hw)
    exact ⟨n, hn, n, hvoc w n hn, rfl⟩
  obtain ⟨n₁, h₁, t₁⟩ := hw .kind (by simp [SampleKind.labelWords])
  obtain ⟨n₂, h₂, t₂⟩ := hw k.word (by simp [SampleKind.labelWords])
  obtain ⟨n₃, h₃, t₃⟩ := hw .allocationSize (by simp [SampleKind.labelWords])
  obtain ⟨n₄, h₄, t₄⟩ := hw .bytes (by simp [SampleKind.labelWords])
  obtain ⟨n₅, h₅, t₅⟩ := hw .currentSize (by simp [SampleKind.labelWords])
  exact ⟨_, labels_eq b r k h₁ h₂ h₃ h₄ h₅, _, _, _, rfl, ⟨t₁, t₂, rfl, rfl⟩, ⟨t₃, rfl, rfl, t₄⟩,
    ⟨t₅, rfl, rfl, t₄⟩⟩

/-! ### Calls -/

/-- The builder has met the frames `met` and written the samples of the calls `written`. -/
structure Wrote (b : ProfileBuilder) (met : List Location)
    (written : List (SampleRecord × SampleKind)) : Prop where
  /-- The functions and the locations written are those of the frames met. -/
  lists : b.Lists met
  /-- The samples written show the records of the calls that wrote them, in order. -/
  samples : List.Forall₂ (fun s c => SampleShows b.strings.texts s c.1 c.2) b.profile.samples written

variable {written : List (SampleRecord × SampleKind)}

/-- One call: it scans its stack, and writes its sample when it scanned all of it and its
labels have positions. -/
theorem Wrote.addSample (h : b.Wrote met written) (hvoc : b.strings.ListsVocabulary b.vocabulary)
    (r : SampleRecord) (k : SampleKind) :
    (b.addSample r k).1.Wrote (met ++ scan b.strings met r.backtrace.reverse)
        (written ++ if scan b.strings met r.backtrace.reverse = r.backtrace.reverse ∧
            ∀ w ∈ k.labelWords, (b.strings.position? (b.vocabulary w)).isSome then [(r, k)] else []) ∧
      Keeps b (b.addSample r k).1 := by
  obtain ⟨hl, hn, hk, hs⟩ := h.lists.addFrames r.backtrace.reverse
  have hsamples : List.Forall₂ (fun s c => SampleShows (b.addFrames r.backtrace.reverse).1.strings.texts
      s c.1 c.2) (b.addFrames r.backtrace.reverse).1.profile.samples written := by
    rw [hs, hk.strings]
    exact h.samples
  -- The call writes nothing: the builder is the one the scan left.
  have hnone : ¬(scan b.strings met r.backtrace.reverse = r.backtrace.reverse ∧
      ∀ w ∈ k.labelWords, (b.strings.position? (b.vocabulary w)).isSome) →
      (b.addFrames r.backtrace.reverse).1.Wrote (met ++ scan b.strings met r.backtrace.reverse)
        (written ++ if scan b.strings met r.backtrace.reverse = r.backtrace.reverse ∧
          ∀ w ∈ k.labelWords, (b.strings.position? (b.vocabulary w)).isSome then [(r, k)] else []) :=
    fun hc => by
      rw [if_neg hc, List.append_nil]
      exact ⟨hl, hsamples⟩
  unfold ProfileBuilder.addSample
  dsimp only
  rcases hf : b.addFrames r.backtrace.reverse with ⟨b₁, _ | err⟩
  · rw [hf] at hl hn hk hsamples hnone
    have hscan := hn.1 rfl
    dsimp only
    cases hls : b₁.labels r k with
    | error err =>
      -- A word of the labels has no position.
      have hmiss : ¬∀ w ∈ k.labelWords, (b.strings.position? (b.vocabulary w)).isSome := by
        intro hp
        obtain ⟨ls, hls', -⟩ := labels_show (b := b₁) (by rw [hk.strings, hk.vocabulary]; exact hvoc)
          r k (by rw [hk.strings, hk.vocabulary]; exact hp)
        rw [hls] at hls'
        cases hls'
      exact ⟨hnone fun hc => hmiss hc.2, hk⟩
    | ok ls =>
      have hp := labels_positions hls
      rw [hk.strings, hk.vocabulary] at hp
      obtain ⟨ls', hls', hshow⟩ := labels_show (b := b₁) (by rw [hk.strings, hk.vocabulary]; exact hvoc)
        r k (by rw [hk.strings, hk.vocabulary]; exact hp)
      rw [hls] at hls'
      cases hls'
      rw [if_pos ⟨hscan, hp⟩]
      dsimp only
      -- The sample goes on the end; the functions and the locations stay.
      refine ⟨⟨⟨hl.functions, hl.addedFunctions, hl.locations, hl.addedLocations⟩,
        List.rel_append hsamples (.cons ⟨rfl, rfl, hshow⟩ .nil)⟩, hk.trans ⟨rfl, rfl, rfl⟩⟩
  · rw [hf] at hl hn hk hsamples hnone
    have hscan : scan b.strings met r.backtrace.reverse ≠ r.backtrace.reverse := fun e => by
      cases hn.2 e
    exact ⟨hnone fun hc => hscan hc.1, hk⟩

/-- Any calls, one after the other: the frames met and the samples written are those that
`trace` reads off the calls. -/
theorem Wrote.addSamples (h : b.Wrote met written) (hvoc : b.strings.ListsVocabulary b.vocabulary)
    (calls : List (SampleRecord × SampleKind)) :
    (b.addSamples calls).Wrote (trace b.strings b.vocabulary met calls).1
        (written ++ (trace b.strings b.vocabulary met calls).2) ∧
      Keeps b (b.addSamples calls) := by
  induction calls generalizing b met written with
  | nil => exact ⟨by simpa [trace, addSamples] using h, Keeps.refl b⟩
  | cons c calls ih =>
    obtain ⟨r, k⟩ := c
    obtain ⟨h₁, hk₁⟩ := h.addSample hvoc r k
    obtain ⟨h₂, hk₂⟩ := ih h₁ (by rw [hk₁.strings, hk₁.vocabulary]; exact hvoc)
    rw [hk₁.strings, hk₁.vocabulary] at h₂
    have e : b.addSamples ((r, k) :: calls) = (b.addSample r k).1.addSamples calls := rfl
    refine ⟨?_, hk₁.trans (e ▸ hk₂)⟩
    rw [e]
    simp only [trace]
    split
    · rename_i hc
      simpa [if_pos hc] using h₂
    · rename_i hc
      simpa [if_neg hc] using h₂

/-! ### Records whose texts are all listed -/

/-- A stack whose functions all have their name and file listed is scanned to its end. -/
theorem scan_eq_self (ix : StringIndex) (met : List Location) {fs : List Location}
    (hfs : ∀ l ∈ fs, (ix.position? l.function.name).isSome ∧ (ix.position? l.function.file).isSome) :
    scan ix met fs = fs := by
  induction fs generalizing met with
  | nil => rfl
  | cons l ls ih =>
    rw [scan, if_pos (.inr (hfs l List.mem_cons_self)),
      ih _ fun l' hl' => hfs l' (List.mem_cons_of_mem _ hl')]

/-- A call that scans all its frames and finds the words of its labels goes on. -/
theorem addSample_snd (h : b.Lists met) (hvoc : b.strings.ListsVocabulary b.vocabulary)
    {r : SampleRecord} {k : SampleKind}
    (hscan : scan b.strings met r.backtrace.reverse = r.backtrace.reverse)
    (hwords : ∀ w ∈ k.labelWords, (b.strings.position? (b.vocabulary w)).isSome) :
    (b.addSample r k).2 = none := by
  obtain ⟨-, hn, hk, -⟩ := h.addFrames r.backtrace.reverse
  unfold ProfileBuilder.addSample
  dsimp only
  rcases hf : b.addFrames r.backtrace.reverse with ⟨b₁, _ | err⟩
  · rw [hf] at hk
    obtain ⟨ls, hls, -⟩ := labels_show (b := b₁) (by rw [hk.strings, hk.vocabulary]; exact hvoc)
      r k (by rw [hk.strings, hk.vocabulary]; exact hwords)
    dsimp only
    rw [hls]
  · rw [hf] at hn
    cases hn.2 hscan

/-- Records of one kind, whose functions all have their name and file listed and whose labels'
words are listed, are all written: one sample each, in order, and every frame met. -/
theorem Wrote.addAll (h : b.Wrote met written) (hvoc : b.strings.ListsVocabulary b.vocabulary)
    (k : SampleKind) (hwords : ∀ w ∈ k.labelWords, (b.strings.position? (b.vocabulary w)).isSome)
    (rs : List SampleRecord) (hrs : ∀ r ∈ rs, ∀ l ∈ r.backtrace,
      (b.strings.position? l.function.name).isSome ∧ (b.strings.position? l.function.file).isSome) :
    ∃ b', b.addAll k rs = .ok b' ∧
      b'.Wrote (met ++ rs.flatMap (·.backtrace.reverse)) (written ++ rs.map (·, k)) ∧ Keeps b b' := by
  induction rs generalizing b met written with
  | nil => exact ⟨b, rfl, by simpa using h, Keeps.refl b⟩
  | cons r rs ih =>
    have hscan : scan b.strings met r.backtrace.reverse = r.backtrace.reverse :=
      scan_eq_self _ _ fun l hl => hrs r List.mem_cons_self l (List.mem_reverse.1 hl)
    obtain ⟨h₁, hk₁⟩ := h.addSample hvoc r k
    rw [hscan, if_pos ⟨rfl, hwords⟩] at h₁
    -- The first record is written, and the rest are added to the builder it leaves.
    have hnext : b.addAll k (r :: rs) = (b.addSample r k).1.addAll k rs := by
      have e : b.addSample r k = ((b.addSample r k).1, none) :=
        Prod.ext rfl (addSample_snd h.lists hvoc hscan hwords)
      rw [addAll, e]
    obtain ⟨b₂, h₂, hw₂, hk₂⟩ := ih h₁ (by rw [hk₁.strings, hk₁.vocabulary]; exact hvoc)
      (by rw [hk₁.strings, hk₁.vocabulary]; exact hwords)
      (fun r' hr' => by rw [hk₁.strings]; exact hrs r' (List.mem_cons_of_mem _ hr'))
    exact ⟨b₂, hnext.trans h₂, by simpa using hw₂, hk₁.trans hk₂⟩

/-! ### A new builder -/

/-- A new builder: its string table is the frozen list, and its one sample type, which is also
its period type, is allocations counted, with period `1`. -/
theorem new_eq_ok {ix : StringIndex} {voc : Vocabulary} {time : Int64} (h : new ix voc time = .ok b) :
    ∃ i j : Nat, ix.position? (voc .allocations) = some i ∧ ix.position? (voc .count) = some j ∧
      b = { strings := ix, vocabulary := voc,
            profile := { stringTable := ix.texts, timeNanos := time, period := 1,
                         sampleType := [⟨i.toInt64, j.toInt64⟩],
                         periodType := some ⟨i.toInt64, j.toInt64⟩ } } := by
  unfold new at h
  obtain ⟨a, ha, h⟩ := Except.ok_of_bind h
  obtain ⟨c, hc, h⟩ := Except.ok_of_bind h
  cases hi : ix.position? (voc .allocations) with
  | none => simp [position, hi] at ha
  | some i =>
    cases hj : ix.position? (voc .count) with
    | none => simp [position, hj] at hc
    | some j =>
      simp only [position, hi, hj, Except.ok.injEq] at ha hc
      subst ha hc
      cases h
      exact ⟨i, j, rfl, rfl, rfl⟩

/-- A new builder over a frozen list that lists the words of its sample type. -/
theorem new_ok {ix : StringIndex} {voc : Vocabulary} (time : Int64) {i j : Nat}
    (hi : ix.position? (voc .allocations) = some i) (hj : ix.position? (voc .count) = some j) :
    new ix voc time = .ok
      { strings := ix, vocabulary := voc,
        profile := { stringTable := ix.texts, timeNanos := time, period := 1,
                     sampleType := [⟨i.toInt64, j.toInt64⟩],
                     periodType := some ⟨i.toInt64, j.toInt64⟩ } } := by
  simp [new, position, hi, hj, bind, Except.bind, pure, Except.pure]

/-- A new builder over the frozen list of a stamped table: that list is its string table, whose
entry `0` is the empty text, and its one sample type, which is also its period type, is
allocations counted, with period `1`. -/
theorem new_header {t : StringTable} (ht : t.Stamped) {time : Int64}
    (hb : new t.snapshot t.vocabulary time = .ok b) :
    (b.profile.stringTable = t.snapshot.texts ∧ b.profile.stringTable[0]? = some "") ∧
      ∃ vt : ValueType, b.profile.sampleType = [vt] ∧ b.profile.periodType = some vt ∧
        b.profile.period = 1 ∧ IndexNames b.profile.stringTable vt.type "allocations" ∧
        IndexNames b.profile.stringTable vt.unit "count" := by
  obtain ⟨i, j, hi, hj, rfl⟩ := new_eq_ok hb
  exact ⟨⟨rfl, ht.snapshot_texts_head⟩, ⟨i.toInt64, j.toInt64⟩, rfl, rfl, rfl,
    ⟨i, ht.listsVocabulary .allocations i hi, rfl⟩, ⟨j, ht.listsVocabulary .count j hj, rfl⟩⟩

theorem Wrote.new {ix : StringIndex} {voc : Vocabulary} {time : Int64} (h : new ix voc time = .ok b) :
    b.Wrote [] [] := by
  obtain ⟨i, j, -, -, rfl⟩ := new_eq_ok h
  exact ⟨⟨.nil, rfl, rfl, rfl⟩, .nil⟩

end ProfileBuilder

/-- **What a profile builder writes.**  Over the frozen list of a stamped string table, a new
builder and any calls after it write: the frozen list as the string table, whose entry `0` is the
empty text; one sample type, allocations counted, which is also the period type, with period
`1`; one sample for each call that scanned all its frames and found its labels, in order, showing
the call's record; and the functions and the locations of all the frames scanned, each id once,
first met first, a function at its texts' positions and a location with its line in its
function. -/
theorem ProfileBuilder.addSamples_profile {t : StringTable} (ht : t.Stamped) {time : Int64}
    {b : ProfileBuilder} (hb : ProfileBuilder.new t.snapshot t.vocabulary time = .ok b)
    (calls : List (SampleRecord × SampleKind)) :
    let p := (b.addSamples calls).profile
    let tr := ProfileBuilder.trace t.snapshot t.vocabulary [] calls
    (p.stringTable = t.snapshot.texts ∧ p.stringTable[0]? = some "") ∧
    (∃ vt : ValueType, p.sampleType = [vt] ∧ p.periodType = some vt ∧ p.period = 1 ∧
      IndexNames p.stringTable vt.type "allocations" ∧ IndexNames p.stringTable vt.unit "count") ∧
    List.Forall₂ (fun s c => SampleShows p.stringTable s c.1 c.2) p.samples tr.2 ∧
    (p.functions.map (·.id) = (tr.1.map (·.function.id)).eraseDups ∧
      List.Forall₂ (FunctionEntry t.snapshot)
        ((tr.1.map (·.function)).eraseDupsBy (fun f g => f.id == g.id)) p.functions) ∧
    (p.locations.map (·.id) = (tr.1.map (·.id)).eraseDups ∧
      p.locations = (tr.1.eraseDupsBy (fun l k => l.id == k.id)).map locationEntry) := by
  dsimp only
  obtain ⟨_, _, _, _, hbeq⟩ := ProfileBuilder.new_eq_ok hb
  have hbs : b.strings = t.snapshot := by
    rw [hbeq]
  have hvocab : b.vocabulary = t.vocabulary := by
    rw [hbeq]
  obtain ⟨⟨hl, hs⟩, hk⟩ := (ProfileBuilder.Wrote.new hb).addSamples
    (by rw [hbs, hvocab]; exact ht.listsVocabulary) calls
  -- The calls write the functions, the locations and the samples; the rest is the new builder's.
  obtain ⟨htable, htype, hperiodType, hperiod⟩ := hk.header
  obtain ⟨⟨htable₀, hhead⟩, vt, hvt⟩ := ProfileBuilder.new_header ht hb
  have hstrings : (b.addSamples calls).strings = t.snapshot := hk.strings.trans hbs
  rw [hbs, hvocab] at hl
  rw [hstrings, hbs, hvocab, List.nil_append, ← htable₀, ← htable] at hs
  refine ⟨⟨htable.trans htable₀, htable ▸ hhead⟩, ?_, hs, ⟨?_, hstrings ▸ hl.functions⟩,
    ⟨?_, hl.locations⟩⟩
  · rw [htable, htype, hperiodType, hperiod]
    exact ⟨vt, hvt⟩
  · rw [hl.functions.map_eq (f := (·.id)) (fun _ _ h => h.1), List.map_eraseDupsBy_key, List.map_map]
    rfl
  · rw [hl.locations, List.map_map]
    exact List.map_eraseDupsBy_key Location.id _

/-- Over a table where the texts `f` and `m` were interned, a new builder writes two records whose
frames lie in one function `f` of file `m`, the first at lines `3` and `4` and the second at line
`3`: two samples, the function once, and each location once, first met first. -/
theorem ProfileBuilder.addSamples_shared_function :
    ∃ (t : StringTable) (func : FunctionInfo) (calls : List (SampleRecord × SampleKind))
      (b : ProfileBuilder),
      t = ((StringTable.new.intern "f").1.intern "m").1 ∧
      func = ⟨5, (StringTable.new.intern "f").2, ((StringTable.new.intern "f").1.intern "m").2, 1⟩ ∧
      calls = [(⟨[⟨103, 3, func⟩, ⟨104, 4, func⟩], 16, 16, 7⟩, .allocation),
        (⟨[⟨103, 3, func⟩], 24, 24, 8⟩, .heap)] ∧
      ProfileBuilder.new t.snapshot t.vocabulary 0 = .ok b ∧
      List.Forall₂ (fun s c => SampleShows (b.addSamples calls).profile.stringTable s c.1 c.2)
        (b.addSamples calls).profile.samples (ProfileBuilder.trace t.snapshot t.vocabulary [] calls).2 ∧
      (ProfileBuilder.trace t.snapshot t.vocabulary [] calls).2.length = 2 ∧
      (b.addSamples calls).profile.functions.map (·.id) = [5] ∧
      (b.addSamples calls).profile.locations.map (·.id) = [104, 103] := by
  have ht : ((StringTable.new.intern "f").1.intern "m").1.Stamped :=
    (StringTable.stamped_new.intern "f").intern "m"
  obtain ⟨-, -, hs, ⟨hf, -⟩, ⟨hl, -⟩⟩ := ProfileBuilder.addSamples_profile ht rfl
    [(⟨[⟨103, 3, ⟨5, (StringTable.new.intern "f").2, ((StringTable.new.intern "f").1.intern "m").2, 1⟩⟩,
        ⟨104, 4, ⟨5, (StringTable.new.intern "f").2, ((StringTable.new.intern "f").1.intern "m").2, 1⟩⟩],
        16, 16, 7⟩, .allocation),
      (⟨[⟨103, 3, ⟨5, (StringTable.new.intern "f").2, ((StringTable.new.intern "f").1.intern "m").2, 1⟩⟩],
        24, 24, 8⟩, .heap)]
  exact ⟨_, _, _, _, rfl, rfl, rfl, rfl, hs, by decide +kernel, hf.trans (by decide +kernel),
    hl.trans (by decide +kernel)⟩

/-! ### The profile of records -/

/-- **The profile of records whose texts are all listed.**  Over the frozen list of a stamped
table that lists the vocabulary, and records whose functions all have their name and file
listed, the profile of allocations and heap records is written: its string table is the frozen
list, and it has one sample per record, the allocations first, each showing its record. -/
theorem Profile.ofRecords_eq_ok {t : StringTable} (ht : t.Stamped) (time : Int64)
    (hwords : ∀ w, (t.snapshot.position? (t.vocabulary w)).isSome) {as hs : List SampleRecord}
    (hframes : ∀ r ∈ as ++ hs, ∀ l ∈ r.backtrace,
      (t.snapshot.position? l.function.name).isSome ∧ (t.snapshot.position? l.function.file).isSome) :
    ∃ p, Profile.ofRecords t.snapshot t.vocabulary time as hs = .ok p ∧
      p.stringTable = t.snapshot.texts ∧
      List.Forall₂ (fun s c => SampleShows p.stringTable s c.1 c.2) p.samples
        (as.map (·, .allocation) ++ hs.map (·, .heap)) := by
  obtain ⟨i, hi⟩ := Option.isSome_iff_exists.1 (hwords .allocations)
  obtain ⟨j, hj⟩ := Option.isSome_iff_exists.1 (hwords .count)
  have hb := ProfileBuilder.new_ok time hi hj
  have hvoc : t.snapshot.ListsVocabulary t.vocabulary := ht.listsVocabulary
  -- The allocations, then the heap records, each list written whole.
  obtain ⟨b₁, h₁, hw₁, hk₁⟩ := (ProfileBuilder.Wrote.new hb).addAll hvoc .allocation
    (fun w _ => hwords w) as fun r hr => hframes r (List.mem_append_left _ hr)
  obtain ⟨b₂, h₂, hw₂, hk₂⟩ := hw₁.addAll (by rw [hk₁.strings, hk₁.vocabulary]; exact hvoc) .heap
    (by rw [hk₁.strings, hk₁.vocabulary]; exact fun w _ => hwords w) hs
    (by rw [hk₁.strings]; exact fun r hr => hframes r (List.mem_append_right _ hr))
  have hk := hk₁.trans hk₂
  have htable : b₂.profile.stringTable = t.snapshot.texts := by
    rw [hk.profile]
  have hsamples := hw₂.samples
  rw [hk.strings, List.nil_append] at hsamples
  refine ⟨b₂.profile, ?_, htable, by rw [htable]; exact hsamples⟩
  simp [Profile.ofRecords, hb, h₁, h₂, bind, Except.bind, pure, Except.pure]

end HeapSampler
