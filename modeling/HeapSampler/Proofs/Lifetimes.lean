import HeapSampler.Proofs.Snapshot
import Mathlib.Data.Set.Card

/-!
# Lives of string entries

A string table keys everything on the identity of an entry, not on its text: an entry dies when
its last reference is given back, and a text interned again gets a new entry, which a reference
to the old one must never touch.  This file proves that the table behaves as its reference
model says.

The model (`RefModel`) counts, for every text, the references outstanding (one per intern, one
pin per word of the vocabulary, one given back per release) and the *lives* its entry has had:
a life begins with an intern of a text that has no reference outstanding and ends when its last
reference is given back.  A reference belongs to the life in which it was handed out.

`StringTable.Run` is a table after any interns and releases from a new one, with every reference
handed out (the vocabulary's first) paired with its life, and the model of the same calls.  The
proof numbers the stamps by lives: a map `σ` sends the `g`-th life of a text to the stamp of the
entry it had then (`StringTable.Lives`).  Stamps are handed out once each, so `σ` is injective on
the lives that have begun, and two references are the same entry exactly when they belong to
one life of one text.

## Main definitions

* `RefModel`, with `new`, `intern`, `release`.
* `StringTable.Run` — a table and its model after the same calls.
* `StringTable.Lives` — the stamps of the table numbered by the lives of the model.

## Main results

* `StringTable.release_isOk_iff` — a release goes through exactly for the live entry.
* `StringTable.Run.lives` — every run keeps the numbering.
* `StringTable.Run.reference_model` — counts, size, identity of references, and when a release
  stops the run.
-/

namespace HeapSampler

/-- The references outstanding on each text, and the number of lives its entry has had. -/
structure RefModel where
  /-- References handed out and not given back. -/
  refs : String → Nat
  /-- The lives of the text's entry so far; the current one if a reference is outstanding. -/
  lives : String → Nat

namespace RefModel

/-- The texts of the vocabulary. -/
def vocabTexts : List String := VocabWord.all.map VocabWord.text

/-- A new table: each word of the vocabulary pinned once, in its first life. -/
def new : RefModel where
  refs s := if s ∈ vocabTexts then 1 else 0
  lives s := if s ∈ vocabTexts then 1 else 0

/-- One more reference to `s`, and the life it belongs to; a text with no reference outstanding
begins a new life. -/
def intern (m : RefModel) (s : String) : RefModel × Nat :=
  if m.refs s = 0 then
    ({ refs := Function.update m.refs s 1, lives := Function.update m.lives s (m.lives s + 1) },
      m.lives s + 1)
  else ({ m with refs := Function.update m.refs s (m.refs s + 1) }, m.lives s)

/-- One reference to `s` given back. -/
def release (m : RefModel) (s : String) : RefModel :=
  { m with refs := Function.update m.refs s (m.refs s - 1) }

@[simp] theorem intern_refs (m : RefModel) (s : String) :
    (m.intern s).1.refs = Function.update m.refs s (m.refs s + 1) := by
  unfold intern
  split
  · rename_i h
    rw [h]
  · rfl

theorem intern_lives (m : RefModel) (s : String) :
    (m.intern s).1.lives =
      if m.refs s = 0 then Function.update m.lives s (m.lives s + 1) else m.lives := by
  unfold intern
  split <;> rfl

/-- The reference handed out belongs to the current life of its text. -/
theorem intern_life (m : RefModel) (s : String) : (m.intern s).2 = (m.intern s).1.lives s := by
  unfold intern
  split <;> simp

@[simp] theorem release_refs (m : RefModel) (s : String) :
    (m.release s).refs = Function.update m.refs s (m.refs s - 1) := rfl

@[simp] theorem release_lives (m : RefModel) (s : String) : (m.release s).lives = m.lives := rfl

end RefModel

namespace StringTable

/-! ### Releasing a reference -/

/-- A release goes through exactly when the reference is the table's live entry for its text. -/
theorem release_isOk_iff (t : StringTable) (r : Interned) :
    (∃ t', t.release r = .ok t') ↔ t.IsLive r := by
  constructor
  · rintro ⟨t', h⟩
    unfold release at h
    cases he : t.find? r.text with
    | none => rw [he] at h; cases h
    | some e =>
      rw [he] at h
      dsimp only at h
      split at h
      · rename_i hs
        rw [IsLive, he, Option.map_some, hs]
      · cases h
  · intro h
    obtain ⟨e, he, hs⟩ := Option.map_eq_some_iff.1 h
    obtain ⟨t', ht', -⟩ := release_of_find? he hs
    exact ⟨t', ht'⟩

theorem release_isError_iff (t : StringTable) (r : Interned) :
    (∃ err, t.release r = .error err) ↔ ¬t.IsLive r := by
  rw [← release_isOk_iff]
  cases t.release r with
  | ok t' => simp
  | error err => simp

/-- `t'` keeps some entries of `t`, with their texts and stamps, and the next stamp. -/
structure Retains (t t' : StringTable) : Prop where
  /-- The next stamp is the same. -/
  nextStamp : t'.nextStamp = t.nextStamp
  /-- The texts are some of those of `t`, in order. -/
  texts : (t'.entries.map (·.text)).Sublist (t.entries.map (·.text))
  /-- Every entry is one of `t`'s, with another count. -/
  entry : ∀ e' ∈ t'.entries, ∃ e ∈ t.entries, e.text = e'.text ∧ e.stamp = e'.stamp

/-- Changing the count of some entries retains them all. -/
theorem retains_map_count (t : StringTable) (p : StringEntry → Bool) (n : StringEntry → Nat) :
    t.Retains { t with entries := t.entries.map fun x => if p x then { x with count := n x } else x } := by
  refine ⟨rfl, ?_, fun e' he' => ?_⟩
  · have hm : (t.entries.map fun x => if p x then { x with count := n x } else x).map (·.text) =
        t.entries.map (·.text) := by
      rw [List.map_map]
      exact List.map_congr_left fun x _ => by simp only [Function.comp_apply]; split <;> rfl
    rw [hm]
  · obtain ⟨x, hx, rfl⟩ := List.mem_map.1 he'
    exact ⟨x, hx, by split <;> rfl, by split <;> rfl⟩

/-- A release retains every entry but, perhaps, the one released. -/
theorem retains_release {t t' : StringTable} {r : Interned} (h : t.release r = .ok t') :
    t.Retains t' := by
  unfold release at h
  split at h
  · split at h
    · split at h
      · cases h
        exact ⟨rfl, List.filter_sublist.map _,
          fun e' he' => ⟨e', List.mem_of_mem_filter he', rfl, rfl⟩⟩
      · cases h
        exact retains_map_count t _ _
    · cases h
  · cases h

/-- An intern of a text with an entry retains every entry. -/
theorem retains_intern {t : StringTable} {s : String} {e : StringEntry} (he : t.find? s = some e) :
    t.Retains (t.intern s).1 := by
  unfold intern
  rw [he]
  exact retains_map_count t _ _

/-- An intern of a text without an entry adds one with the next stamp. -/
theorem intern_of_find?_eq_none {t : StringTable} {s : String} (hf : t.find? s = none) :
    (t.intern s).1.entries = t.entries ++ [⟨s, t.nextStamp, 1⟩] ∧
      (t.intern s).1.nextStamp = t.nextStamp + 1 ∧ (t.intern s).2 = ⟨s, t.nextStamp⟩ := by
  simp [intern, hf]

/-! ### Runs -/

/-- A table after interns and releases from a new one, each reference handed out (the
vocabulary's first) with the life it belongs to, and the model of the same calls.  A release
gives back a reference handed out before, as often as its copies allow, and is a step when it
goes through. -/
inductive Run : StringTable → List (Interned × Nat) → RefModel → Prop
  /-- A new table and its pins. -/
  | new : Run .new (pins.map fun r => (r, 1)) .new
  /-- An intern. -/
  | intern {t : StringTable} {hs : List (Interned × Nat)} {m : RefModel} (s : String) :
      Run t hs m → Run (t.intern s).1 (hs ++ [((t.intern s).2, (m.intern s).2)]) (m.intern s).1
  /-- A release that goes through. -/
  | release {t t' : StringTable} {hs : List (Interned × Nat)} {m : RefModel} {p : Interned × Nat} :
      Run t hs m → p ∈ hs → t.release p.1 = .ok t' → Run t' hs (m.release p.1.text)

/-- The stamps of a table numbered by the lives of its model: `σ s g` is the stamp of the entry
`s` had in its `g`-th life. -/
structure Lives (σ : String → Nat → Nat) (t : StringTable) (hs : List (Interned × Nat))
    (m : RefModel) : Prop where
  /-- The table counts the model's references. -/
  refcount : ∀ s, t.refcount? s = present (m.refs s)
  /-- One entry per text. -/
  texts_nodup : (t.entries.map (·.text)).Nodup
  /-- An entry carries the stamp of its text's current life. -/
  entry_stamp : ∀ e ∈ t.entries, e.stamp = σ e.text (m.lives e.text)
  /-- A reference carries the stamp of its life, a life that has begun. -/
  handle : ∀ p ∈ hs, p.1.stamp = σ p.1.text p.2 ∧ 1 ≤ p.2 ∧ p.2 ≤ m.lives p.1.text
  /-- Lives that have begun have stamps of their own. -/
  injective : ∀ s g s' g', 1 ≤ g → g ≤ m.lives s → 1 ≤ g' → g' ≤ m.lives s' →
    σ s g = σ s' g' → s = s' ∧ g = g'
  /-- Lives that have begun have stamps below the next one. -/
  below : ∀ s g, 1 ≤ g → g ≤ m.lives s → σ s g < t.nextStamp
  /-- A text with references outstanding is in a life. -/
  lives_pos : ∀ s, 0 < m.refs s → 1 ≤ m.lives s

namespace Lives

variable {σ : String → Nat → Nat} {t : StringTable} {hs : List (Interned × Nat)} {m : RefModel}

/-- The entry of a text with references outstanding, and only of such a text. -/
theorem find?_eq_some_iff (hl : t.Lives σ hs m) (s : String) :
    (∃ e, t.find? s = some e) ↔ 0 < m.refs s := by
  have h := hl.refcount s
  rw [refcount?_eq] at h
  constructor
  · rintro ⟨e, he⟩
    rw [he, Option.map_some] at h
    exact (some_eq_present.1 h).2
  · intro hpos
    rw [present_of_pos hpos] at h
    obtain ⟨e, he, -⟩ := Option.map_eq_some_iff.1 h
    exact ⟨e, he⟩

/-- The entry of a text carries the stamp of the text's current life. -/
theorem stamp_of_find? (hl : t.Lives σ hs m) {s : String} {e : StringEntry} (he : t.find? s = some e) :
    e.stamp = σ s (m.lives s) := by
  rw [hl.entry_stamp e (List.mem_of_find?_eq_some he), key_of_find? StringEntry.text he]

/-- A reference is live exactly when its text has references outstanding and it belongs to the
current life. -/
theorem isLive_iff (hl : t.Lives σ hs m) {p : Interned × Nat} (hp : p ∈ hs) :
    t.IsLive p.1 ↔ 0 < m.refs p.1.text ∧ p.2 = m.lives p.1.text := by
  obtain ⟨hstamp, hge, hle⟩ := hl.handle p hp
  constructor
  · intro h
    obtain ⟨e, he, hs⟩ := Option.map_eq_some_iff.1 h
    refine ⟨(hl.find?_eq_some_iff _).1 ⟨e, he⟩, ?_⟩
    have hpos := hl.lives_pos _ ((hl.find?_eq_some_iff _).1 ⟨e, he⟩)
    rw [hl.stamp_of_find? he, hstamp] at hs
    exact (hl.injective _ _ _ _ hpos (Nat.le_refl _) hge hle hs).2.symm
  · rintro ⟨hpos, hg⟩
    obtain ⟨e, he⟩ := (hl.find?_eq_some_iff _).2 hpos
    rw [IsLive, he, Option.map_some, hl.stamp_of_find? he, hstamp, hg]

/-- Two references are one entry exactly when they belong to one life of one text. -/
theorem stamp_eq_iff (hl : t.Lives σ hs m) {p q : Interned × Nat} (hp : p ∈ hs) (hq : q ∈ hs) :
    p.1.stamp = q.1.stamp ↔ p.1.text = q.1.text ∧ p.2 = q.2 := by
  obtain ⟨hps, hpge, hple⟩ := hl.handle p hp
  obtain ⟨hqs, hqge, hqle⟩ := hl.handle q hq
  constructor
  · intro h
    rw [hps, hqs] at h
    exact hl.injective _ _ _ _ hpge hple hqge hqle h
  · rintro ⟨ht, hg⟩
    rw [hps, hqs, ht, hg]

/-- The table has one entry for each text with references outstanding. -/
theorem size_eq_ncard (hl : t.Lives σ hs m) : t.size = {s | 0 < m.refs s}.ncard := by
  have hset : {s | 0 < m.refs s} = ↑(t.entries.map (·.text)).toFinset := by
    ext s
    simp only [Set.mem_ofPred_eq, Finset.mem_coe, List.mem_toFinset]
    rw [← hl.find?_eq_some_iff]
    constructor
    · rintro ⟨e, he⟩
      exact key_of_find? StringEntry.text he ▸ List.mem_map_of_mem (List.mem_of_find?_eq_some he)
    · intro hs
      obtain ⟨e, he, rfl⟩ := List.mem_map.1 hs
      exact ⟨e, find?_key_of_mem StringEntry.text hl.texts_nodup he⟩
  rw [hset, Set.ncard_coe_finset, List.toFinset_card_of_nodup hl.texts_nodup, List.length_map]
  rfl

/-! #### The calls -/

/-- A change that retains entries, keeps every life and adds references of begun lives keeps the
numbering, once the table counts the new references. -/
theorem retain (hl : t.Lives σ hs m) {t' : StringTable} {hs' : List (Interned × Nat)}
    {m' : RefModel} (hr : t.Retains t') (hlives : m'.lives = m.lives)
    (hrefs : ∀ s, t'.refcount? s = present (m'.refs s))
    (hhs : ∀ p ∈ hs', p.1.stamp = σ p.1.text p.2 ∧ 1 ≤ p.2 ∧ p.2 ≤ m.lives p.1.text)
    (hpos : ∀ s, 0 < m'.refs s → 1 ≤ m.lives s) : t'.Lives σ hs' m' := by
  rw [← hlives] at hhs hpos
  refine ⟨hrefs, hl.texts_nodup.sublist hr.texts, fun e' he' => ?_, hhs, ?_, ?_, hpos⟩
  · obtain ⟨e, he, htext, hstamp⟩ := hr.entry e' he'
    rw [← htext, ← hstamp, hlives]
    exact hl.entry_stamp e he
  · rw [hlives]
    exact hl.injective
  · rw [hlives, hr.nextStamp]
    exact hl.below

/-- An intern adds one reference to the table and to the model alike. -/
theorem refcount_intern (hl : t.Lives σ hs m) (s x : String) :
    (t.intern s).1.refcount? x = present ((m.intern s).1.refs x) := by
  rw [t.refcount?_intern (hl.refcount s), RefModel.intern_refs]
  by_cases h : x = s
  · rw [if_pos h, h, Function.update_self]
  · rw [if_neg h, hl.refcount x, Function.update_of_ne h]

/-- An intern of a text in a life: its entry gains a reference, which belongs to the current
life. -/
theorem intern_live (hl : t.Lives σ hs m) {s : String} (hpos : 0 < m.refs s) :
    (t.intern s).1.Lives σ (hs ++ [((t.intern s).2, (m.intern s).2)]) (m.intern s).1 := by
  have hlives : (m.intern s).1.lives = m.lives := by
    rw [RefModel.intern_lives, if_neg (Nat.pos_iff_ne_zero.1 hpos)]
  obtain ⟨e₀, he₀⟩ := (hl.find?_eq_some_iff s).2 hpos
  rcases intern_cases t s with ⟨e, he, hr, -⟩ | ⟨hf, -, -⟩
  · rw [he₀] at he
    cases he
    refine hl.retain (retains_intern he₀) hlives (hl.refcount_intern s) (fun p hp => ?_)
      (fun x hx' => ?_)
    · rcases List.mem_append.1 hp with hp | hp
      · exact hl.handle p hp
      · -- The reference handed out is the entry's, in the current life.
        rw [List.mem_singleton.1 hp, RefModel.intern_life, hlives, hr]
        have hs : e₀.text = s := key_of_find? StringEntry.text he₀
        have h1 := hl.lives_pos s hpos
        exact ⟨by simp [StringEntry.ref, hs, hl.stamp_of_find? he₀], by simpa [StringEntry.ref, hs],
          by simp [StringEntry.ref, hs]⟩
    · by_cases h : x = s
      · subst h
        exact hl.lives_pos x hpos
      · rw [RefModel.intern_refs, Function.update_of_ne h] at hx'
        exact hl.lives_pos x hx'
  · rw [he₀] at hf
    cases hf

/-- The numbering `σ` with the stamp `n` for the life `g` of the text `s`. -/
def extend (σ : String → Nat → Nat) (s : String) (g n : Nat) : String → Nat → Nat :=
  fun x k => if x = s ∧ k = g then n else σ x k

/-- A new life of `s`, numbered by the next stamp, keeps the lives that have begun apart and below
the next stamp after it. -/
theorem extend_injective (hl : t.Lives σ hs m) (s : String) :
    (∀ x g x' g', 1 ≤ g → g ≤ Function.update m.lives s (m.lives s + 1) x → 1 ≤ g' →
      g' ≤ Function.update m.lives s (m.lives s + 1) x' →
      extend σ s (m.lives s + 1) t.nextStamp x g = extend σ s (m.lives s + 1) t.nextStamp x' g' →
        x = x' ∧ g = g') ∧
    ∀ x g, 1 ≤ g → g ≤ Function.update m.lives s (m.lives s + 1) x →
      extend σ s (m.lives s + 1) t.nextStamp x g < t.nextStamp + 1 := by
  -- A life other than the new one had begun before, so its stamp is below the next one.
  have hold : ∀ y k, 1 ≤ k → k ≤ Function.update m.lives s (m.lives s + 1) y →
      ¬(y = s ∧ k = m.lives s + 1) → k ≤ m.lives y ∧ extend σ s (m.lives s + 1) t.nextStamp y k = σ y k := by
    intro y k hk1 hk2 hnew
    have hle : k ≤ m.lives y := by
      by_cases hy : y = s
      · subst hy
        rw [Function.update_self] at hk2
        have : k ≠ m.lives y + 1 := fun h => hnew ⟨rfl, h⟩
        omega
      · rwa [Function.update_of_ne hy] at hk2
    exact ⟨hle, if_neg hnew⟩
  refine ⟨fun x g x' g' h1 h2 h1' h2' he => ?_, fun x g h1 h2 => ?_⟩
  · by_cases hx : x = s ∧ g = m.lives s + 1 <;> by_cases hx' : x' = s ∧ g' = m.lives s + 1
    · exact ⟨hx.1.trans hx'.1.symm, hx.2.trans hx'.2.symm⟩
    · obtain ⟨hle', he'⟩ := hold x' g' h1' h2' hx'
      rw [extend, if_pos hx, he'] at he
      exact absurd he (Nat.ne_of_gt (hl.below x' g' h1' hle'))
    · obtain ⟨hle, he₁⟩ := hold x g h1 h2 hx
      rw [he₁, extend, if_pos hx'] at he
      exact absurd he (Nat.ne_of_lt (hl.below x g h1 hle))
    · obtain ⟨hle, he₁⟩ := hold x g h1 h2 hx
      obtain ⟨hle', he'⟩ := hold x' g' h1' h2' hx'
      rw [he₁, he'] at he
      exact hl.injective x g x' g' h1 hle h1' hle' he
  · by_cases hx : x = s ∧ g = m.lives s + 1
    · rw [extend, if_pos hx]
      exact Nat.lt_succ_self _
    · obtain ⟨hle, he⟩ := hold x g h1 h2 hx
      rw [he]
      exact Nat.lt_succ_of_lt (hl.below x g h1 hle)

/-- An intern of a text with no reference outstanding: a new entry, with the next stamp, for a
new life. -/
theorem intern_new (hl : t.Lives σ hs m) {s : String} (h0 : m.refs s = 0) :
    (t.intern s).1.Lives (extend σ s (m.lives s + 1) t.nextStamp)
      (hs ++ [((t.intern s).2, (m.intern s).2)]) (m.intern s).1 := by
  have hlives : (m.intern s).1.lives = Function.update m.lives s (m.lives s + 1) := by
    rw [RefModel.intern_lives, if_pos h0]
  have hf : t.find? s = none := by
    rw [← Option.not_isSome_iff_eq_none, Option.isSome_iff_exists, hl.find?_eq_some_iff, h0]
    exact Nat.lt_irrefl 0
  have hnot : s ∉ t.entries.map (·.text) := by
    intro hs'
    obtain ⟨e, he, rfl⟩ := List.mem_map.1 hs'
    rw [find?_eq, find?_key_of_mem StringEntry.text hl.texts_nodup he] at hf
    cases hf
  obtain ⟨hent, hnext, href⟩ := intern_of_find?_eq_none hf
  -- Earlier lives keep their stamps.
  have hold : ∀ x g, g ≤ m.lives x → extend σ s (m.lives s + 1) t.nextStamp x g = σ x g :=
    fun x g hg => if_neg fun ⟨hx, hg'⟩ => by subst hx; omega
  obtain ⟨hinj, hbelow⟩ := hl.extend_injective s
  refine ⟨hl.refcount_intern s, ?_, fun e he => ?_, fun p hp => ?_, ?_, ?_, fun x _ => ?_⟩
  · rw [hent, List.map_append, List.map_singleton]
    exact hl.texts_nodup.append (List.nodup_singleton _) fun a ha hb => by
      rw [List.mem_singleton.1 hb] at ha
      exact hnot ha
  · rw [hent] at he
    rw [hlives]
    rcases List.mem_append.1 he with he | he
    · have hne : e.text ≠ s := fun h => hnot (h ▸ List.mem_map_of_mem he)
      rw [Function.update_of_ne hne, hold _ _ (Nat.le_refl _)]
      exact hl.entry_stamp e he
    · rw [List.mem_singleton.1 he]
      simp [extend]
  · rw [hlives]
    rcases List.mem_append.1 hp with hp | hp
    · obtain ⟨hst, hge, hle⟩ := hl.handle p hp
      refine ⟨by rw [hold _ _ hle]; exact hst, hge, ?_⟩
      by_cases h : p.1.text = s
      · rw [h, Function.update_self]
        rw [h] at hle
        omega
      · rwa [Function.update_of_ne h]
    · rw [List.mem_singleton.1 hp, href, RefModel.intern_life, hlives]
      simp [extend]
  · rw [hlives]
    exact hinj
  · rw [hlives, hnext]
    exact hbelow
  · rw [hlives]
    by_cases hx : x = s
    · subst hx
      simp
    · rw [Function.update_of_ne hx]
      refine hl.lives_pos x ?_
      rwa [RefModel.intern_refs, Function.update_of_ne hx] at *

/-- A release that goes through gives back one reference of the live entry. -/
theorem release (hl : t.Lives σ hs m) {p : Interned × Nat} {t' : StringTable}
    (h : t.release p.1 = .ok t') : t'.Lives σ hs (m.release p.1.text) := by
  obtain ⟨e, he, hst⟩ := Option.map_eq_some_iff.1 ((release_isOk_iff t p.1).1 ⟨t', h⟩)
  obtain ⟨t'', h', hx⟩ := release_of_find? he hst
  rw [h] at h'
  cases h'
  obtain ⟨hcount, hpos⟩ := some_eq_present.1 (by rw [← hl.refcount _, refcount?_eq, he]; rfl)
  dsimp only at hcount
  refine hl.retain (retains_release h) rfl (fun x => ?_) hl.handle (fun x hx' => ?_)
  · rw [refcount?_eq, hx, RefModel.release_refs]
    by_cases hxt : x = p.1.text
    · subst hxt
      rw [if_pos rfl, Function.update_self]
      split
      · rw [Option.map_none, present, if_pos (by omega)]
      · rw [Option.map_some, present_of_pos (by omega), hcount]
    · rw [if_neg hxt, ← refcount?_eq, hl.refcount x, Function.update_of_ne hxt]
  · by_cases hxt : x = p.1.text
    · subst hxt
      exact hl.lives_pos _ hpos
    · rw [RefModel.release_refs, Function.update_of_ne hxt] at hx'
      exact hl.lives_pos x hx'

end Lives

/-! ### A new table, and every run -/

theorem pins_texts : pins.map (·.text) = RefModel.vocabTexts := rfl

/-- The stamp of a word of the vocabulary is its place in the vocabulary. -/
theorem idxOf_vocab (w : VocabWord) : RefModel.vocabTexts.idxOf w.text = w.index := by
  cases w <;> decide

/-- A life of a new table's model is the first life of a word of the vocabulary. -/
theorem new_life {s : String} {g : Nat} (h1 : 1 ≤ g) (h2 : g ≤ RefModel.new.lives s) :
    s ∈ RefModel.vocabTexts ∧ g = 1 := by
  unfold RefModel.new at h2
  dsimp only at h2
  split at h2
  · exact ⟨‹_›, by omega⟩
  · omega

/-- A new table numbers the first lives of the vocabulary by their places in it. -/
theorem lives_new :
    StringTable.new.Lives (fun s _ => RefModel.vocabTexts.idxOf s) (pins.map fun r => (r, 1)) .new where
  refcount s := by
    rw [holds_new.refcount s, pins_texts_nodup.count, pins_texts]
    rfl
  texts_nodup := pins_texts_nodup
  entry_stamp e he := by
    obtain ⟨w, -, rfl⟩ := List.mem_map.1 he
    exact (idxOf_vocab w).symm
  handle p hp := by
    obtain ⟨r, hr, rfl⟩ := List.mem_map.1 hp
    obtain ⟨w, -, rfl⟩ := List.mem_map.1 hr
    have hw : w.text ∈ RefModel.vocabTexts := List.mem_map_of_mem (VocabWord.mem_all w)
    refine ⟨(idxOf_vocab w).symm, Nat.le_refl _, ?_⟩
    simp [RefModel.new, StringTable.new, hw]
  injective s g s' g' h1 h2 h1' h2' he := by
    obtain ⟨hs, rfl⟩ := new_life h1 h2
    obtain ⟨-, rfl⟩ := new_life h1' h2'
    exact ⟨(List.idxOf_inj hs).1 he, rfl⟩
  below s g h1 h2 := List.idxOf_lt_length_iff.2 (new_life h1 h2).1
  lives_pos s hpos := by
    unfold RefModel.new at hpos ⊢
    dsimp only at hpos ⊢
    split at hpos
    · rw [if_pos ‹_›]
    · cases hpos

/-- Every run keeps a numbering of its stamps by lives. -/
theorem Run.lives {t : StringTable} {hs : List (Interned × Nat)} {m : RefModel} (hr : t.Run hs m) :
    ∃ σ, t.Lives σ hs m := by
  induction hr with
  | new => exact ⟨_, lives_new⟩
  | @intern t hs m s _ ih =>
    obtain ⟨σ, hl⟩ := ih
    by_cases h0 : m.refs s = 0
    · exact ⟨_, hl.intern_new h0⟩
    · exact ⟨σ, hl.intern_live (Nat.pos_of_ne_zero h0)⟩
  | release _ _ h ih =>
    obtain ⟨σ, hl⟩ := ih
    exact ⟨σ, hl.release h⟩

/-- **The string table follows its reference model.**  After any interns and releases from a new
table: a text's count is its outstanding references when there are some, and there is no entry
otherwise; the table has one entry per text with references outstanding; two references handed
out are the same entry exactly when they are for one text and from one life of its entry; a
reference is the live entry exactly when its text has references outstanding and it is from the
current life; and releasing it stops the run exactly when its text has no entry or the entry is
of a later life than the reference. -/
theorem Run.reference_model {t : StringTable} {hs : List (Interned × Nat)} {m : RefModel}
    (hr : t.Run hs m) :
    (∀ s, t.refcount? s = present (m.refs s)) ∧
    t.size = {s | 0 < m.refs s}.ncard ∧
    (∀ p ∈ hs, ∀ q ∈ hs, p.1.stamp = q.1.stamp ↔ p.1.text = q.1.text ∧ p.2 = q.2) ∧
    (∀ p ∈ hs, t.IsLive p.1 ↔ 0 < m.refs p.1.text ∧ p.2 = m.lives p.1.text) ∧
    (∀ p ∈ hs, (∃ err, t.release p.1 = .error err) ↔
      t.refcount? p.1.text = none ∨ p.2 < m.lives p.1.text) := by
  obtain ⟨σ, hl⟩ := hr.lives
  refine ⟨hl.refcount, hl.size_eq_ncard, fun p hp q hq => hl.stamp_eq_iff hp hq,
    fun p hp => hl.isLive_iff hp, fun p hp => ?_⟩
  -- A reference is of the current life or an earlier one.
  have hle := (hl.handle p hp).2.2
  rw [release_isError_iff, hl.isLive_iff hp, hl.refcount, present_eq_none]
  omega

/-- Interning `"a"`, giving the reference back, and interning `"a"` again makes a new entry in a
second life: giving back the first reference again stops the run. -/
theorem stale_reference_refused :
    Run ({ StringTable.new with nextStamp := 11 }.intern "a").1
      ((pins.map fun r => (r, 1)) ++ [(⟨"a", 10⟩, 1)] ++ [(⟨"a", 11⟩, 2)])
      (((RefModel.new.intern "a").1.release "a").intern "a").1 ∧
    ∃ err, ({ StringTable.new with nextStamp := 11 }.intern "a").1.release ⟨"a", 10⟩ = .error err :=
  have hr : Run ({ StringTable.new with nextStamp := 11 }.intern "a").1
      ((pins.map fun r => (r, 1)) ++ [(⟨"a", 10⟩, 1)] ++ [(⟨"a", 11⟩, 2)])
      (((RefModel.new.intern "a").1.release "a").intern "a").1 :=
    .intern "a" (.release (.intern "a" .new) (List.mem_append_right _ (List.mem_singleton_self _))
      rfl)
  ⟨hr, ((hr.reference_model).2.2.2.2 (⟨"a", 10⟩, 1)
    (List.mem_append_left _ (List.mem_append_right _ (List.mem_singleton_self _)))).2
      (.inr (by decide))⟩

end StringTable

end HeapSampler
