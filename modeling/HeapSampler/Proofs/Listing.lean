import HeapSampler.Proofs.Lifetimes
import Mathlib.Logic.Relation

/-!
# A frozen list lists the table

A profile names strings by their places in a list frozen from the string table
(`StringTable.snapshot`): the vocabulary's empty text first, then every entry whose text is not
empty.  This file proves that, as long as the empty text's entry is still the one the table was
made with, the list is exactly the table: each entry once, the empty one first, at places that
its stamps tell apart, and as long as the table.  A reference live in the table is listed as
itself.  The list is a value: calls made on the table afterwards change none of its answers, and
a reference to an entry made after it was frozen has no place in it, since its stamp was given
out later.

The entry of the empty text is the one exception the list makes, and the statement needs it.
The vocabulary's pin on the empty text is an ordinary reference; once it is given back and no
other reference to the empty text is left, the entry goes, and the list still begins with the
pin, one string longer than the table.  An empty text interned after that gets a new entry,
which is live and not listed (`snapshot_after_empty_pin_released`).

## Main definitions

* `StringTable.Step`, `StringTable.Later` — the tables that later calls make.
* `StringTable.Extends` — what a later table keeps of the stamps given out before.

## Main results

* `StringIndex.position?_getElem` — a list with distinct stamps finds each listed reference at
  its own place.
* `StringTable.snapshot_perm` — the frozen list is the table's references, the empty text's
  first.
* `StringTable.Run.snapshot_lists` — what the frozen list of a table after any calls holds.
-/

namespace HeapSampler

namespace StringIndex

/-- A list whose stamps are all different finds each listed reference at its own place. -/
theorem position?_getElem {ix : StringIndex} (hnd : (ix.strings.map (·.stamp)).Nodup) {i : Nat}
    (hi : i < ix.strings.length) : ix.position? ix.strings[i] = some i := by
  rw [position?, List.findIdx?_eq_some_iff_getElem]
  refine ⟨hi, by simp, fun j hj => ?_⟩
  -- An earlier place holds another stamp.
  have hj' : j < (ix.strings.map (·.stamp)).length := by
    rw [List.length_map]
    omega
  have hi' : i < (ix.strings.map (·.stamp)).length := by
    rw [List.length_map]
    exact hi
  have hne : (ix.strings.map (·.stamp))[j] ≠ (ix.strings.map (·.stamp))[i] :=
    fun e => Nat.ne_of_lt hj ((hnd.getElem_inj_iff).1 e)
  simpa using hne

end StringIndex

namespace StringTable

variable {t t' : StringTable}

/-! ### The frozen list as a permutation of the table -/

/-- With one entry per text and the empty text's entry the vocabulary's, the frozen list is the
table's references: the empty text's first, then the others. -/
theorem snapshot_perm (ht : t.Stamped) (htexts : (t.entries.map (·.text)).Nodup)
    (hempty : t.IsLive (t.vocabulary .empty)) :
    t.snapshot.strings.Perm (t.entries.map StringEntry.ref) := by
  rw [ht.vocabulary_apply] at hempty
  obtain ⟨e₀, he₀, hs₀⟩ := Option.map_eq_some_iff.1 hempty
  have ht₀ : e₀.text = "" := key_of_find? StringEntry.text he₀
  have hmem : e₀ ∈ t.entries := List.mem_of_find?_eq_some he₀
  -- The empty text's entry is the pin, and every other entry has a text that is not empty.
  have href : e₀.ref = ⟨"", 0⟩ := by
    rw [StringEntry.ref, ht₀, hs₀]
    rfl
  have hsplit := (perm_cons_filter_key StringEntry.text htexts hmem).map StringEntry.ref
  rw [List.map_cons, href, ht₀] at hsplit
  rw [ht.snapshot_strings]
  exact hsplit.symm

/-- The stamps a frozen list holds are different when the table's are. -/
theorem snapshot_stamps_nodup (ht : t.Stamped) (htexts : (t.entries.map (·.text)).Nodup)
    (hempty : t.IsLive (t.vocabulary .empty)) : (t.snapshot.strings.map (·.stamp)).Nodup := by
  have hp := ((snapshot_perm ht htexts hempty).map (·.stamp)).nodup_iff
  rw [List.map_map] at hp
  exact hp.2 ht.stamps_nodup

/-- Every stamp a frozen list holds had been given out when it was frozen. -/
theorem Stamped.stamp_lt_of_mem_snapshot (ht : t.Stamped) {x : Interned}
    (hx : x ∈ t.snapshot.strings) : x.stamp < t.nextStamp := by
  rcases ht.mem_snapshot hx with rfl | ⟨e, he, -, rfl⟩
  · -- The empty text's pin has the first stamp of the vocabulary.
    exact Nat.lt_of_lt_of_le (VocabWord.index_lt .empty) ht.vocabulary_le
  · exact ht.stamp_lt e he

/-- A live reference is listed as itself. -/
theorem Stamped.getElem?_position? (ht : t.Stamped) (hempty : t.IsLive (t.vocabulary .empty))
    {r : Interned} (hr : t.IsLive r) :
    ∃ i, t.snapshot.position? r = some i ∧ t.snapshot.strings[i]? = some r := by
  obtain ⟨i, hi, htext⟩ := ht.finds_of_isLive hempty hr
  obtain ⟨hlt, hp, -⟩ := List.findIdx?_eq_some_iff_getElem.1 hi
  have hstamp : t.snapshot.strings[i].stamp = r.stamp := by simpa using hp
  have htext' : t.snapshot.strings[i].text = r.text := by
    rw [StringIndex.texts, List.getElem?_map, List.getElem?_eq_getElem hlt] at htext
    exact Option.some.inj htext
  refine ⟨i, hi, ?_⟩
  rw [List.getElem?_eq_getElem hlt, Option.some.injEq]
  obtain ⟨text, stamp⟩ := r
  dsimp only at hstamp htext'
  rw [← hstamp, ← htext']

/-! ### Later calls -/

/-- One call on a string table: an intern, or a release that goes through. -/
inductive Step : StringTable → StringTable → Prop
  /-- An intern. -/
  | intern (t : StringTable) (s : String) : Step t (t.intern s).1
  /-- A release that goes through. -/
  | release {t t' : StringTable} (r : Interned) : t.release r = .ok t' → Step t t'

/-- The tables that any calls make from a table. -/
def Later : StringTable → StringTable → Prop := Relation.ReflTransGen Step

/-- What a later table keeps of the stamps given out before: the next stamp has only grown, and
an entry with an older stamp is an entry of the earlier table, with its text. -/
structure Extends (t t' : StringTable) : Prop where
  /-- The next stamp has only grown. -/
  nextStamp_le : t.nextStamp ≤ t'.nextStamp
  /-- An entry with a stamp given out before was there before. -/
  entry : ∀ e' ∈ t'.entries, e'.stamp < t.nextStamp →
    ∃ e ∈ t.entries, e.text = e'.text ∧ e.stamp = e'.stamp

namespace Extends

theorem refl (t : StringTable) : Extends t t :=
  ⟨Nat.le_refl _, fun e he _ => ⟨e, he, rfl, rfl⟩⟩

theorem trans {t₁ t₂ : StringTable} (h₁ : Extends t t₁) (h₂ : Extends t₁ t₂) : Extends t t₂ where
  nextStamp_le := Nat.le_trans h₁.nextStamp_le h₂.nextStamp_le
  entry e₂ he₂ hlt := by
    obtain ⟨e₁, he₁, htext₁, hstamp₁⟩ := h₂.entry e₂ he₂ (Nat.lt_of_lt_of_le hlt h₁.nextStamp_le)
    obtain ⟨e, he, htext, hstamp⟩ := h₁.entry e₁ he₁ (hstamp₁ ▸ hlt)
    exact ⟨e, he, htext.trans htext₁, hstamp.trans hstamp₁⟩

theorem of_retains (h : t.Retains t') : Extends t t' :=
  ⟨Nat.le_of_eq h.nextStamp.symm, fun e' he' _ => h.entry e' he'⟩

/-- A call keeps the stamps given out before. -/
theorem of_step (h : Step t t') : Extends t t' := by
  cases h with
  | intern s =>
    cases hf : t.find? s with
    | some e => exact of_retains (retains_intern hf)
    | none =>
      -- A new entry takes the next stamp, which no earlier entry has.
      obtain ⟨hentries, hnext, -⟩ := intern_of_find?_eq_none hf
      refine ⟨by rw [hnext]; exact Nat.le_succ _, fun e' he' hlt => ?_⟩
      rw [hentries] at he'
      rcases List.mem_append.1 he' with he' | he'
      · exact ⟨e', he', rfl, rfl⟩
      · rw [List.mem_singleton.1 he'] at hlt
        exact absurd hlt (Nat.lt_irrefl _)
  | release r h => exact of_retains (retains_release h)

theorem of_later (h : Later t t') : Extends t t' := by
  induction h with
  | refl => exact refl t
  | tail _ hs ih => exact ih.trans (of_step hs)

end Extends

/-- A reference live in a later table was listed when the table was frozen exactly when its
stamp had been given out by then. -/
theorem Stamped.position?_isSome_iff (ht : t.Stamped) (htexts : (t.entries.map (·.text)).Nodup)
    (hempty : t.IsLive (t.vocabulary .empty)) (hext : Extends t t') {r : Interned}
    (hr : t'.IsLive r) : (t.snapshot.position? r).isSome ↔ r.stamp < t.nextStamp := by
  constructor
  · intro hsome
    obtain ⟨i, hi⟩ := Option.isSome_iff_exists.1 hsome
    obtain ⟨hlt, hp, -⟩ := List.findIdx?_eq_some_iff_getElem.1 hi
    have hstamp : t.snapshot.strings[i].stamp = r.stamp := by simpa using hp
    rw [← hstamp]
    exact ht.stamp_lt_of_mem_snapshot (List.getElem_mem hlt)
  · intro hlt
    -- The entry of the reference was already in the table, so the reference was live there.
    obtain ⟨e', he', hs'⟩ := Option.map_eq_some_iff.1 hr
    have htext' : e'.text = r.text := key_of_find? StringEntry.text he'
    obtain ⟨e, he, htext, hstamp⟩ :=
      hext.entry e' (List.mem_of_find?_eq_some he') (hs' ▸ hlt)
    have hfind : t.find? r.text = some e := by
      rw [← htext', ← htext]
      exact find?_key_of_mem StringEntry.text htexts he
    have hlive : t.IsLive r := by
      rw [IsLive, hfind, Option.map_some, hstamp, hs']
    obtain ⟨i, hi, -⟩ := ht.getElem?_position? hempty hlive
    rw [hi]
    rfl

/-! ### Tables after any calls -/

/-- Every table after any calls is stamped. -/
theorem Run.stamped {hs : List (Interned × Nat)} {m : RefModel} (hr : t.Run hs m) : t.Stamped := by
  induction hr with
  | new => exact stamped_new
  | intern s _ ih => exact ih.intern s
  | release _ _ h ih => exact ih.release h

/-- **The frozen list lists the table.**  After any interns and releases from a new table, giving
back pins of the vocabulary included, as long as the empty text's entry is still the one the
table was made with: the frozen list begins with the vocabulary's empty text and is the table's
references, each once; a live reference is listed as itself; each listed reference is found at
its own place; the list is as long as the table; and after any later calls, a reference live
then has a place exactly when its stamp was given out before the list was frozen, so the
reference of an entry made later has none. -/
theorem Run.snapshot_lists {hs : List (Interned × Nat)} {m : RefModel} (hr : t.Run hs m)
    (hempty : t.IsLive (t.vocabulary .empty)) :
    t.snapshot.strings.head? = some (t.vocabulary .empty) ∧
      t.snapshot.strings.Perm (t.entries.map StringEntry.ref) ∧
      (∀ r, t.IsLive r → ∃ i, t.snapshot.position? r = some i ∧ t.snapshot.strings[i]? = some r) ∧
      (∀ i (hi : i < t.snapshot.strings.length), t.snapshot.position? t.snapshot.strings[i] = some i) ∧
      t.snapshot.size = t.size ∧
      ∀ t', Later t t' → ∀ r, t'.IsLive r → ((t.snapshot.position? r).isSome ↔ r.stamp < t.nextStamp) := by
  have ht := hr.stamped
  have htexts : (t.entries.map (·.text)).Nodup := by
    obtain ⟨σ, hl⟩ := hr.lives
    exact hl.texts_nodup
  have hperm := snapshot_perm ht htexts hempty
  refine ⟨rfl, hperm, fun r hr' => ht.getElem?_position? hempty hr', fun i hi => ?_, ?_,
    fun t' hlater r hr' => ht.position?_isSome_iff htexts hempty (Extends.of_later hlater) hr'⟩
  · exact StringIndex.position?_getElem (snapshot_stamps_nodup ht htexts hempty) hi
  · rw [StringIndex.size, hperm.length_eq, List.length_map]
    rfl

/-- A table with one text interned besides the vocabulary lists it. -/
theorem snapshot_lists_after_one_intern :
    ∃ (hs : List (Interned × Nat)) (m : RefModel), (StringTable.new.intern "a").1.Run hs m ∧
      (StringTable.new.intern "a").1.IsLive ((StringTable.new.intern "a").1.vocabulary .empty) ∧
      (StringTable.new.intern "a").1.snapshot.size = (StringTable.new.intern "a").1.size :=
  have hr := Run.intern "a" Run.new
  have hempty : (StringTable.new.intern "a").1.IsLive
      ((StringTable.new.intern "a").1.vocabulary .empty) := rfl
  ⟨_, _, hr, hempty, (hr.snapshot_lists hempty).2.2.2.2.1⟩

/-- Giving back the vocabulary's pin on the empty text takes its entry out: the frozen list then
holds one string more than the table.  Interning the empty text again makes a new entry, whose
reference is live and has no place in the frozen list. -/
theorem snapshot_after_empty_pin_released :
    ∃ (t : StringTable) (hs : List (Interned × Nat)) (m : RefModel), t.Run hs m ∧
      t.snapshot.size = t.size + 1 ∧ (t.intern "").1.Run (hs ++ [((t.intern "").2, (m.intern "").2)])
        (m.intern "").1 ∧
      (t.intern "").1.IsLive (t.intern "").2 ∧ (t.intern "").1.snapshot.position? (t.intern "").2 = none := by
  have hpin : (StringTable.new.vocabulary .empty, 1) ∈ pins.map fun r => (r, 1) :=
    List.mem_map_of_mem (List.mem_map_of_mem (VocabWord.mem_all .empty))
  -- The pin is the empty text's only reference: its entry goes.
  have ht : StringTable.new.release (StringTable.new.vocabulary .empty) =
      .ok { StringTable.new with entries := StringTable.new.entries.filter (·.text != "") } := rfl
  have hr := Run.release .new hpin ht
  exact ⟨_, _, _, hr, by decide, .intern "" hr, rfl, by decide⟩

end StringTable

end HeapSampler
