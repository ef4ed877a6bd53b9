import HeapSampler.Proofs.Tables
import HeapSampler.Strings.Table

/-!
# Positions in a frozen string list

A profile refers to a string by its position in a list frozen from the string table, and the
position of a reference is found by its stamp, not by its text.  This file says when a
reference has a position and what text stands there.

Every table that interning and releasing make from a new one is `StringTable.Stamped`: it keeps
the vocabulary it was made with, no two entries share a stamp, every stamp is below the next
one, and the stamps the vocabulary was made with name only the vocabulary's texts.  In such a
table a reference whose stamp names no other text (`StringTable.Agrees`) is listed, if at
all, at a position holding its own text; the words of the vocabulary and every reference that
is still the live entry for its text (`StringTable.IsLive`) agree.  A live reference is listed
as soon as the empty text's entry is still the one the table was made with: the frozen list
puts the vocabulary's empty text first and leaves out every other entry for the empty text.

## Main definitions

* `StringTable.IsLive` — a reference is the table's entry for its text.
* `StringTable.Stamped` — what interning and releasing keep of a table.
* `StringTable.Agrees` — a reference's stamp names only its text.
* `StringIndex.Finds` — a frozen list lists a reference at its text.

## Main results

* `StringTable.stamped_new`, `StringTable.Stamped.intern`, `StringTable.Stamped.release`.
* `StringTable.Stamped.texts_of_position?` — a listed reference that agrees with the table is
  listed at its own text.
* `StringTable.Stamped.finds_of_isLive` — a live reference is listed, at its own text.
-/

namespace HeapSampler

namespace VocabWord

/-- A word is found in `all` at its index. -/
theorem all_getElem?_index (w : VocabWord) : all[w.index]? = some w := by
  cases w <;> rfl

theorem index_injective {w w' : VocabWord} (h : w.index = w'.index) : w = w' := by
  have e := all_getElem?_index w
  rw [h, all_getElem?_index] at e
  exact (Option.some.inj e).symm

theorem index_lt (w : VocabWord) : w.index < all.length := by
  cases w <;> decide

theorem mem_all (w : VocabWord) : w ∈ all := by
  cases w <;> decide

end VocabWord

/-- A frozen list finds a reference: it lists it, at a position holding its text. -/
def StringIndex.Finds (ix : StringIndex) (r : Interned) : Prop :=
  ∃ i, ix.position? r = some i ∧ ix.texts[i]? = some r.text

theorem StringIndex.Finds.isSome {ix : StringIndex} {r : Interned} (h : ix.Finds r) :
    (ix.position? r).isSome := by
  obtain ⟨i, hi, -⟩ := h
  rw [hi]
  rfl

namespace StringTable

/-- A reference is live in a table when the table's entry for its text is the one it was handed
out for. -/
def IsLive (t : StringTable) (r : Interned) : Prop := (t.find? r.text).map (·.stamp) = some r.stamp

/-- What interning and releasing keep of a table: the vocabulary it was made with, stamps that
are unique and below the next one, the next one above the vocabulary's, and the stamps of the
vocabulary on the vocabulary's texts only. -/
structure Stamped (t : StringTable) : Prop where
  /-- The vocabulary is the one a new table takes. -/
  vocabulary : t.vocabulary = StringTable.new.vocabulary
  /-- No two entries share a stamp. -/
  stamps_nodup : (t.entries.map (·.stamp)).Nodup
  /-- Every stamp was given out before the next one. -/
  stamp_lt : ∀ e ∈ t.entries, e.stamp < t.nextStamp
  /-- The vocabulary's stamps were given out. -/
  vocabulary_le : VocabWord.all.length ≤ t.nextStamp
  /-- A stamp of the vocabulary is on its word's text. -/
  vocab_text : ∀ e ∈ t.entries, ∀ w : VocabWord, e.stamp = w.index → e.text = w.text

/-- A reference's stamp names its text only: every entry with that stamp has its text, and
the stamp of the vocabulary's empty text is on the empty text. -/
def Agrees (t : StringTable) (r : Interned) : Prop :=
  (∀ e ∈ t.entries, e.stamp = r.stamp → e.text = r.text) ∧ (r.stamp = 0 → r.text = "")

theorem stamped_new : StringTable.new.Stamped := by
  refine ⟨rfl, by decide, by decide, Nat.le_refl _, fun e he w hw => ?_⟩
  obtain ⟨w', -, rfl⟩ := List.mem_map.1 he
  rw [VocabWord.index_injective hw]

namespace Stamped

variable {t : StringTable}

/-- Entries that keep their texts and stamps, in a table with the same next stamp and
vocabulary, keep it stamped. -/
theorem of_map (ht : t.Stamped) (f : StringEntry → StringEntry) (hs : ∀ e, (f e).stamp = e.stamp)
    (hx : ∀ e, (f e).text = e.text) : ({ t with entries := t.entries.map f } : StringTable).Stamped := by
  have hmap : (t.entries.map f).map (·.stamp) = t.entries.map (·.stamp) := by
    rw [List.map_map]
    exact List.map_congr_left fun e _ => hs e
  refine ⟨ht.vocabulary, by simpa [hmap] using ht.stamps_nodup, fun e he => ?_, ht.vocabulary_le,
    fun e he w hw => ?_⟩
  · obtain ⟨e', he', rfl⟩ := List.mem_map.1 he
    rw [hs]
    exact ht.stamp_lt e' he'
  · obtain ⟨e', he', rfl⟩ := List.mem_map.1 he
    rw [hs] at hw
    rw [hx]
    exact ht.vocab_text e' he' w hw

theorem of_filter (ht : t.Stamped) (p : StringEntry → Bool) :
    ({ t with entries := t.entries.filter p } : StringTable).Stamped :=
  ⟨ht.vocabulary, ht.stamps_nodup.sublist (List.filter_sublist.map _),
    fun e he => ht.stamp_lt e (List.mem_of_mem_filter he), ht.vocabulary_le,
    fun e he => ht.vocab_text e (List.mem_of_mem_filter he)⟩

/-- A new entry takes the next stamp, which is above the vocabulary's and every entry's. -/
theorem push (ht : t.Stamped) (s : String) :
    ({ t with entries := t.entries ++ [⟨s, t.nextStamp, 1⟩], nextStamp := t.nextStamp + 1 } :
      StringTable).Stamped := by
  refine ⟨ht.vocabulary, ?_, fun e he => ?_, Nat.le_succ_of_le ht.vocabulary_le, fun e he w hw => ?_⟩
  · rw [List.map_append, List.nodup_append]
    refine ⟨ht.stamps_nodup, List.nodup_singleton _, fun a ha b hb hab => ?_⟩
    obtain ⟨e, he, rfl⟩ := List.mem_map.1 ha
    rw [List.map_singleton, List.mem_singleton] at hb
    exact Nat.ne_of_lt (ht.stamp_lt e he) (hab.trans hb)
  · rcases List.mem_append.1 he with he | he
    · exact Nat.lt_succ_of_lt (ht.stamp_lt e he)
    · rw [List.mem_singleton.1 he]
      exact Nat.lt_succ_self _
  · rcases List.mem_append.1 he with he | he
    · exact ht.vocab_text e he w hw
    · -- The next stamp is above every stamp of the vocabulary.
      rw [List.mem_singleton.1 he] at hw
      have := VocabWord.index_lt w
      have := ht.vocabulary_le
      dsimp only at hw
      omega

theorem intern (ht : t.Stamped) (s : String) : (t.intern s).1.Stamped := by
  unfold StringTable.intern
  split
  · exact ht.of_map _ (fun e => by split <;> rfl) (fun e => by split <;> rfl)
  · exact ht.push s

theorem release (ht : t.Stamped) {r : Interned} {t' : StringTable} (h : t.release r = .ok t') :
    t'.Stamped := by
  unfold StringTable.release at h
  split at h
  · split at h
    · split at h
      · cases h
        exact ht.of_filter _
      · cases h
        exact ht.of_map _ (fun e => by split <;> rfl) (fun e => by split <;> rfl)
    · cases h
  · cases h

/-- The vocabulary's word `w` is the reference `⟨w.text, w.index⟩`. -/
theorem vocabulary_apply (ht : t.Stamped) (w : VocabWord) : t.vocabulary w = ⟨w.text, w.index⟩ := by
  rw [ht.vocabulary]
  rfl

/-- The words of the vocabulary agree with the table. -/
theorem agrees_vocabulary (ht : t.Stamped) (w : VocabWord) : t.Agrees (t.vocabulary w) := by
  rw [ht.vocabulary_apply]
  refine ⟨fun e he hs => ht.vocab_text e he w hs, fun h0 => ?_⟩
  -- Only the empty text has the index `0`.
  have : w = .empty := VocabWord.index_injective h0
  rw [this]
  rfl

/-- A live reference agrees with the table: its stamp is its entry's, and no other entry's. -/
theorem agrees_of_isLive (ht : t.Stamped) {r : Interned} (hr : t.IsLive r) : t.Agrees r := by
  obtain ⟨e, he, hs⟩ := Option.map_eq_some_iff.1 hr
  have hmem : e ∈ t.entries := List.mem_of_find?_eq_some he
  have htext : e.text = r.text := key_of_find? StringEntry.text he
  refine ⟨fun e' he' hs' => ?_, fun h0 => ?_⟩
  · have : e' = e := List.inj_on_of_nodup_map ht.stamps_nodup he' hmem (hs'.trans hs.symm)
    rw [this, htext]
  · rw [← htext]
    exact ht.vocab_text e hmem .empty (hs.trans h0)

/-! ### The frozen list -/

theorem snapshot_strings (ht : t.Stamped) :
    t.snapshot.strings = ⟨"", 0⟩ :: (t.entries.filter (·.text != "")).map StringEntry.ref := by
  rw [snapshot, vocabulary_apply ht]
  rfl

/-- The frozen list starts with the empty text. -/
theorem snapshot_texts_head (ht : t.Stamped) : t.snapshot.texts[0]? = some "" := by
  rw [StringIndex.texts, snapshot_strings ht]
  rfl

/-- The references listed after the first are entries of the table. -/
theorem mem_snapshot {x : Interned} (ht : t.Stamped) (hx : x ∈ t.snapshot.strings) :
    x = ⟨"", 0⟩ ∨ ∃ e ∈ t.entries, e.text ≠ "" ∧ x = e.ref := by
  rw [snapshot_strings ht] at hx
  rcases List.mem_cons.1 hx with hx | hx
  · exact .inl hx
  · obtain ⟨e, he, rfl⟩ := List.mem_map.1 hx
    rw [List.mem_filter, bne_iff_ne] at he
    exact .inr ⟨e, he.1, he.2, rfl⟩

/-- A reference that agrees with the table is listed, if at all, at its own text. -/
theorem texts_of_position? (ht : t.Stamped) {r : Interned} (hr : t.Agrees r) {i : Nat}
    (h : t.snapshot.position? r = some i) : t.snapshot.texts[i]? = some r.text := by
  obtain ⟨hi, hp, -⟩ := List.findIdx?_eq_some_iff_getElem.1 h
  have hs : t.snapshot.strings[i].stamp = r.stamp := by simpa using hp
  rw [StringIndex.texts, List.getElem?_map, List.getElem?_eq_getElem hi, Option.map_some]
  congr 1
  rcases ht.mem_snapshot (List.getElem_mem hi) with hx | ⟨e, he, -, hx⟩
  · -- The first place holds the empty text, whose stamp is `0`.
    rw [hx] at hs ⊢
    exact (hr.2 hs.symm).symm
  · rw [hx] at hs ⊢
    exact hr.1 e he hs

/-- A live reference is listed at its own text, provided the empty text's entry is still the one
the table was made with. -/
theorem finds_of_isLive (ht : t.Stamped) (hempty : t.IsLive (t.vocabulary .empty))
    {r : Interned} (hr : t.IsLive r) : t.snapshot.Finds r := by
  suffices hsome : (t.snapshot.position? r).isSome by
    obtain ⟨i, hi⟩ := Option.isSome_iff_exists.1 hsome
    exact ⟨i, hi, ht.texts_of_position? (ht.agrees_of_isLive hr) hi⟩
  rw [StringIndex.position?, List.findIdx?_isSome, List.any_eq_true]
  obtain ⟨e, he, hs⟩ := Option.map_eq_some_iff.1 hr
  have htext : e.text = r.text := key_of_find? StringEntry.text he
  by_cases hr0 : r.text = ""
  · -- The empty text: its entry is the vocabulary's, listed first.
    have h0 : r.stamp = 0 := by
      have hv := hempty
      rw [ht.vocabulary_apply] at hv
      change (t.find? "").map (·.stamp) = some 0 at hv
      rw [← hr0, hr] at hv
      exact Option.some.inj hv
    refine ⟨⟨"", 0⟩, ?_, by simp [h0]⟩
    rw [snapshot_strings ht]
    exact List.mem_cons_self
  · refine ⟨e.ref, ?_, by simp [StringEntry.ref, hs]⟩
    rw [snapshot_strings ht]
    refine List.mem_cons_of_mem _ (List.mem_map_of_mem (List.mem_filter.2 ⟨List.mem_of_find?_eq_some he, ?_⟩))
    rw [htext]
    simpa using hr0

end Stamped

@[simp] theorem vocabulary_intern (t : StringTable) (s : String) : (t.intern s).1.vocabulary = t.vocabulary := by
  unfold intern
  split <;> rfl

end StringTable

end HeapSampler
