import HeapSampler.Locations.Table
import Mathlib.Data.Set.Function
import Mathlib.Data.List.Perm.Basic
import Mathlib.Data.List.Nodup

/-!
# The tables count their references

The string table keeps a count for each text, and the location table one for each location and
one for each function; nothing but the discipline of their callers ties those counts to the
references that are out.  This file says what the counts mean, as a relation between a table
and the list of references it ought to be counting, and proves that interning and releasing
keep that relation:

* `StringTable.Holds t refs`: each text has one count per reference to it in `refs`, and every
  reference carries the stamp of its text's entry.  Interning adds the reference handed out;
  releasing a reference of `refs` succeeds and takes it out.
* `LocationTable.Mirrors P t strings D fs`: the location table counts the frames `fs`, one count
  on the location and one on the function of each frame, and the string table holds the
  references `D` taken outside the table and the name and the file of every function of the
  table.  Interning a stack adds
  its frames; releasing a backtrace whose frames are among `fs` succeeds and takes them out.

A location is found by an id hashed from its function's id and its line, so two pairs with one
id would put a frame's count on the wrong function.  `Mirrors` is relative to a set `P` of
pairs on which the hash is injective, and interning needs the frames' pairs to lie in `P`.

## Main definitions

* `present` — a count as a table reports it.
* `Tallies` — a list of counted entries counts a list of keys.
* `StringTable.Holds`, `LocationTable.Mirrors`.

## Main results

* `StringTable.Holds.intern`, `StringTable.Holds.release`.
* `LocationTable.Mirrors.intern`, `LocationTable.Mirrors.release`.
* `LocationTable.release_induction` — what releasing one frame keeps, releasing a backtrace
  keeps.
-/

namespace HeapSampler

/-- A count as a table reports it: no entry at zero. -/
def present (n : Nat) : Option Nat := if n = 0 then none else some n

@[simp] theorem present_zero : present 0 = none := rfl

theorem present_eq_none {n : Nat} : present n = none ↔ n = 0 := by
  unfold present
  split <;> simp [*]

theorem present_of_pos {n : Nat} (h : 0 < n) : present n = some n := if_neg (Nat.pos_iff_ne_zero.1 h)

theorem some_eq_present {m n : Nat} : some m = present n ↔ m = n ∧ 0 < n := by
  unfold present
  split
  · simp only [reduceCtorEq, false_iff, not_and]
    omega
  · simp only [Option.some.injEq]
    omega

/-! ### Lists looked up by a key -/

section Keyed

variable {β κ : Type} [BEq κ] (key : β → κ)

/-- A change that keeps keys is seen through the lookup of every key. -/
theorem find?_map_key {l : List β} {g : β → β} (hg : ∀ b, key (g b) = key b) (k : κ) :
    (l.map g).find? (key · == k) = (l.find? (key · == k)).map g := by
  have hp : (fun b => key b == k) ∘ g = (fun b => key b == k) := funext fun b => by simp [hg]
  rw [List.find?_map, hp]

variable [LawfulBEq κ]

theorem key_of_find? {l : List β} {k : κ} {b : β} (h : l.find? (key · == k) = some b) :
    key b = k := by
  simpa using List.find?_some h

/-- With one entry per key, the lookup of an entry's key finds it. -/
theorem find?_key_of_mem {l : List β} (hn : (l.map key).Nodup) {b : β} (hb : b ∈ l) :
    l.find? (key · == key b) = some b := by
  obtain ⟨b', hb'⟩ : ∃ b', l.find? (key · == key b) = some b' :=
    Option.ne_none_iff_exists'.1 fun h => List.find?_eq_none.1 h b hb (beq_self_eq_true _)
  rw [hb', List.inj_on_of_nodup_map hn (List.mem_of_find?_eq_some hb') hb (key_of_find? key hb')]

/-- With one entry per key, a list is the entry of a key followed by the entries of the other
keys. -/
theorem perm_cons_filter_key [DecidableEq β] {l : List β} (hn : (l.map key).Nodup) {b : β}
    (hb : b ∈ l) : l.Perm (b :: l.filter (key · != key b)) := by
  have hl : l.Nodup := hn.of_map key
  have he : l.erase b = l.filter (key · != key b) := by
    rw [hl.erase_eq_filter]
    refine List.filter_congr fun x hx => ?_
    by_cases h : x = b
    · subst h
      rw [bne_self_eq_false, bne_self_eq_false]
    · have hk : key x ≠ key b := fun e => h (List.inj_on_of_nodup_map hn hx hb e)
      rw [bne_iff_ne.2 h, bne_iff_ne.2 hk]
  rw [← he]
  exact List.perm_cons_erase hb

variable [DecidableEq κ]

/-- Changing the entries of one key changes the lookup of that key only. -/
theorem find?_map_at (l : List β) (id k : κ) (u : β → β) (hu : ∀ b, key (u b) = key b) :
    (l.map fun b => if key b == id then u b else b).find? (key · == k) =
      if k = id then (l.find? (key · == k)).map u else l.find? (key · == k) := by
  rw [find?_map_key key (fun b => by split <;> simp [hu])]
  cases hf : l.find? (key · == k) with
  | none => simp
  | some b =>
    have hb := key_of_find? key hf
    by_cases h : k = id <;> simp [h, hb]

/-- Removing the entries of one key empties the lookup of that key only. -/
theorem find?_filter_key (l : List β) (id k : κ) :
    (l.filter (key · != id)).find? (key · == k) = if k = id then none else l.find? (key · == k) := by
  rw [List.find?_filter]
  split
  · rename_i h
    subst h
    rw [List.find?_eq_none]
    intro b _
    simp
  · rename_i h
    congr 1
    funext b
    by_cases hb : key b = k <;> simp [hb, h]

/-- An entry put at the back is what the lookup of its key finds, unless another was there. -/
theorem find?_push (l : List β) (b : β) (k : κ) :
    (l ++ [b]).find? (key · == k) =
      (l.find? (key · == k)).or (if key b = k then some b else none) := by
  rw [List.find?_append, List.find?_singleton]
  by_cases h : key b = k <;> simp [h]

end Keyed

/-! ### Counted entries -/

section Tallies

variable {α : Type} (key : α → UInt64)

/-- The counted entries `xs` count the keys `ks`: the entry of a key holds as many as `ks` has
of it, and a key missing from `ks` has no entry. -/
def Tallies (xs : List (Counted α)) (ks : List UInt64) : Prop :=
  ∀ k, (xs.find? (key ·.value == k)).map (·.count) = present (ks.count k)

/-- Changing the counts of some entries keeps the values. -/
theorem values_map_count (xs : List (Counted α)) (p : Counted α → Bool) (n : Counted α → Nat) :
    (xs.map fun x => if p x then { x with count := n x } else x).map (·.value) = xs.map (·.value) := by
  rw [List.map_map]
  refine List.map_congr_left fun x _ => ?_
  by_cases h : p x <;> simp [h]

/-- An entry put at the back under a key no entry has keeps the keys apart. -/
theorem nodup_push {xs : List (Counted α)} (hn : ((xs.map (·.value)).map key).Nodup) {v : α}
    (hf : xs.find? (key ·.value == key v) = none) :
    (((xs ++ [(⟨v, 1⟩ : Counted α)]).map (·.value)).map key).Nodup := by
  rw [List.map_append, List.map_append]
  refine hn.append (List.nodup_singleton _) fun x hx hy => ?_
  simp only [List.map_cons, List.map_nil, List.mem_singleton] at hy
  obtain ⟨w, hw, rfl⟩ := List.mem_map.1 hx
  obtain ⟨c, hc, rfl⟩ := List.mem_map.1 hw
  exact List.find?_eq_none.1 hf c hc (by simpa using hy)

namespace Tallies

variable {key} {xs : List (Counted α)} {ks ks' : List UInt64}

theorem perm (ht : Tallies key xs ks) (hp : ks.Perm ks') : Tallies key xs ks' := fun k => by
  rw [ht k, hp.count_eq]

theorem find?_eq_none_iff (ht : Tallies key xs ks) (k : UInt64) :
    xs.find? (key ·.value == k) = none ↔ k ∉ ks := by
  rw [← List.count_eq_zero, ← present_eq_none, ← ht k, Option.map_eq_none_iff]

theorem count_of_find? (ht : Tallies key xs ks) {k : UInt64} {c : Counted α}
    (hc : xs.find? (key ·.value == k) = some c) : c.count = ks.count k ∧ 0 < ks.count k := by
  have := ht k
  rw [hc, Option.map_some] at this
  exact some_eq_present.1 this

/-- A key counted at least once has an entry. -/
theorem exists_find? {k : UInt64} (ht : Tallies key xs (k :: ks)) :
    ∃ c, xs.find? (key ·.value == k) = some c :=
  Option.ne_none_iff_exists'.1 (mt (ht.find?_eq_none_iff k).1 (not_not.2 List.mem_cons_self))

/-- Entries that count no key are no entries. -/
theorem eq_nil (ht : Tallies key xs []) : xs = [] := by
  cases xs with
  | nil => rfl
  | cons x xs =>
    have := ht (key x.value)
    simp at this

/-- One more frame on an entry that is there. -/
theorem bump (ht : Tallies key xs ks) {id : UInt64} {c : Counted α}
    (hc : xs.find? (key ·.value == id) = some c) :
    Tallies key (LocationTable.bump xs key id) (ks ++ [id]) := fun k => by
  unfold LocationTable.bump
  rw [find?_map_at (fun c : Counted α => key c.value) xs id k (fun c => { c with count := c.count + 1 })
    (fun _ => rfl), List.count_append, List.count_singleton]
  by_cases h : k = id
  · subst h
    obtain ⟨hcount, hpos⟩ := ht.count_of_find? hc
    rw [hc, if_pos rfl, if_pos (beq_self_eq_true k), Option.map_some, Option.map_some,
      present_of_pos (by omega), hcount]
  · have : (id == k) = false := by simpa using Ne.symm h
    rw [if_neg h, this, ht k]
    rfl

/-- A new entry with one frame, for a key that had none. -/
theorem push (ht : Tallies key xs ks) (v : α) (hn : xs.find? (key ·.value == key v) = none) :
    Tallies key (xs ++ [⟨v, 1⟩]) (ks ++ [key v]) := fun k => by
  rw [find?_push (fun c : Counted α => key c.value), List.count_append, List.count_singleton]
  by_cases h : key v = k
  · subst h
    have hz := List.count_eq_zero.2 ((ht.find?_eq_none_iff _).1 hn)
    simp [hn, hz, present]
  · have : (key v == k) = false := by simpa using h
    rw [this, if_neg h, Option.or_none, ht k]
    rfl

/-- The last frame of an entry goes, and the entry with it. -/
theorem filter {id : UInt64} (ht : Tallies key xs (id :: ks)) {c : Counted α}
    (hc : xs.find? (key ·.value == id) = some c) (h1 : c.count ≤ 1) :
    Tallies key (xs.filter (key ·.value != id)) ks := fun k => by
  rw [find?_filter_key (fun c : Counted α => key c.value)]
  obtain ⟨hcount, -⟩ := ht.count_of_find? hc
  by_cases h : k = id
  · subst h
    rw [List.count_cons_self] at hcount
    have : ks.count k = 0 := by omega
    rw [if_pos rfl, this]
    rfl
  · rw [if_neg h, ht k, List.count_cons_of_ne (Ne.symm h)]

/-- One frame of an entry with more goes. -/
theorem decrement {id : UInt64} (ht : Tallies key xs (id :: ks)) {c : Counted α}
    (hc : xs.find? (key ·.value == id) = some c) (h1 : ¬c.count ≤ 1) :
    Tallies key (xs.map fun x => if key x.value == id then { x with count := x.count - 1 } else x)
      ks := fun k => by
  rw [find?_map_at (fun c : Counted α => key c.value) xs id k (fun c => { c with count := c.count - 1 })
    (fun _ => rfl)]
  obtain ⟨hcount, -⟩ := ht.count_of_find? hc
  by_cases h : k = id
  · subst h
    rw [List.count_cons_self] at hcount
    rw [if_pos rfl, hc, Option.map_some, Option.map_some, present_of_pos (by omega)]
    congr 1
    dsimp only
    omega
  · rw [if_neg h, ht k, List.count_cons_of_ne (Ne.symm h)]

end Tallies

end Tallies

/-! ### The string table -/

namespace StringTable

theorem find?_eq (t : StringTable) (s : String) : t.find? s = t.entries.find? (·.text == s) := rfl

theorem refcount?_eq (t : StringTable) (s : String) : t.refcount? s = (t.find? s).map (·.count) := rfl

/-- What interning a text does: a text with an entry gets one more reference there and is handed
the entry's own, and a new text gets an entry with the next stamp and one reference. -/
theorem intern_cases (t : StringTable) (s : String) :
    (∃ e, t.find? s = some e ∧ (t.intern s).2 = e.ref ∧
      ∀ x, (t.intern s).1.find? x = if x = s then some { e with count := e.count + 1 } else t.find? x) ∨
    (t.find? s = none ∧ (t.intern s).2 = ⟨s, t.nextStamp⟩ ∧
      ∀ x, (t.intern s).1.find? x = if x = s then some ⟨s, t.nextStamp, 1⟩ else t.find? x) := by
  unfold intern
  cases hf : t.find? s with
  | some e =>
    refine .inl ⟨e, rfl, rfl, fun x => ?_⟩
    rw [find?_eq, find?_map_at StringEntry.text t.entries s x (fun e => { e with count := e.count + 1 })
      (fun _ => rfl), ← find?_eq]
    split
    · rename_i h
      rw [h, hf]
      rfl
    · rfl
  | none =>
    refine .inr ⟨rfl, rfl, fun x => ?_⟩
    rw [find?_eq, find?_push StringEntry.text, ← find?_eq]
    by_cases h : x = s
    · subst h
      rw [hf]
      simp
    · simp [h, Ne.symm h]

/-- Interning hands back a reference to the text interned. -/
theorem intern_text (t : StringTable) (s : String) : (t.intern s).2.text = s := by
  rcases intern_cases t s with ⟨e, hf, hr, -⟩ | ⟨-, hr, -⟩
  · rw [hr]
    exact key_of_find? StringEntry.text hf
  · rw [hr]

/-- Interning adds one reference to the count of the text interned and leaves the others. -/
theorem refcount?_intern (t : StringTable) {s : String} {n : Nat} (hn : t.refcount? s = present n)
    (x : String) : (t.intern s).1.refcount? x = if x = s then present (n + 1) else t.refcount? x := by
  rw [refcount?_eq]
  rcases intern_cases t s with ⟨e, hf, -, hx⟩ | ⟨hf, -, hx⟩
  · rw [refcount?_eq, hf, Option.map_some] at hn
    obtain ⟨rfl, -⟩ := some_eq_present.1 hn
    by_cases h : x = s
    · rw [hx, if_pos h, if_pos h, Option.map_some, present_of_pos (Nat.succ_pos _)]
    · rw [hx, if_neg h, if_neg h, refcount?_eq]
  · -- A new text had no count.
    rw [refcount?_eq, hf, Option.map_none, eq_comm, present_eq_none] at hn
    by_cases h : x = s
    · rw [hx, if_pos h, if_pos h, Option.map_some, hn, present_of_pos (Nat.succ_pos _)]
    · rw [hx, if_neg h, if_neg h, refcount?_eq]

/-- Releasing a reference that carries its entry's stamp succeeds: the entry loses one
reference, and goes with its last. -/
theorem release_of_find? {t : StringTable} {r : Interned} {e : StringEntry}
    (he : t.find? r.text = some e) (hs : e.stamp = r.stamp) :
    ∃ t', t.release r = .ok t' ∧ ∀ x, t'.find? x =
      if x = r.text then (if e.count ≤ 1 then none else some { e with count := e.count - 1 })
      else t.find? x := by
  unfold release
  rw [he]
  simp only [hs, if_true]
  split
  · refine ⟨_, rfl, fun x => ?_⟩
    rw [find?_eq, find?_filter_key StringEntry.text, ← find?_eq]
  · refine ⟨_, rfl, fun x => ?_⟩
    rw [find?_eq, find?_map_at StringEntry.text t.entries r.text x
      (fun e => { e with count := e.count - 1 }) (fun _ => rfl), ← find?_eq]
    split
    · rename_i h h1
      rw [h1, he]
      simp [hs]
    · rfl

/-- The table counts exactly the references `refs`: a text has one count for each reference to
it, and every reference carries the stamp of its text's entry. -/
structure Holds (t : StringTable) (refs : List Interned) : Prop where
  /-- The count of a text is the number of references to it. -/
  refcount : ∀ s, t.refcount? s = present ((refs.map (·.text)).count s)
  /-- A reference carries the stamp of its text's entry. -/
  stamp : ∀ r ∈ refs, (t.find? r.text).map (·.stamp) = some r.stamp

namespace Holds

variable {t : StringTable} {refs refs' : List Interned}

theorem perm (ht : t.Holds refs) (hp : refs.Perm refs') : t.Holds refs' :=
  ⟨fun s => by rw [ht.refcount s, (hp.map _).count_eq], fun r hr => ht.stamp r (hp.symm.subset hr)⟩

theorem count_of_find? (ht : t.Holds refs) {s : String} {e : StringEntry} (he : t.find? s = some e) :
    e.count = (refs.map (·.text)).count s ∧ 0 < (refs.map (·.text)).count s := by
  have := ht.refcount s
  rw [refcount?_eq, he, Option.map_some] at this
  exact some_eq_present.1 this

theorem find?_eq_none_iff (ht : t.Holds refs) (s : String) :
    t.find? s = none ↔ s ∉ refs.map (·.text) := by
  rw [← List.count_eq_zero, ← present_eq_none, ← ht.refcount s, refcount?_eq, Option.map_eq_none_iff]

/-- Interning adds the reference it hands out, a reference to the text interned. -/
theorem intern (ht : t.Holds refs) (s : String) :
    (t.intern s).1.Holds (refs ++ [(t.intern s).2]) ∧ (t.intern s).2.text = s := by
  refine ⟨⟨fun x => ?_, fun r hm => ?_⟩, t.intern_text s⟩
  · rw [t.refcount?_intern (ht.refcount s), List.map_append, List.count_append]
    by_cases h : x = s
    · subst h
      simp [t.intern_text]
    · rw [if_neg h, ht.refcount x]
      simp [t.intern_text, Ne.symm h]
  · -- The stamps: the entry interned keeps its stamp or takes the next one.
    rcases intern_cases t s with ⟨e, hf, hr, hx⟩ | ⟨hf, hr, hx⟩
    · have hs : e.text = s := key_of_find? StringEntry.text hf
      rw [hx]
      rcases List.mem_append.1 hm with hm | hm
      · by_cases h : r.text = s
        · have := ht.stamp r hm
          rw [h, hf] at this
          simpa [h] using this
        · simpa [h] using ht.stamp r hm
      · rw [List.mem_singleton.1 hm, hr]
        simp [StringEntry.ref, hs]
    · rw [hx]
      rcases List.mem_append.1 hm with hm | hm
      · have h : r.text ≠ s := fun h => (ht.find?_eq_none_iff s).1 hf (h ▸ List.mem_map_of_mem hm)
        simpa [h] using ht.stamp r hm
      · rw [List.mem_singleton.1 hm, hr]
        simp

/-- Releasing a reference the table counts succeeds and takes it out. -/
theorem release (ht : t.Holds refs) {r : Interned} (hr : r ∈ refs) :
    ∃ t', t.release r = .ok t' ∧ t'.Holds (refs.erase r) := by
  obtain ⟨e, he, hs⟩ := Option.map_eq_some_iff.1 (ht.stamp r hr)
  obtain ⟨hcount, -⟩ := ht.count_of_find? he
  obtain ⟨t', hrel, hx⟩ := release_of_find? he hs
  -- Counting through the reference taken out.
  have hp : ∀ s, (refs.map (·.text)).count s =
      ((refs.erase r).map (·.text)).count s + if r.text = s then 1 else 0 := fun s => by
    rw [((List.perm_cons_erase hr).map (·.text)).count_eq, List.map_cons, List.count_cons]
    simp
  refine ⟨t', hrel, ⟨fun s => ?_, fun r' hm => ?_⟩⟩
  · rw [refcount?_eq, hx]
    by_cases h : s = r.text
    · subst h
      have := hp r.text
      rw [if_pos rfl] at this
      rw [if_pos rfl]
      split
      · simp only [Option.map_none]
        rw [present, if_pos (by omega)]
      · rw [Option.map_some, present_of_pos (by omega)]
        congr 1
        dsimp only
        omega
    · rw [if_neg h, ← refcount?_eq, ht.refcount s, hp s, if_neg (Ne.symm h), Nat.add_zero]
  · rw [hx]
    by_cases h : r'.text = r.text
    · -- Two references to one text: its entry had more than one.
      have h2 : 1 < e.count := by
        have := hp r.text
        have hpos : 0 < ((refs.erase r).map (·.text)).count r.text :=
          List.count_pos_iff.2 (h ▸ List.mem_map_of_mem hm)
        rw [if_pos rfl] at this
        omega
      have := ht.stamp r' (List.mem_of_mem_erase hm)
      rw [h, he] at this
      simpa [h, Nat.not_le.2 h2] using this
    · simpa [h] using ht.stamp r' (List.mem_of_mem_erase hm)

end Holds

/-- The references a new table holds: one for each word of the vocabulary. -/
def pins : List Interned := VocabWord.all.map StringTable.new.vocabulary

theorem pins_texts_nodup : (pins.map (·.text)).Nodup := by decide

/-- A new table holds the vocabulary, once each. -/
theorem holds_new : StringTable.new.Holds pins := by
  have he : StringTable.new.entries = pins.map fun r => ⟨r.text, r.stamp, 1⟩ := by
    simp [StringTable.new, pins, List.map_map, Function.comp_def]
  have hf : ∀ s, StringTable.new.find? s = (pins.find? (·.text == s)).map fun r => ⟨r.text, r.stamp, 1⟩ :=
    fun s => by rw [find?_eq, he, List.find?_map]; rfl
  refine ⟨fun s => ?_, fun r hr => ?_⟩
  · rw [refcount?_eq, hf, pins_texts_nodup.count]
    cases h : pins.find? (·.text == s) with
    | none =>
      have : s ∉ pins.map (·.text) := by
        simpa [List.find?_eq_none] using h
      simp [this]
    | some r =>
      have : s ∈ pins.map (·.text) :=
        key_of_find? Interned.text h ▸ List.mem_map_of_mem (List.mem_of_find?_eq_some h)
      simp [this, present]
  · rw [hf]
    cases h : pins.find? (·.text == r.text) with
    | none => simp [List.find?_eq_none] at h; exact absurd rfl (h r hr)
    | some r' =>
      have : r' = r := List.inj_on_of_nodup_map pins_texts_nodup (List.mem_of_find?_eq_some h) hr
        (key_of_find? Interned.text h)
      simp [this]

end StringTable

/-! ### The location table -/

/-- What the id of a frame's location is hashed from: the id of its function and its line. -/
def Frame.site (f : Frame) : UInt64 × Int64 := (f.resolvedFunctionId, f.line)

namespace LocationTable

variable {P : Set (UInt64 × Int64)} {t : LocationTable} {S : StringTable} {D : List Interned}
  {fs : List Location}

/-- The references the table's functions hold in the string table: the name and the file of
each. -/
def texts (t : LocationTable) : List Interned :=
  (t.functions.map (·.value)).flatMap fun f => [f.name, f.file]

/-- A text is referred to once by each function named by it and once by each in a file named by
it. -/
theorem texts_count (t : LocationTable) (s : String) :
    (t.texts.map (·.text)).count s =
      (t.functions.map (·.value.name.text)).count s + (t.functions.map (·.value.file.text)).count s := by
  unfold texts
  induction t.functions with
  | nil => rfl
  | cons f fns ih =>
    simp only [List.map_cons, List.flatMap_cons, List.map_append, List.count_append, ih,
      List.count_cons, List.map_nil, List.count_nil]
    omega

/-- The location table counts the frames `fs`, the string table counts the references `D` held
outside the table and the name and file of every function, and every location is keyed by the
hash of a pair of `P`. -/
structure Mirrors (P : Set (UInt64 × Int64)) (t : LocationTable) (strings : StringTable)
    (D : List Interned) (fs : List Location) : Prop where
  /-- No two functions share an id. -/
  functions_nodup : ((t.functions.map (·.value)).map (·.id)).Nodup
  /-- A location counts the frames at it. -/
  locations : Tallies Location.id t.locations (fs.map (·.id))
  /-- A function counts the frames in it. -/
  functions : Tallies FunctionInfo.id t.functions (fs.map (·.function.id))
  /-- A location's id is the hash of its function's id and its line, a pair of `P`. -/
  keyed : ∀ l ∈ t.locations.map (·.value),
    l.id = locationId l.function.id l.line ∧ (l.function.id, l.line) ∈ P
  /-- The string table holds `D` and the name and file of every function. -/
  strings : strings.Holds (D ++ t.texts)

theorem mirrors_empty (P : Set (UInt64 × Int64)) :
    ({} : LocationTable).Mirrors P .new StringTable.pins [] :=
  ⟨List.nodup_nil, fun _ => rfl, fun _ => rfl, (fun _ h => by cases h),
    by simpa [texts] using StringTable.holds_new⟩

/-- Only how often each frame is counted matters, not in which order. -/
theorem Mirrors.perm (hm : t.Mirrors P S D fs) {fs' : List Location} (hp : fs.Perm fs') :
    t.Mirrors P S D fs' :=
  { hm with locations := hm.locations.perm (hp.map _), functions := hm.functions.perm (hp.map _) }

/-! #### Interning -/

/-- The first half of interning a frame: its function, made when its id is new, with its name and
then its file interned. -/
def internFunction (t : LocationTable) (strings : StringTable) (f : Frame) :
    LocationTable × StringTable × FunctionInfo :=
  match t.function? f.resolvedFunctionId with
  | some c => ({ t with functions := bump t.functions (·.id) f.resolvedFunctionId }, strings, c.value)
  | none =>
    let (strings, name) := strings.intern f.name
    let (strings, file) := strings.intern f.file
    let fn : FunctionInfo := ⟨f.resolvedFunctionId, name, file, f.startLine⟩
    ({ t with functions := t.functions ++ [(⟨fn, 1⟩ : Counted FunctionInfo)] }, strings, fn)

/-- The second half: the location of `line` in the function `fn`, whose id is `fid`. -/
def internLocation (t : LocationTable) (fid : UInt64) (fn : FunctionInfo) (line : Int64) :
    LocationTable × Location :=
  match t.location? (locationId fid line) with
  | some c => ({ t with locations := bump t.locations (·.id) (locationId fid line) }, c.value)
  | none =>
    let loc : Location := ⟨locationId fid line, line, fn⟩
    ({ t with locations := t.locations ++ [(⟨loc, 1⟩ : Counted Location)] }, loc)

theorem internFrame_eq (t : LocationTable) (strings : StringTable) (f : Frame) :
    t.internFrame strings f =
      let r := t.internFunction strings f
      let q := r.1.internLocation f.resolvedFunctionId r.2.2 f.line
      (q.1, r.2.1, q.2) := by
  cases hf : t.function? f.resolvedFunctionId with
  | some c =>
    simp only [internFrame, internFunction, internLocation, hf]
    -- Both sides look the location up in the same table.
    cases ({ t with functions := bump t.functions (·.id) f.resolvedFunctionId } : LocationTable).location?
      (locationId f.resolvedFunctionId f.line) <;> rfl
  | none =>
    rcases h₁ : strings.intern f.name with ⟨s₁, name⟩
    rcases h₂ : s₁.intern f.file with ⟨s₂, file⟩
    simp only [internFrame, internFunction, internLocation, hf, h₁, h₂]
    cases ({ t with functions := t.functions ++ [⟨⟨f.resolvedFunctionId, name, file, f.startLine⟩, 1⟩] } :
      LocationTable).location? (locationId f.resolvedFunctionId f.line) <;> rfl

theorem intern_cons (t : LocationTable) (strings : StringTable) (f : Frame) (frames : List Frame) :
    t.intern strings (f :: frames) =
      let r := t.internFrame strings f
      let q := r.1.intern r.2.1 frames
      (q.1, q.2.1, r.2.2 :: q.2.2) := by
  rcases h₁ : t.internFrame strings f with ⟨t₁, s₁, loc⟩
  rcases h₂ : t₁.intern s₁ frames with ⟨t₂, s₂, locs⟩
  simp only [intern, h₁, h₂]

/-- The function half keeps the locations, gives a function of the frame's id, counts one more
frame on it, and makes the string table hold a new function's name and file. -/
theorem internFunction_spec {ks : List UInt64} (hn : ((t.functions.map (·.value)).map (·.id)).Nodup)
    (ht : Tallies FunctionInfo.id t.functions ks) (hs : S.Holds (D ++ t.texts)) (f : Frame) :
    (t.internFunction S f).1.locations = t.locations ∧
    (t.internFunction S f).2.2.id = f.resolvedFunctionId ∧
    (((t.internFunction S f).1.functions.map (·.value)).map (·.id)).Nodup ∧
    Tallies FunctionInfo.id (t.internFunction S f).1.functions (ks ++ [f.resolvedFunctionId]) ∧
    (t.internFunction S f).2.1.Holds (D ++ (t.internFunction S f).1.texts) := by
  unfold internFunction
  cases hf : t.function? f.resolvedFunctionId with
  | some c =>
    have hv := values_map_count t.functions (·.value.id == f.resolvedFunctionId) (·.count + 1)
    refine ⟨rfl, key_of_find? (fun c : Counted FunctionInfo => c.value.id) hf, ?_, ht.bump hf, ?_⟩
    · simp only [bump]
      rw [hv]
      exact hn
    · simp only [texts, bump]
      rw [hv]
      exact hs
  | none =>
    obtain ⟨hs₁, hname⟩ := hs.intern f.name
    obtain ⟨hs₂, hfile⟩ := hs₁.intern f.file
    refine ⟨rfl, rfl, ?_, ht.push _ hf, ?_⟩
    · -- The new id is no function's yet.
      refine nodup_push FunctionInfo.id hn ?_
      exact hf
    · simpa [texts, List.append_assoc] using hs₂

/-- The location half keeps the functions, gives a location in the function of id `fid` keyed by
the hash of its site, counts one more frame on it, and keeps every location keyed. -/
theorem internLocation_spec {ks : List UInt64} (ht : Tallies Location.id t.locations ks)
    (hk : ∀ l ∈ t.locations.map (·.value),
      l.id = locationId l.function.id l.line ∧ (l.function.id, l.line) ∈ P)
    (hP : Set.InjOn (Function.uncurry locationId) P) {fid : UInt64} {fn : FunctionInfo}
    (hfn : fn.id = fid) (line : Int64) (hsite : (fid, line) ∈ P) :
    (t.internLocation fid fn line).1.functions = t.functions ∧
    (t.internLocation fid fn line).2.function.id = fid ∧
    Tallies Location.id (t.internLocation fid fn line).1.locations
      (ks ++ [(t.internLocation fid fn line).2.id]) ∧
    ∀ l ∈ (t.internLocation fid fn line).1.locations.map (·.value),
      l.id = locationId l.function.id l.line ∧ (l.function.id, l.line) ∈ P := by
  unfold internLocation
  cases hl : t.location? (locationId fid line) with
  | some c =>
    have hid : c.value.id = locationId fid line := key_of_find? (fun c : Counted Location => c.value.id) hl
    obtain ⟨hck, hcP⟩ := hk c.value (List.mem_map_of_mem (List.mem_of_find?_eq_some hl))
    -- The location found is the one of this site: the hash is injective on `P`.
    have hsame : (c.value.function.id, c.value.line) = (fid, line) :=
      hP hcP hsite (by rw [Function.uncurry_apply_pair, Function.uncurry_apply_pair, ← hck, hid])
    have hv := values_map_count t.locations (·.value.id == locationId fid line) (·.count + 1)
    refine ⟨rfl, (Prod.mk.inj hsame).1, ?_, ?_⟩
    · rw [hid]
      exact ht.bump hl
    · simp only [bump]
      rw [hv]
      exact hk
  | none =>
    refine ⟨rfl, hfn, ht.push _ hl, fun l hl' => ?_⟩
    rw [List.map_append, List.mem_append] at hl'
    rcases hl' with hl' | hl'
    · exact hk l hl'
    · rw [List.map_singleton, List.mem_singleton] at hl'
      subst hl'
      dsimp only
      rw [hfn]
      exact ⟨rfl, hsite⟩

/-- Interning a frame of a site of `P` counts one more frame, the location it hands back. -/
theorem Mirrors.internFrame (hm : t.Mirrors P S D fs) (hP : Set.InjOn (Function.uncurry locationId) P)
    {f : Frame} (hf : f.site ∈ P) :
    (t.internFrame S f).1.Mirrors P (t.internFrame S f).2.1 D (fs ++ [(t.internFrame S f).2.2]) := by
  obtain ⟨hloc, hid, hnd, hfun, hstr⟩ :=
    internFunction_spec hm.functions_nodup hm.functions hm.strings f
  obtain ⟨hfun₂, hfid, hloc₂, hkey⟩ := internLocation_spec (hloc ▸ hm.locations) (hloc ▸ hm.keyed) hP
    hid f.line hf
  rw [internFrame_eq]
  refine ⟨by rw [hfun₂]; exact hnd, by simpa using hloc₂, ?_, hkey, ?_⟩
  · rw [hfun₂, List.map_append, List.map_singleton, hfid]
    exact hfun
  · rw [texts, hfun₂]
    exact hstr

/-- Interning a stack of frames of sites of `P` counts its frames, the backtrace it hands back. -/
theorem Mirrors.intern (hm : t.Mirrors P S D fs) (hP : Set.InjOn (Function.uncurry locationId) P)
    {frames : List Frame} (hf : ∀ f ∈ frames, f.site ∈ P) :
    (t.intern S frames).1.Mirrors P (t.intern S frames).2.1 D (fs ++ (t.intern S frames).2.2) := by
  induction frames generalizing t S fs with
  | nil => simpa [LocationTable.intern] using hm
  | cons f frames ih =>
    rw [intern_cons]
    have h₁ := hm.internFrame hP (hf f List.mem_cons_self)
    simpa [List.append_assoc] using ih h₁ fun g hg => hf g (List.mem_cons_of_mem f hg)

/-! #### Releasing -/

/-- Releasing a location the table counts a frame on succeeds and counts one frame less. -/
theorem releaseLocation_spec {id : UInt64} {ks : List UInt64}
    (ht : Tallies Location.id t.locations (id :: ks)) :
    ∃ t', t.releaseLocation id = .ok t' ∧ t'.functions = t.functions ∧
      Tallies Location.id t'.locations ks ∧ t'.locations.map (·.value) ⊆ t.locations.map (·.value) := by
  obtain ⟨c, hc⟩ := ht.exists_find?
  have hc' : t.location? id = some c := hc
  unfold releaseLocation
  rw [hc']
  dsimp only
  split
  · exact ⟨_, rfl, rfl, ht.filter hc ‹_›, List.map_subset _ (List.filter_subset_self _)⟩
  · refine ⟨_, rfl, rfl, ht.decrement hc ‹_›, ?_⟩
    rw [values_map_count]
    exact List.Subset.refl _

/-- Releasing a function the table counts a frame in succeeds and counts one frame less; a
function that goes releases its name and its file, which the string table holds. -/
theorem releaseFunction_spec {id : UInt64} {ks : List UInt64}
    (hn : ((t.functions.map (·.value)).map (·.id)).Nodup)
    (ht : Tallies FunctionInfo.id t.functions (id :: ks))
    (hs : S.Holds (D ++ t.texts)) :
    ∃ t' S', t.releaseFunction S id = .ok (t', S') ∧ t'.locations = t.locations ∧
      ((t'.functions.map (·.value)).map (·.id)).Nodup ∧ Tallies FunctionInfo.id t'.functions ks ∧
      S'.Holds (D ++ t'.texts) := by
  obtain ⟨c, hc⟩ := ht.exists_find?
  have hc' : t.function? id = some c := hc
  have hmem : c.value ∈ t.functions.map (·.value) :=
    List.mem_map_of_mem (List.mem_of_find?_eq_some hc)
  have hid : c.value.id = id := key_of_find? (fun c : Counted FunctionInfo => c.value.id) hc
  unfold releaseFunction
  rw [hc']
  dsimp only
  split
  · rename_i h1
    have hvals : (t.functions.filter (·.value.id != id)).map (·.value) =
        (t.functions.map (·.value)).filter (·.id != id) := by
      rw [List.filter_map]
      rfl
    -- The function goes, and with it the references to its name and its file.
    have htexts : t.texts.Perm (c.value.name :: c.value.file ::
        ({ t with functions := t.functions.filter (·.value.id != id) } : LocationTable).texts) := by
      have := (perm_cons_filter_key FunctionInfo.id hn hmem).flatMap_right
        (fun f : FunctionInfo => [f.name, f.file])
      rw [hid] at this
      simpa [texts, hvals] using this
    have hs₀ := hs.perm ((htexts.append_left _).trans (List.perm_middle.trans (List.perm_middle.cons _)))
    obtain ⟨S₁, h₁, hs₁⟩ := hs₀.release List.mem_cons_self
    rw [List.erase_cons_head] at hs₁
    obtain ⟨S₂, h₂, hs₂⟩ := hs₁.release List.mem_cons_self
    rw [List.erase_cons_head] at hs₂
    refine ⟨{ t with functions := t.functions.filter (·.value.id != id) }, S₂, ?_, rfl, ?_,
      ht.filter hc h1, hs₂⟩
    · simp only [h₁, h₂, bind, Except.bind, pure, Except.pure]
    · rw [hvals]
      exact hn.sublist (List.filter_sublist.map _)
  · rename_i h1
    refine ⟨_, S, rfl, rfl, ?_, ht.decrement hc h1, ?_⟩
    · rw [values_map_count]
      exact hn
    · rw [texts, values_map_count]
      exact hs

/-- Releasing one frame the tables count succeeds and counts it no more. -/
theorem Mirrors.releaseOne {loc : Location} (hm : t.Mirrors P S D (loc :: fs)) :
    ∃ t' S', t.releaseOne S loc = .ok (t', S') ∧ t'.Mirrors P S' D fs := by
  obtain ⟨t₁, h₁, hfun₁, hloc₁, hval₁⟩ := releaseLocation_spec hm.locations
  obtain ⟨t₂, S₂, h₂, hloc₂, hn₂, hfun₂, hs₂⟩ := releaseFunction_spec (t := t₁) (S := S) (D := D)
    (by rw [hfun₁]; exact hm.functions_nodup) (by rw [hfun₁]; exact hm.functions)
    (by rw [texts, hfun₁]; exact hm.strings)
  refine ⟨t₂, S₂, ?_, ⟨hn₂, by rw [hloc₂]; exact hloc₁, hfun₂, fun l hl => ?_, hs₂⟩⟩
  · unfold LocationTable.releaseOne
    rw [h₁]
    exact h₂
  · rw [hloc₂] at hl
    exact hm.keyed l (hval₁ hl)

/-- The tables a release of one frame leaves count the frames left. -/
theorem Mirrors.of_releaseOne {loc : Location} {t' : LocationTable} {S' : StringTable}
    (hm : t.Mirrors P S D (loc :: fs)) (h : t.releaseOne S loc = .ok (t', S')) :
    t'.Mirrors P S' D fs := by
  obtain ⟨t₁, S₁, h₁, hm₁⟩ := hm.releaseOne
  rw [h, Except.ok.injEq, Prod.mk.injEq] at h₁
  obtain ⟨rfl, rfl⟩ := h₁
  exact hm₁

/-- Induction along a release: a property of the tables and of the frames they count that a
release of one frame keeps, for the frames left, holds after releasing a backtrace, for the frames
not in it.  The frames go from the most recent one back, one at a time. -/
theorem release_induction (Q : LocationTable → StringTable → List Location → Prop)
    (perm : ∀ {t S fs fs'}, List.Perm fs fs' → Q t S fs → Q t S fs')
    (step : ∀ {t S t₁ S₁ loc fs}, Q t S (loc :: fs) → LocationTable.releaseOne t S loc = .ok (t₁, S₁) →
      Q t₁ S₁ fs)
    {t' : LocationTable} {S' : StringTable} {fs rest bt : List Location} (hp : fs.Perm (rest ++ bt))
    (hq : Q t S fs) (h : t.release S bt = .ok (t', S')) : Q t' S' rest := by
  suffices key : ∀ (l : List Location) (t : LocationTable) (S : StringTable), Q t S (rest ++ l) →
      l.foldlM (fun (acc : LocationTable × StringTable) loc => acc.1.releaseOne acc.2 loc) (t, S)
        = .ok (t', S') → Q t' S' rest from
    key bt.reverse t S (perm (hp.trans ((List.reverse_perm bt).symm.append_left rest)) hq) h
  intro l
  induction l with
  | nil =>
    intro t S hq h
    cases h
    simpa using hq
  | cons loc l ih =>
    intro t S hq h
    simp only [List.foldlM_cons, bind, Except.bind] at h
    cases h₁ : t.releaseOne S loc with
    | error e =>
      rw [h₁] at h
      cases h
    | ok p =>
      rw [h₁] at h
      exact ih p.1 p.2 (step (perm List.perm_middle hq) h₁) h

/-- Releasing a backtrace whose frames the tables count succeeds and counts them no more. -/
theorem Mirrors.release (hm : t.Mirrors P S D fs) {rest bt : List Location}
    (hp : fs.Perm (rest ++ bt)) :
    ∃ t' S', t.release S bt = .ok (t', S') ∧ t'.Mirrors P S' D rest := by
  -- The frames are released from the most recent one back, one at a time.
  suffices h : ∀ (l : List Location) (t : LocationTable) (S : StringTable),
      t.Mirrors P S D (rest ++ l) → ∃ t' S',
        l.foldlM (fun (acc : LocationTable × StringTable) loc => acc.1.releaseOne acc.2 loc) (t, S)
          = .ok (t', S') ∧ t'.Mirrors P S' D rest from
    h bt.reverse t S (hm.perm (hp.trans ((List.reverse_perm bt).symm.append_left rest)))
  intro l
  induction l with
  | nil =>
    intro t S h
    exact ⟨t, S, rfl, by simpa using h⟩
  | cons loc l ih =>
    intro t S h
    obtain ⟨t₁, S₁, h₁, hm₁⟩ := (h.perm List.perm_middle).releaseOne
    obtain ⟨t₂, S₂, h₂, hm₂⟩ := ih t₁ S₁ hm₁
    refine ⟨t₂, S₂, ?_, hm₂⟩
    simp only [List.foldlM_cons, h₁, bind, Except.bind]
    exact h₂

end LocationTable

end HeapSampler
