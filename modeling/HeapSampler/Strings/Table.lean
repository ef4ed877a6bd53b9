import HeapSampler.Text.Quoted

/-!
# The string table

Every text that a profile needs is kept once, with a count of the references handed out for
it. Interning a text hands out a reference to its entry, creating the entry when the text is
new; releasing a reference lowers the count, and the entry leaves the table at zero. A text
interned again after that gets a new entry: each entry carries a *stamp* that no other entry of
the table ever had, and a handed-out reference remembers the stamp of its entry. Two references
are the same string exactly when their stamps agree.

Ten texts, the *vocabulary* that every profile uses, are interned when the table is made and
never released by the table itself. A profile refers to strings by their position in a list
frozen from the table.

A release of a reference the table does not hold is a broken promise that stops the program;
so are the location table's and the collector's own, and all of them are listed first.

## Main definitions

* `Abort`, `Abort.message`.
* `Interned`: a handed-out reference, text and stamp.
* `StringTable`, `StringTable.new`, `intern`, `release`, `refcount?`, `size`.
* `Vocabulary`, `VocabWord`: the ten pinned texts.
* `StringIndex`, `StringTable.snapshot`, `StringIndex.position?`.
-/

/-!
### Aborts

Some broken promises between the parts of the library cannot be answered with an error: a
string released more often than it was interned, a location or function released more often
than it was interned, a ledger that refuses a record right after it was found to have room,
or more records waiting for their size than the ledger holds. The program stops on them. Here
each is a value, so that a run that would stop says why, and theorems can say when none
happens.
-/

namespace HeapSampler

/-- Why a run stopped. -/
inductive Abort where
  /-- A string was released that the table does not hold, or holds as a newer entry. -/
  | stringNotInterned (text : String)
  /-- A location was released more often than it was interned. -/
  | locationOverReleased (id : UInt64)
  /-- A function was released more often than it was interned. -/
  | functionOverReleased (id : UInt64)
  /-- The ledger refused a record although it had room a moment before. -/
  | ledgerFullAfterCheck
  /-- More records wait for their size than the ledger holds. -/
  | pendingBeyondLedger (pending held : Nat)
  deriving Repr

/-- The message of an abort. -/
def Abort.message : Abort → String
  | .stringNotInterned text =>
    "released string " ++ Text.quote text ++ " was not interned in this table"
  | .locationOverReleased id => "location " ++ toString id.toNat ++ " released more often than interned"
  | .functionOverReleased id => "function " ++ toString id.toNat ++ " released more often than interned"
  | .ledgerFullAfterCheck => "allocation ledger full after capacity check"
  | .pendingBeyondLedger pending held =>
    toString pending ++ " records pending size resolution but only " ++ toString held ++
      " in the ledger"

/-! ### Entries and references -/

/-- A reference to an entry of a string table: its text and the entry's stamp. -/
structure Interned where
  /-- The text. -/
  text : String
  /-- The stamp of the entry the reference was handed out for. -/
  stamp : Nat
  deriving DecidableEq, Repr, Inhabited

/-- An entry of a string table. -/
structure StringEntry where
  /-- The text. -/
  text : String
  /-- The stamp, unique over the table's life. -/
  stamp : Nat
  /-- The references handed out and not yet released. -/
  count : Nat
  deriving DecidableEq, Repr

/-- The reference an entry hands out. -/
def StringEntry.ref (e : StringEntry) : Interned := ⟨e.text, e.stamp⟩

/-- The ten texts every profile uses. -/
inductive VocabWord where
  | empty | allocations | count | kind | allocation | heap | bytes | allocationSize
  | currentSize | unknown
  deriving DecidableEq, Repr

namespace VocabWord

/-- The vocabulary in the order it is interned. -/
def all : List VocabWord :=
  [.empty, .allocations, .count, .kind, .allocation, .heap, .bytes, .allocationSize,
    .currentSize, .unknown]

/-- The text of a word. -/
def text : VocabWord → String
  | .empty => ""
  | .allocations => "allocations"
  | .count => "count"
  | .kind => "kind"
  | .allocation => "allocation"
  | .heap => "heap"
  | .bytes => "bytes"
  | .allocationSize => "allocation_size"
  | .currentSize => "current_size"
  | .unknown => "(unknown)"

/-- The position of a word in `all`, which is the stamp of its entry in a new table. -/
def index : VocabWord → Nat
  | .empty => 0
  | .allocations => 1
  | .count => 2
  | .kind => 3
  | .allocation => 4
  | .heap => 5
  | .bytes => 6
  | .allocationSize => 7
  | .currentSize => 8
  | .unknown => 9

end VocabWord

/-- The references to the vocabulary taken when a table is made. -/
abbrev Vocabulary := VocabWord → Interned

/-- A string table. -/
structure StringTable where
  /-- The entries, one per text. -/
  entries : List StringEntry
  /-- The stamp the next new entry gets. -/
  nextStamp : Nat
  /-- The references to the vocabulary, taken when the table was made. -/
  vocabulary : Vocabulary

namespace StringTable

/-- A table holding the vocabulary, each text with one reference. -/
def new : StringTable where
  entries := VocabWord.all.map fun w => ⟨w.text, w.index, 1⟩
  nextStamp := VocabWord.all.length
  vocabulary := fun w => ⟨w.text, w.index⟩

/-- The entry for a text. -/
def find? (t : StringTable) (s : String) : Option StringEntry :=
  t.entries.find? (·.text == s)

/-- The references outstanding for a text, `none` when it has no entry. -/
def refcount? (t : StringTable) (s : String) : Option Nat :=
  (t.find? s).map (·.count)

/-- The number of entries. -/
def size (t : StringTable) : Nat := t.entries.length

/-- Hands out a reference for a text: one more on its entry, or a new entry with one. -/
def intern (t : StringTable) (s : String) : StringTable × Interned :=
  match t.find? s with
  | some e =>
    ({ t with entries := t.entries.map fun x => if x.text == s then { x with count := x.count + 1 } else x },
      e.ref)
  | none =>
    ({ t with entries := t.entries ++ [⟨s, t.nextStamp, 1⟩], nextStamp := t.nextStamp + 1 },
      ⟨s, t.nextStamp⟩)

/-- Gives back a reference: its entry loses one, and leaves the table at zero. The run stops
when the text has no entry, or its entry is not the one the reference came from. -/
def release (t : StringTable) (h : Interned) : Except Abort StringTable :=
  match t.find? h.text with
  | some e =>
    if e.stamp = h.stamp then
      if e.count ≤ 1 then .ok { t with entries := t.entries.filter (·.text != h.text) }
      else .ok { t with entries := t.entries.map fun x =>
        if x.text == h.text then { x with count := x.count - 1 } else x }
    else .error (.stringNotInterned h.text)
  | none => .error (.stringNotInterned h.text)

end StringTable

/-!
### Frozen string lists

A profile refers to strings by their position in one list. The list is frozen from a string
table: the vocabulary's empty text first, then every other text of the table with a non-empty
text. A reference has a position when it is one of the listed references (same stamp); a
reference to an entry made after the list was frozen has none, even if its text is listed.
-/

/-- A frozen list of references. -/
structure StringIndex where
  /-- The references, in position order. -/
  strings : List Interned

namespace StringIndex

/-- The position of a reference: the index of the listed reference with its stamp. -/
def position? (ix : StringIndex) (h : Interned) : Option Nat :=
  ix.strings.findIdx? (·.stamp == h.stamp)

/-- The texts, in position order. -/
def texts (ix : StringIndex) : List String := ix.strings.map (·.text)

/-- The number of listed strings. -/
def size (ix : StringIndex) : Nat := ix.strings.length

end StringIndex

/-- Freezes the table: the vocabulary's empty text, then the entries with non-empty text. -/
def StringTable.snapshot (t : StringTable) : StringIndex :=
  ⟨t.vocabulary .empty :: (t.entries.filter (·.text != "")).map StringEntry.ref⟩

end HeapSampler
