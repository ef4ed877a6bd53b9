import HeapSampler.Locations.Table

/-!
# Sample records and their holders

A sample record is what the collector keeps of one sampled allocation. Records are shared by
name between two holders: the allocation ledger, which lists the records sampled since the
last export, and the heap index, which maps the handles of objects still believed live to their
records. The record store keeps each record under its name with the number of its holders, and
gives it back to the one who lets go of it last.

## Main definitions

* `SampleRecord` and its updates: `resolveSize`, `setCurrentSize`, `setHandle`, `clearHandle`.
* `SampleKind`: whether a record is exported as an allocation or as part of the live heap.
* `RecordId`: the name under which containers share a record.
* `StoredRecord`, `RecordStore`, with `get?`, `owners`, `add`, `update`, `release`.
* `Ledger`, with `push`, `unlink`, `detach`, `contains`, `setCapacity`, `isFull`.
* `HeapIndex`, with `get?`, `insert`, `remove`, `removeIfSame`, `drain`, `relocate`.
-/

/-!
### Sample records

A sample record is what the collector keeps of one sampled allocation: its interned stack,
the size it was allocated with, its size when last measured, and the handle of the object it
describes. Handle `0` names no object: a record whose object is known to be gone has its
handle cleared to `0`.
-/

namespace HeapSampler

/-- The name of a record. The ledger and the heap index hold names, so an update of a record
is seen through every container that holds it. -/
abbrev RecordId := Nat

/-- What is kept of one sampled allocation. -/
structure SampleRecord where
  /-- The interned stack of the allocation. -/
  backtrace : Backtrace
  /-- The size the object was allocated with, or measured at first. -/
  allocationSize : UInt64
  /-- The size the object had when last measured. -/
  currentSize : UInt64
  /-- The object's handle, `0` when the object is gone. -/
  handle : UInt64
  deriving DecidableEq, Repr

namespace SampleRecord

/-- A new record: both sizes start at the size hint. -/
def new (bt : Backtrace) (handle size : UInt64) : SampleRecord := ⟨bt, size, size, handle⟩

/-- The object's handle, `none` when cleared. -/
def handle? (r : SampleRecord) : Option UInt64 := if r.handle = 0 then none else some r.handle

/-- The first measurement of the object: both sizes become it. -/
def resolveSize (r : SampleRecord) (size : UInt64) : SampleRecord :=
  { r with allocationSize := size, currentSize := size }

/-- A later measurement of the object. -/
def setCurrentSize (r : SampleRecord) (size : UInt64) : SampleRecord :=
  { r with currentSize := size }

/-- The object moved to a new handle. -/
def setHandle (r : SampleRecord) (h : UInt64) : SampleRecord := { r with handle := h }

/-- The object is gone. -/
def clearHandle (r : SampleRecord) : SampleRecord := { r with handle := 0 }

end SampleRecord

/-- How a record is exported. -/
inductive SampleKind where
  /-- As an allocation made since the last export. -/
  | allocation
  /-- As an object still live on the heap. -/
  | heap
  deriving DecidableEq, Repr

/-!
### The record store

Records are shared: the ledger and the heap index may both hold one. The store keeps each
record under its name with the number of holders, its *owners*. A record leaves the store when
its last owner lets go, and the one who let go last gets it back, to return its backtrace to the
location table.
-/

/-- A record and the number of its holders. -/
structure StoredRecord where
  /-- The record. -/
  record : SampleRecord
  /-- The number of holders. -/
  owners : Nat
  deriving DecidableEq, Repr

/-- The records in use, by name. -/
structure RecordStore where
  /-- The records, by name, oldest first. -/
  entries : List (RecordId × StoredRecord) := []
  /-- The name of the next record. -/
  nextId : RecordId := 0
  deriving DecidableEq, Repr

namespace RecordStore

/-- The stored record with a name. -/
def find? (s : RecordStore) (id : RecordId) : Option StoredRecord :=
  (s.entries.find? (·.1 == id)).map (·.2)

/-- The record with a name. -/
def get? (s : RecordStore) (id : RecordId) : Option SampleRecord := (s.find? id).map (·.record)

/-- The number of holders of a record, `0` for a name not in use. -/
def owners (s : RecordStore) (id : RecordId) : Nat := ((s.find? id).map (·.owners)).getD 0

/-- Stores a new record with a number of holders, under a fresh name. -/
def add (s : RecordStore) (r : SampleRecord) (owners : Nat) : RecordStore × RecordId :=
  ({ entries := s.entries ++ [(s.nextId, ⟨r, owners⟩)], nextId := s.nextId + 1 }, s.nextId)

/-- Changes a record; every holder sees the change. -/
def update (s : RecordStore) (id : RecordId) (f : SampleRecord → SampleRecord) : RecordStore :=
  { s with entries := s.entries.map fun e => if e.1 == id then (e.1, { e.2 with record := f e.2.record }) else e }

/-- One holder lets go of a record. The last one gets the record back, and it leaves the
store. -/
def release (s : RecordStore) (id : RecordId) : RecordStore × Option SampleRecord :=
  match s.find? id with
  | none => (s, none)
  | some e =>
    if e.owners ≤ 1 then ({ s with entries := s.entries.filter (·.1 != id) }, some e.record)
    else ({ s with entries := s.entries.map fun x =>
      if x.1 == id then (x.1, { x.2 with owners := x.2.owners - 1 }) else x }, none)

end RecordStore

/-!
### The allocation ledger

The ledger lists the records sampled since the last export, the most recent first, up to a
capacity. A push onto a full ledger is refused; lowering the capacity below the length drops
nothing, it only refuses further pushes. A record is removed by name, its first occurrence,
and the whole list is taken out at export.
-/

/-- A bounded list of records, the most recent first. -/
structure Ledger where
  /-- The number of records it takes. -/
  capacity : Nat
  /-- The records, the most recent first. -/
  records : List RecordId := []
  deriving DecidableEq, Repr

/-- A push onto a full ledger. -/
inductive LedgerFull where
  /-- The ledger holds `capacity` records or more. -/
  | full
  deriving DecidableEq, Repr

namespace Ledger

/-- The number of records held. -/
def size (l : Ledger) : Nat := l.records.length

/-- The ledger takes no more records. -/
def isFull (l : Ledger) : Bool := decide (l.capacity ≤ l.records.length)

/-- Adds a record at the front, unless the ledger is full. -/
def push (l : Ledger) (r : RecordId) : Except LedgerFull Ledger :=
  if l.isFull then .error .full else .ok { l with records := r :: l.records }

/-- Removes the first occurrence of a record, and returns it if there was one. -/
def unlink (l : Ledger) (r : RecordId) : Ledger × Option RecordId :=
  if r ∈ l.records then ({ l with records := l.records.erase r }, some r) else (l, none)

/-- Takes all records out, the most recent first. -/
def detach (l : Ledger) : Ledger × List RecordId := ({ l with records := [] }, l.records)

/-- Whether the ledger holds a record. -/
def contains (l : Ledger) (r : RecordId) : Bool := l.records.contains r

/-- Sets the capacity; records beyond it stay. -/
def setCapacity (l : Ledger) (n : Nat) : Ledger := { l with capacity := n }

end Ledger

/-!
### The heap index

The heap index maps the handles of objects still believed live to their records, one record
per handle. It has a capacity, which the collector checks before sampling; the index itself
takes any number of entries.

When the host moves objects, `relocate` moves each entry whose handle the remapping changes to
the new handle. Entries that stay keep their handles unless a moved entry lands on one; the
records that lose their slot that way are returned, and the caller owns them. The moved
records are returned with their new handles so the caller can update them.
-/

/-- The records of live objects, by handle. -/
structure HeapIndex where
  /-- The number of entries the collector lets it hold. -/
  capacity : Nat
  /-- The entries, one per handle. -/
  entries : List (UInt64 × RecordId) := []
  deriving DecidableEq, Repr

namespace HeapIndex

/-- The number of entries. -/
def size (ix : HeapIndex) : Nat := ix.entries.length

/-- The index holds as many entries as its capacity, or more. -/
def isFull (ix : HeapIndex) : Bool := decide (ix.capacity ≤ ix.entries.length)

/-- Sets the capacity; entries beyond it stay. -/
def setCapacity (ix : HeapIndex) (n : Nat) : HeapIndex := { ix with capacity := n }

/-- The record under a handle. -/
def get? (ix : HeapIndex) (h : UInt64) : Option RecordId :=
  (ix.entries.find? (·.1 == h)).map (·.2)

/-- Puts a record under a handle, and returns the record it replaces. -/
def insert (ix : HeapIndex) (h : UInt64) (r : RecordId) : HeapIndex × Option RecordId :=
  match ix.get? h with
  | some old => ({ ix with entries := ix.entries.map fun e => if e.1 == h then (h, r) else e }, some old)
  | none => ({ ix with entries := ix.entries ++ [(h, r)] }, none)

/-- Removes the entry under a handle, and returns its record. -/
def remove (ix : HeapIndex) (h : UInt64) : HeapIndex × Option RecordId :=
  match ix.get? h with
  | some old => ({ ix with entries := ix.entries.filter (·.1 != h) }, some old)
  | none => (ix, none)

/-- Removes the entry under a handle only if it holds the given record. -/
def removeIfSame (ix : HeapIndex) (h : UInt64) (r : RecordId) : HeapIndex × Option RecordId :=
  if ix.get? h = some r then ix.remove h else (ix, none)

/-- Takes all entries out and returns their records. -/
def drain (ix : HeapIndex) : HeapIndex × List RecordId :=
  ({ ix with entries := [] }, ix.entries.map (·.2))

/-- Puts moved entries in, one by one: each takes its new handle, and a record it pushes out is
displaced. -/
def settle (ix : HeapIndex) : List (UInt64 × RecordId) → HeapIndex × List RecordId
  | [] => (ix, [])
  | (h, r) :: moved =>
    let (ix, previous) := ix.insert h r
    let (ix, displaced) := ix.settle moved
    (ix, previous.toList ++ displaced)

/-- The entries that `remap` moves, with their new handles. -/
def moves (ix : HeapIndex) (remap : UInt64 → UInt64) : List (UInt64 × RecordId) :=
  (ix.entries.filter fun e => remap e.1 != e.1).map fun e => (remap e.1, e.2)

/-- Moves every entry whose handle `remap` changes. Returns the new index, the records that
lost their slot to a moved entry, and the moved records with their new handles. -/
def relocate (ix : HeapIndex) (remap : UInt64 → UInt64) :
    HeapIndex × List RecordId × List (UInt64 × RecordId) :=
  let moved := ix.moves remap
  let staying := { ix with entries := ix.entries.filter fun e => remap e.1 == e.1 }
  let (ix, displaced) := staying.settle moved
  (ix, displaced, moved)

end HeapIndex

end HeapSampler
