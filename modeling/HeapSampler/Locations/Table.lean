import HeapSampler.Strings.Table

/-!
# The location table

A captured stack is a list of frames, the most recent call last. Interning a stack turns each
frame into a shared `Location` (a line inside a function) and a shared `FunctionInfo`, kept
once per id in the table with a count of the frames that refer to them. A function's id is the
frame's own id when it has one, or the id derived from its name, file and first line; the
location's id is derived from the function's id and the line, both by SipHash-1-3, given first.

A new function interns its name and then its file in the string table, and keeps the name, file
and first line of the frame that made it. Releasing a backtrace walks its frames from the most
recent one back, giving back one count on the location and then one on its function; a function
whose count reaches zero leaves the table and releases its name and then its file.

## Main definitions

* `SipHash.State` and `SipHash.State.round`: the four words and one round.
* `SipHash.hash13`: the hash of a byte list under two 64-bit keys.
* `SipHash.le64`: the eight little-endian bytes of a 64-bit word, the form in which numbers are
  fed to the hash.
* `functionId`, `locationId`.
* `Frame`, `FunctionInfo`, `Location`, `Backtrace`.
* `LocationTable`, `LocationTable.intern`, `LocationTable.release`.
-/

/-!
### SipHash-1-3

SipHash is a keyed hash of a byte string built from four 64-bit words and an add-rotate-xor
round. The 1-3 variant runs one round per 8-byte block and three at the end. The message is
read in little-endian 8-byte blocks; the last block holds the leftover bytes and, in its top
byte, the message length modulo 256.
-/

namespace HeapSampler.SipHash

/-- The four words of the hash state. -/
structure State where
  /-- First word. -/
  v0 : UInt64
  /-- Second word. -/
  v1 : UInt64
  /-- Third word. -/
  v2 : UInt64
  /-- Fourth word. -/
  v3 : UInt64

/-- Rotation of a word to the left by `b` bits, `0 < b < 64`. -/
def rotl (x : UInt64) (b : UInt64) : UInt64 := (x <<< b) ||| (x >>> (64 - b))

/-- One add-rotate-xor round. -/
def State.round (s : State) : State :=
  let v0 := s.v0 + s.v1
  let v1 := rotl s.v1 13 ^^^ v0
  let v0 := rotl v0 32
  let v2 := s.v2 + s.v3
  let v3 := rotl s.v3 16 ^^^ v2
  let v0 := v0 + v3
  let v3 := rotl v3 21 ^^^ v0
  let v2 := v2 + v1
  let v1 := rotl v1 17 ^^^ v2
  let v2 := rotl v2 32
  ⟨v0, v1, v2, v3⟩

/-- `n` rounds. -/
def State.rounds (s : State) : Nat → State
  | 0 => s
  | n + 1 => (s.round).rounds n

/-- The state after the keys are mixed into the four constants. -/
def State.init (k0 k1 : UInt64) : State :=
  ⟨k0 ^^^ 0x736f6d6570736575, k1 ^^^ 0x646f72616e646f6d,
   k0 ^^^ 0x6c7967656e657261, k1 ^^^ 0x7465646279746573⟩

/-- Absorbs one message word with one round. -/
def State.absorb (s : State) (m : UInt64) : State :=
  let s := ({ s with v3 := s.v3 ^^^ m } : State).round
  { s with v0 := s.v0 ^^^ m }

/-- The little-endian word of up to eight bytes. -/
def word (bs : List UInt8) : UInt64 :=
  bs.foldr (fun b acc => (acc <<< 8) ||| b.toUInt64) 0

/-- Absorbs the whole 8-byte blocks of a byte list and returns the leftover bytes. -/
def State.absorbBlocks (s : State) (bs : List UInt8) : State × List UInt8 :=
  if _h : 8 ≤ bs.length then
    (s.absorb (word (bs.take 8))).absorbBlocks (bs.drop 8)
  else (s, bs)
termination_by bs.length
decreasing_by simp; omega

/-- SipHash-1-3 of a byte list under the keys `k0`, `k1`. -/
def hash13 (k0 k1 : UInt64) (bs : List UInt8) : UInt64 :=
  let (s, rest) := (State.init k0 k1).absorbBlocks bs
  let last := word rest ||| ((bs.length % 256).toUInt64 <<< 56)
  let s := s.absorb last
  let s := ({ s with v2 := s.v2 ^^^ 0xff } : State).rounds 3
  s.v0 ^^^ s.v1 ^^^ s.v2 ^^^ s.v3

/-- The eight little-endian bytes of a word. -/
def le64 (x : UInt64) : List UInt8 :=
  (List.range 8).map fun i => (x >>> (8 * i).toUInt64).toUInt8

end HeapSampler.SipHash

/-!
### Function and location ids

A function is known by a 64-bit id derived from what identifies it to a reader: its name, its
file and the line where it starts. A location, one line inside a function, is known by an id
derived from the function's id and the line. Both are SipHash-1-3 under the keys `(0, 0)` of a
byte string: a text contributes its UTF-8 bytes and the byte `0xff` (which no UTF-8 text
holds, so no two sequences of texts run together), a number its eight little-endian bytes.
Id `0` is reserved, so a hash of `0` is replaced by `1`.
-/

namespace HeapSampler

/-- The bytes a text contributes to a hash. -/
def hashText (s : String) : List UInt8 := s.toUTF8.toList ++ [0xff]

/-- An id from a hash: `0` is reserved and becomes `1`. -/
def idOfHash (h : UInt64) : UInt64 := max h 1

/-- The id of the function with this name, file and first line. -/
def functionId (name file : String) (startLine : Int64) : UInt64 :=
  idOfHash (SipHash.hash13 0 0 (hashText name ++ hashText file ++ SipHash.le64 startLine.toUInt64))

/-- The id of a line inside the function with id `function`. -/
def locationId (function : UInt64) (line : Int64) : UInt64 :=
  idOfHash (SipHash.hash13 0 0 (SipHash.le64 function ++ SipHash.le64 line.toUInt64))

/-! ### Interning and releasing stacks -/

/-- One frame of a captured stack, before interning. -/
structure Frame where
  /-- The function's own id, or `0` to derive one from its name, file and first line. -/
  functionId : UInt64 := 0
  /-- The function's name. -/
  name : String := ""
  /-- The function's file. -/
  file : String := ""
  /-- The first line of the function. -/
  startLine : Int64 := 0
  /-- The line that was executing. -/
  line : Int64 := 0
  deriving DecidableEq, Repr

/-- The id of a frame's function. -/
def Frame.resolvedFunctionId (f : Frame) : UInt64 :=
  if f.functionId = 0 then HeapSampler.functionId f.name f.file f.startLine else f.functionId

/-- A function in the table. -/
structure FunctionInfo where
  /-- Its id. -/
  id : UInt64
  /-- Its name. -/
  name : Interned
  /-- Its file. -/
  file : Interned
  /-- Its first line. -/
  startLine : Int64
  deriving DecidableEq, Repr

/-- A line inside a function. -/
structure Location where
  /-- Its id. -/
  id : UInt64
  /-- The line. -/
  line : Int64
  /-- The function it lies in. -/
  function : FunctionInfo
  deriving DecidableEq, Repr

/-- An interned stack, the most recent call last. -/
abbrev Backtrace := List Location

/-- A value kept in the table with the number of frames that refer to it. -/
structure Counted (α : Type) where
  /-- The value. -/
  value : α
  /-- The frames referring to it. -/
  count : Nat
  deriving Repr

/-- The functions and locations of all interned stacks. -/
structure LocationTable where
  /-- The functions, one per id. -/
  functions : List (Counted FunctionInfo) := []
  /-- The locations, one per id. -/
  locations : List (Counted Location) := []

namespace LocationTable

/-- The function with an id. -/
def function? (t : LocationTable) (id : UInt64) : Option (Counted FunctionInfo) :=
  t.functions.find? (·.value.id == id)

/-- The location with an id. -/
def location? (t : LocationTable) (id : UInt64) : Option (Counted Location) :=
  t.locations.find? (·.value.id == id)

/-- The frames referring to a function, `none` when it is not in the table. -/
def functionCount? (t : LocationTable) (id : UInt64) : Option Nat :=
  (t.function? id).map (·.count)

/-- The frames referring to a location, `none` when it is not in the table. -/
def locationCount? (t : LocationTable) (id : UInt64) : Option Nat :=
  (t.location? id).map (·.count)

/-- Counts one more frame on each entry with the id. -/
def bump {α : Type} (xs : List (Counted α)) (key : α → UInt64) (id : UInt64) : List (Counted α) :=
  xs.map fun c => if key c.value == id then { c with count := c.count + 1 } else c

/-- Interns one frame, with the string table its new function's texts go to. -/
def internFrame (t : LocationTable) (strings : StringTable) (f : Frame) :
    LocationTable × StringTable × Location :=
  let fid := f.resolvedFunctionId
  let (t, strings, fn) := match t.function? fid with
    | some c => ({ t with functions := bump t.functions (·.id) fid }, strings, c.value)
    | none =>
      let (strings, name) := strings.intern f.name
      let (strings, file) := strings.intern f.file
      let fn : FunctionInfo := ⟨fid, name, file, f.startLine⟩
      ({ t with functions := t.functions ++ [(⟨fn, 1⟩ : Counted FunctionInfo)] }, strings, fn)
  let lid := locationId fid f.line
  match t.location? lid with
  | some c => ({ t with locations := bump t.locations (·.id) lid }, strings, c.value)
  | none =>
    let loc : Location := ⟨lid, f.line, fn⟩
    ({ t with locations := t.locations ++ [(⟨loc, 1⟩ : Counted Location)] }, strings, loc)

/-- Interns a stack, frame by frame. -/
def intern (t : LocationTable) (strings : StringTable) : List Frame →
    LocationTable × StringTable × Backtrace
  | [] => (t, strings, [])
  | f :: fs =>
    let (t, strings, loc) := t.internFrame strings f
    let (t, strings, locs) := t.intern strings fs
    (t, strings, loc :: locs)

/-- Gives back one count of a location; it leaves the table at zero. -/
def releaseLocation (t : LocationTable) (id : UInt64) : Except Abort LocationTable :=
  match t.location? id with
  | none => .error (.locationOverReleased id)
  | some c =>
    if c.count ≤ 1 then .ok { t with locations := t.locations.filter (·.value.id != id) }
    else .ok { t with locations := t.locations.map fun x =>
      if x.value.id == id then { x with count := x.count - 1 } else x }

/-- Gives back one count of a function; at zero it leaves the table and its name and then its
file are released. -/
def releaseFunction (t : LocationTable) (strings : StringTable) (id : UInt64) :
    Except Abort (LocationTable × StringTable) :=
  match t.function? id with
  | none => .error (.functionOverReleased id)
  | some c =>
    if c.count ≤ 1 then do
      let t := { t with functions := t.functions.filter (·.value.id != id) }
      let strings ← strings.release c.value.name
      let strings ← strings.release c.value.file
      return (t, strings)
    else .ok ({ t with functions := t.functions.map fun x =>
      if x.value.id == id then { x with count := x.count - 1 } else x }, strings)

/-- Gives back the counts of one interned frame: the location's, then its function's. -/
def releaseOne (t : LocationTable) (strings : StringTable) (loc : Location) :
    Except Abort (LocationTable × StringTable) := do
  let t ← t.releaseLocation loc.id
  t.releaseFunction strings loc.function.id

/-- Gives back the counts of a backtrace, from its most recent frame back. -/
def release (t : LocationTable) (strings : StringTable) (bt : Backtrace) :
    Except Abort (LocationTable × StringTable) :=
  bt.reverse.foldlM (fun (acc : LocationTable × StringTable) loc => acc.1.releaseOne acc.2 loc)
    (t, strings)

end LocationTable

end HeapSampler
