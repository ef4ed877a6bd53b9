import HeapSampler.Strings.Table
import HeapSampler.Sample.Records
import HeapSampler.Text.Quoted

/-!
# Profiles and how they are built

The profile format of pprof, as far as this library writes it, and how a profile is built from
a frozen string list and a table's vocabulary: one sample per record added, each counting one
allocation, with the record's stack leaf first and three labels. Every text is an index into
the profile's string table, whose entry `0` is the empty text.

## Main definitions

* `Profile` with `ValueType`, `Label`, `Sample`, `Line`, `ProfileLocation`, `ProfileFunction`.
* `Profile.stringAt`: the text at an index, or `#index` when there is none.
* `SerializationError`, `SerializationError.message`.
* `ProfileBuilder`, `ProfileBuilder.new`, `ProfileBuilder.addSample`.
* `Profile.ofRecords`: the profile of a list of allocations and a list of heap records.
-/

/-!
### Profiles

The profile format of pprof, as far as this library writes it. Every text is an index into
the profile's string table, whose entry `0` is the empty text. Samples refer to locations,
locations to functions, both by id.
-/

namespace HeapSampler

/-- What a sample value measures: type and unit, as string indexes. -/
structure ValueType where
  /-- The type. -/
  type : Int64
  /-- The unit. -/
  unit : Int64
  deriving DecidableEq, Repr

/-- A label of a sample: a key with a text or with a number and its unit. -/
structure Label where
  /-- The key. -/
  key : Int64
  /-- The text value, `0` for none. -/
  str : Int64 := 0
  /-- The numeric value. -/
  num : Int64 := 0
  /-- The unit of the numeric value, `0` for none. -/
  numUnit : Int64 := 0
  deriving DecidableEq, Repr

/-- A sample: its stack as location ids (leaf first), its values and its labels. -/
structure Sample where
  /-- The location ids, the leaf first. -/
  locationIds : List UInt64
  /-- The values, one per sample type. -/
  values : List Int64
  /-- The labels. -/
  labels : List Label
  deriving DecidableEq, Repr

/-- A line of a location. -/
structure Line where
  /-- The function's id. -/
  functionId : UInt64
  /-- The line number. -/
  line : Int64
  deriving DecidableEq, Repr

/-- A location of the profile. -/
structure ProfileLocation where
  /-- Its id. -/
  id : UInt64
  /-- The mapping it lies in, `0` for none. -/
  mappingId : UInt64 := 0
  /-- Its address, `0` for none. -/
  address : UInt64 := 0
  /-- Its lines. -/
  lines : List Line
  /-- Whether it was folded. -/
  isFolded : Bool := false
  deriving DecidableEq, Repr

/-- A function of the profile. -/
structure ProfileFunction where
  /-- Its id. -/
  id : UInt64
  /-- Its name. -/
  name : Int64
  /-- Its system name. -/
  systemName : Int64
  /-- Its file. -/
  filename : Int64
  /-- Its first line. -/
  startLine : Int64
  deriving DecidableEq, Repr

/-- A profile. -/
structure Profile where
  /-- What the sample values measure. -/
  sampleType : List ValueType := []
  /-- The samples. -/
  samples : List Sample := []
  /-- The locations. -/
  locations : List ProfileLocation := []
  /-- The functions. -/
  functions : List ProfileFunction := []
  /-- The texts, entry `0` empty. -/
  stringTable : List String := []
  /-- When the profile was taken, in nanoseconds since the epoch. -/
  timeNanos : Int64 := 0
  /-- How long it covers. -/
  durationNanos : Int64 := 0
  /-- What the sampling period measures. -/
  periodType : Option ValueType := none
  /-- The sampling period. -/
  period : Int64 := 0
  /-- The sample type shown by default. -/
  defaultSampleType : Int64 := 0
  deriving Repr

/-- The text at a string index, or `#index` when there is none. -/
def Profile.stringAt (p : Profile) (i : Int64) : String :=
  if i.toInt < 0 then "#" ++ toString i.toInt
  else (p.stringTable[i.toInt.toNat]?).getD ("#" ++ toString i.toInt)

/-!
### Building a profile

A profile is built from a frozen string list and the table's vocabulary: one sample per record
added, each of value `1` counting one allocation, with the record's stack leaf first and three
labels: the kind, the allocation size and the current size, both in bytes. Every function and
location met is written once, in the order first met. A text that has no position in the
frozen list cannot be written; the sample that needs it is refused, but the functions and
locations written for it before stay.
-/

/-- Why a profile could not be built. -/
inductive SerializationError where
  /-- A text for the named field has no position in the frozen list. -/
  | nonInterned (field : String) (value : String)
  deriving Repr

/-- The message of a serialization error. -/
def SerializationError.message : SerializationError → String
  | .nonInterned field value =>
    "non-interned string " ++ Text.quote value ++ " passed for " ++ field

/-- A profile under construction. -/
structure ProfileBuilder where
  /-- The frozen strings that indexes refer to. -/
  strings : StringIndex
  /-- The table's vocabulary. -/
  vocabulary : Vocabulary
  /-- The profile so far. -/
  profile : Profile
  /-- The ids of the functions written. -/
  addedFunctions : List UInt64 := []
  /-- The ids of the locations written. -/
  addedLocations : List UInt64 := []

namespace ProfileBuilder

/-- The index of a text, or the error naming the field it was wanted for. -/
def position (b : ProfileBuilder) (field : String) (s : Interned) :
    Except SerializationError Int64 :=
  match b.strings.position? s with
  | some i => .ok i.toInt64
  | none => .error (.nonInterned field s.text)

/-- A builder for a frozen list, taken at `timeNanos`: one sample type, allocations counted,
which is also the period type, with period `1`. -/
def new (strings : StringIndex) (vocabulary : Vocabulary) (timeNanos : Int64) :
    Except SerializationError ProfileBuilder := do
  let b : ProfileBuilder :=
    { strings, vocabulary, profile := { stringTable := strings.texts, timeNanos, period := 1 } }
  let vt : ValueType :=
    ⟨← b.position "ValueType.type" (vocabulary .allocations),
     ← b.position "ValueType.unit" (vocabulary .count)⟩
  return { b with profile := { b.profile with sampleType := [vt], periodType := some vt } }

/-- Writes a location's function unless it was written before. -/
def addFunction (b : ProfileBuilder) (loc : Location) : Except SerializationError ProfileBuilder := do
  let fn := loc.function
  if b.addedFunctions.contains fn.id then return b
  let name ← b.position "Function.name" fn.name
  let file ← b.position "Function.filename" fn.file
  return { b with
    profile := { b.profile with
      functions := b.profile.functions ++ [⟨fn.id, name, name, file, fn.startLine⟩] }
    addedFunctions := b.addedFunctions ++ [fn.id] }

/-- Writes a location unless it was written before. -/
def addLocation (b : ProfileBuilder) (loc : Location) : ProfileBuilder :=
  if b.addedLocations.contains loc.id then b
  else { b with
    profile := { b.profile with
      locations := b.profile.locations ++ [{ id := loc.id, lines := [⟨loc.function.id, loc.line⟩] }] }
    addedLocations := b.addedLocations ++ [loc.id] }

/-- Writes the functions and locations of a stack given leaf first, stopping at the first
function that cannot be written. -/
def addFrames (b : ProfileBuilder) : List Location → ProfileBuilder × Option SerializationError
  | [] => (b, none)
  | loc :: locs =>
    match b.addFunction loc with
    | .error e => (b, some e)
    | .ok b => (b.addLocation loc).addFrames locs

/-- The three labels of a record of a kind. -/
def labels (b : ProfileBuilder) (r : SampleRecord) (kind : SampleKind) :
    Except SerializationError (List Label) := do
  let kindValue := match kind with
    | .allocation => b.vocabulary .allocation
    | .heap => b.vocabulary .heap
  let kindLabel : Label :=
    { key := ← b.position "Label.key" (b.vocabulary .kind),
      str := ← b.position "Label.str" kindValue }
  let allocLabel : Label :=
    { key := ← b.position "Label.key" (b.vocabulary .allocationSize),
      num := r.allocationSize.toInt64,
      numUnit := ← b.position "Label.num_unit" (b.vocabulary .bytes) }
  let currentLabel : Label :=
    { key := ← b.position "Label.key" (b.vocabulary .currentSize),
      num := r.currentSize.toInt64,
      numUnit := ← b.position "Label.num_unit" (b.vocabulary .bytes) }
  return [kindLabel, allocLabel, currentLabel]

/-- Adds one sample for a record. On a failure the builder keeps what was written before it. -/
def addSample (b : ProfileBuilder) (r : SampleRecord) (kind : SampleKind) :
    ProfileBuilder × Option SerializationError :=
  let leafFirst := r.backtrace.reverse
  match b.addFrames leafFirst with
  | (b, some e) => (b, some e)
  | (b, none) =>
    match b.labels r kind with
    | .error e => (b, some e)
    | .ok ls =>
      ({ b with profile := { b.profile with
          samples := b.profile.samples ++ [⟨leafFirst.map (·.id), [1], ls⟩] } }, none)

/-- The number of samples added. -/
def sampleCount (b : ProfileBuilder) : Nat := b.profile.samples.length

/-- Adds one sample per record, all of one kind, stopping at the first refusal. -/
def addAll (b : ProfileBuilder) (kind : SampleKind) :
    List SampleRecord → Except SerializationError ProfileBuilder
  | [] => .ok b
  | r :: rs =>
    match b.addSample r kind with
    | (b, none) => b.addAll kind rs
    | (_, some e) => .error e

end ProfileBuilder

/-- The profile of the allocations and then the heap records, over a frozen string list, taken
at `timeNanos`. -/
def Profile.ofRecords (strings : StringIndex) (vocabulary : Vocabulary) (timeNanos : Int64)
    (allocations heap : List SampleRecord) : Except SerializationError Profile := do
  let b ← ProfileBuilder.new strings vocabulary timeNanos
  let b ← b.addAll .allocation allocations
  let b ← b.addAll .heap heap
  return b.profile

end HeapSampler
