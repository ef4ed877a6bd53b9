import HeapSampler.Settings.Basic
import HeapSampler.Json.Reader
import HeapSampler.Json.Document

/-!
# Settings as JSON text

The settings are written as one JSON object with the fields in a fixed order, rates as JSON
numbers (`null` for NaN and the infinities, which JSON cannot write), capacities as integers
and the capture method by its name.

They are read back from an object or from an array of up to five values in the same order.
A missing field keeps its default, an unknown field is skipped, and a field given twice is
refused. The capture method is read by its canonical name only, as a string or as an object
`{"fast": null}`. Every refusal names the line and column where it was found.

## Main definitions

* `Settings.toJson`: the JSON text of the settings.
* `Settings.ofJson`: the settings of a JSON text, or the reading error.
-/

namespace HeapSampler

namespace Settings

/-- The settings as a JSON object, fields in their fixed order. -/
def toValue (s : Settings) : Json.Value :=
  .obj [("sample_rate", .double s.sampleRate), ("allocation_retain_rate", .double s.retainRate),
    ("max_allocation_samples", .int s.maxAllocationSamples),
    ("max_heap_samples", .int s.maxHeapSamples), ("backtrace_method", .str s.method.name)]

/-- The JSON text of the settings. -/
def toJson (s : Settings) : String := s.toValue.render

end Settings

namespace SettingsReader

open Json Reader

/-- The five fields, and any other key. -/
inductive Field where
  | sampleRate | retainRate | maxAllocations | maxHeap | method
  | other
  deriving DecidableEq

/-- The field a key names. -/
def Field.ofKey (k : String) : Field :=
  if k = "sample_rate" then .sampleRate
  else if k = "allocation_retain_rate" then .retainRate
  else if k = "max_allocation_samples" then .maxAllocations
  else if k = "max_heap_samples" then .maxHeap
  else if k = "backtrace_method" then .method
  else .other

/-- The key of a field, as named in messages. -/
def Field.key : Field → String
  | .sampleRate => "sample_rate"
  | .retainRate => "allocation_retain_rate"
  | .maxAllocations => "max_allocation_samples"
  | .maxHeap => "max_heap_samples"
  | .method => "backtrace_method"
  | .other => ""

/-- Reads a number for a field that wants `expected`, giving an error without a place for a
number of the wrong kind. -/
def numberFor {α : Type} (expected : String) (accept : Number → Except ErrorCode α) :
    Reader α := withPlace do
  match ← whitespace with
  | none => failAhead .eofWhileParsingValue
  | some b =>
    let n ← if b == 45 then (do bump; number false)
      else if isDigit b then number true
      else failInvalidType expected
    match accept n with
    | .ok a => pure a
    | .error code => refuse code

/-- Reads a rate: any number, as a double. -/
def rate : Reader Float := numberFor "f64" fun n => .ok n.toDouble

/-- Reads a capacity: a non-negative integer below `2 ^ 64`. -/
def capacity : Reader Nat := numberFor "usize" fun
  | .unsigned n => .ok n.toNat
  | .signed n => .error (invalidValue (.signed n) "usize")
  | .double x => .error (invalidType (.double x) "usize")

/-- Reads the name of a capture method as a string. -/
def methodName : Reader CaptureMethod := withPlace do
  match ← whitespace with
  | none => failAhead .eofWhileParsingValue
  | some 34 =>
    bump
    let s ← string
    if s = "fast" then pure .fast
    else if s = "slow" then pure .slow
    else refuse (.message ("unknown variant `" ++ s ++ "`, expected `fast` or `slow`"))
  | some _ => failInvalidType "variant identifier"

/-- Reads `null`. -/
def unit : Reader Unit := withPlace do
  match ← whitespace with
  | none => failAhead .eofWhileParsingValue
  | some 110 => do bump; ident [117, 108, 108]
  | some _ => failInvalidType "unit"

/-- Reads a capture method: its name as a string, or an object with its name as the only key
and `null` as the value. In the object form the name is read as a key: an empty object wants a
value there, and anything else but a string is refused as a key. -/
def method : Reader CaptureMethod := do
  match ← whitespace with
  | some 123 =>
    bump
    match ← whitespace with
    | some 34 => pure ()
    | some 125 => failAhead .expectedSomeValue
    | some _ => failAhead .keyMustBeAString
    | none => failAhead .eofWhileParsingObject
    let m ← methodName
    colon
    unit
    match ← whitespace with
    | some 125 => bump; pure m
    | some _ => fail .expectedSomeValue
    | none => fail .eofWhileParsingObject
  | some 34 => methodName
  | some _ => failAhead .expectedSomeValue
  | none => failAhead .eofWhileParsingValue

/-- Settings being read: a field is `none` until it is read. -/
structure Partial where
  sampleRate : Option Float := none
  retainRate : Option Float := none
  maxAllocations : Option Nat := none
  maxHeap : Option Nat := none
  method : Option CaptureMethod := none

/-- The settings read, defaults for the fields not read. -/
def Partial.settings (p : Partial) : Settings :=
  { sampleRate := p.sampleRate.getD 0.01, retainRate := p.retainRate.getD 1.0,
    maxAllocationSamples := p.maxAllocations.getD 10000, maxHeapSamples := p.maxHeap.getD 50000,
    method := p.method.getD .fast }

/-- Whether a field was read already. -/
def Partial.has (p : Partial) : Field → Bool
  | .sampleRate => p.sampleRate.isSome
  | .retainRate => p.retainRate.isSome
  | .maxAllocations => p.maxAllocations.isSome
  | .maxHeap => p.maxHeap.isSome
  | .method => p.method.isSome
  | .other => false

/-- Reads the value of a field into the settings read so far. -/
def Partial.read (p : Partial) : Field → Reader Partial
  | .sampleRate => do return { p with sampleRate := some (← rate) }
  | .retainRate => do return { p with retainRate := some (← rate) }
  | .maxAllocations => do return { p with maxAllocations := some (← capacity) }
  | .maxHeap => do return { p with maxHeap := some (← capacity) }
  | .method => do return { p with method := some (← SettingsReader.method) }
  | .other => do skipValue; return p

/-- Reads the next key of an object as a field, or `none` at its end. -/
def key (first : Bool) : Reader (Option Field) := do
  return (← nextKey first).map Field.ofKey

/-- Reads the members of an object after its opening brace, at most `fuel` of them. -/
def members : Nat → Bool → Partial → Reader Partial
  | 0, _, p => pure p
  | fuel + 1, first, p => do
    match ← key first with
    | none => pure p
    | some f =>
      if p.has f then refuse (.message ("duplicate field `" ++ f.key ++ "`"))
      colon
      members fuel false (← p.read f)

/-- Reads the elements of an array after its opening bracket: the fields in order, while the
array has elements. -/
def elements : Reader Partial := do
  let fields := [Field.sampleRate, .retainRate, .maxAllocations, .maxHeap, .method]
  let mut p : Partial := {}
  let mut first := true
  for f in fields do
    if ← moreElements first then
      first := false
      p ← p.read f
    else
      return p
  return p

/-- Reads a body and then its closing bracket; when the body fails, the closing bracket is
still looked for (moving past blanks) and the body's error is the one reported. -/
def closed (body : Reader Partial) (close : Reader Unit) : Reader Partial := do
  let r : Except ReadError Partial ← tryCatch (Except.ok <$> body) (fun e => pure (.error e))
  let c : Except ReadError Unit ← tryCatch (Except.ok <$> close) (fun e => pure (.error e))
  match r, c with
  | .ok p, .ok () => pure p
  | .error e, _ => throw e
  | _, .error e => throw e

/-- Reads the settings value. -/
def settingsValue : Reader Settings := withPlace do
  match ← whitespace with
  | none => failAhead .eofWhileParsingValue
  | some 91 => do bump; return (← closed elements endArray).settings
  | some 123 => do bump; return (← closed (members ((← remaining) + 1) true {}) endObject).settings
  | some _ => failInvalidType "struct Configuration"

/-- Reads a whole text: the settings and nothing after them but blanks. -/
def document : Reader Settings := do
  let s ← settingsValue
  match ← whitespace with
  | some _ => failAhead .trailingCharacters
  | none => pure s

end SettingsReader

/-- The settings written in a JSON text, or the reason they cannot be read. -/
def Settings.ofJson (text : String) : Except Json.ReadError Settings :=
  SettingsReader.document.run text

end HeapSampler
