import HeapSampler.Decimal.Layout
import HeapSampler.Text.Quoted
import HeapSampler.Json.Reader

/-!
# JSON values and documents

A JSON value has a compact text with no blanks, and a JSON document is one value read whole
from a text. A document's object members are kept in increasing order of their keys, and a key
given twice keeps the value written last, so an object is a map from keys to values.

## Main definitions

* `Json.Value`: the values.
* `Json.escapeString`: the quoted text of a string.
* `Json.Value.render`: the compact text of a value.
* `Json.nestingLimit`: the bound on nesting.
* `Json.Value.insertMember`: adding a member to an object kept in key order.
* `Json.Value.ofText`: the document of a text, or the reading error.
* `Json.Value.get?`: the value of a key in an object; `none` for a missing key and for any value
  that is not an object.
-/

/-!
### JSON values and their compact text

A JSON value and its text with no blanks: object members in the order given, strings with the
quote, the backslash and the control characters escaped, integers in decimal and doubles in
the JSON layout of shortest digits (`null` for a double that JSON cannot write).
-/

namespace HeapSampler.Json

/-- A JSON value. -/
inductive Value where
  /-- `null`. -/
  | null
  /-- `true` or `false`. -/
  | bool (b : Bool)
  /-- An integer. -/
  | int (n : Int)
  /-- A double, written with its shortest digits. -/
  | double (x : Float)
  /-- A string. -/
  | str (s : String)
  /-- An array. -/
  | arr (items : List Value)
  /-- An object, members in order. -/
  | obj (members : List (String × Value))

instance : Inhabited Value := ⟨.null⟩

/-- The written form of one character inside a JSON string. -/
def escapeChar (c : Char) : String :=
  if c = '"' then "\\\""
  else if c = '\\' then "\\\\"
  else if c = '\n' then "\\n"
  else if c = '\r' then "\\r"
  else if c = '\t' then "\\t"
  else if c = '\x08' then "\\b"
  else if c = '\x0c' then "\\f"
  else if c.toNat < 32 then
    let h := Text.hexDigits c.toNat
    "\\u" ++ String.ofList (List.replicate (4 - h.length) '0') ++ h
  else String.singleton c

/-- The quoted JSON text of a string. -/
def escapeString (s : String) : String :=
  "\"" ++ String.join (s.toList.map escapeChar) ++ "\""

mutual

/-- The compact text of a value. -/
def Value.render : Value → String
  | .null => "null"
  | .bool b => if b then "true" else "false"
  | .int n => toString n
  | .double x => (Decimal.Layout.json.render x).getD "null"
  | .str s => escapeString s
  | .arr items => "[" ++ Value.renderItems items ++ "]"
  | .obj members => "\x7b" ++ Value.renderMembers members ++ "\x7d"

/-- The texts of array items, joined by commas. -/
def Value.renderItems : List Value → String
  | [] => ""
  | [v] => v.render
  | v :: vs => v.render ++ "," ++ Value.renderItems vs

/-- The texts of object members, joined by commas. -/
def Value.renderMembers : List (String × Value) → String
  | [] => ""
  | [(k, v)] => escapeString k ++ ":" ++ v.render
  | (k, v) :: ms => escapeString k ++ ":" ++ v.render ++ "," ++ Value.renderMembers ms

end

/-!
### JSON documents

A JSON document is one value read whole from a text. Its object members are kept in increasing
order of their keys, and a key given twice keeps the value written last, so an object is a map
from keys to values. Numbers keep the kind the reader gives them: integers that fit in 64 bits
stay integers and every other number is a double. At most `nestingLimit - 1` arrays and objects
may stand inside one another; the one that would open at the limit is refused where its bracket
stands.
-/

/-- The nesting of arrays and objects at which reading stops. -/
def nestingLimit : Nat := 128

namespace Value

/-- Adds a member to members kept in increasing key order; a member with the same key is
replaced. -/
def insertMember (k : String) (v : Value) : List (String × Value) → List (String × Value)
  | [] => [(k, v)]
  | (k', v') :: ms =>
    if k = k' then (k, v) :: ms
    else if k < k' then (k, v) :: (k', v') :: ms
    else (k', v') :: insertMember k v ms

/-- The value of a number as read. -/
def ofNumber : Number → Value
  | .unsigned n => .int n.toNat
  | .signed n => .int n.toInt
  | .double x => .double x

/-- The value of a key in an object; `none` when the key is missing or the value is not an
object. -/
def get? (v : Value) (k : String) : Option Value :=
  match v with
  | .obj ms => (ms.find? (·.1 == k)).map (·.2)
  | _ => none

end Value

namespace Reader

mutual

/-- Reads one value. `room` is the nesting still allowed: an array or object opens only while
more than one level is left. Every call reads a byte before it calls again, or stops, so
`fuel` above twice the bytes left is never used up. -/
def value : Nat → Nat → Reader Value
  | 0, _ => failAhead .eofWhileParsingValue
  | fuel + 1, room => do
    match ← whitespace with
    | none => failAhead .eofWhileParsingValue
    | some b =>
      if b == 110 then (do bump; ident [117, 108, 108]; pure .null)
      else if b == 116 then (do bump; ident [114, 117, 101]; pure (.bool true))
      else if b == 102 then (do bump; ident [97, 108, 115, 101]; pure (.bool false))
      else if b == 45 then (do bump; pure (Value.ofNumber (← number false)))
      else if isDigit b then (do pure (Value.ofNumber (← number true)))
      else if b == 34 then (do bump; pure (.str (← string)))
      else if b == 91 then
        if room ≤ 1 then failAhead .recursionLimitExceeded
        else
          bump
          let items ← elements fuel (room - 1) true []
          endArray
          pure (.arr items)
      else if b == 123 then
        if room ≤ 1 then failAhead .recursionLimitExceeded
        else
          bump
          let ms ← members fuel (room - 1) true []
          endObject
          pure (.obj ms)
      else failAhead .expectedSomeValue

/-- Reads the elements of an array after its opening bracket onto `acc`, the last read first. -/
def elements : Nat → Nat → Bool → List Value → Reader (List Value)
  | 0, _, _, acc => pure acc.reverse
  | fuel + 1, room, first, acc => do
    if ← moreElements first then
      let v ← value fuel room
      elements fuel room false (v :: acc)
    else pure acc.reverse

/-- Reads the members of an object after its opening brace into `acc`, kept in key order. -/
def members : Nat → Nat → Bool → List (String × Value) → Reader (List (String × Value))
  | 0, _, _, acc => pure acc
  | fuel + 1, room, first, acc => do
    match ← nextKey first with
    | none => pure acc
    | some k =>
      colon
      let v ← value fuel room
      members fuel room false (Value.insertMember k v acc)

end

/-- Reads a whole document: one value and nothing after it but blanks. -/
def document : Reader Value := do
  let v ← value (2 * (← remaining) + 2) nestingLimit
  match ← whitespace with
  | some _ => failAhead .trailingCharacters
  | none => pure v

end Reader

/-- The document written in a text, or the reason it cannot be read. -/
def Value.ofText (text : String) : Except ReadError Value :=
  Reader.document.run text

end HeapSampler.Json
