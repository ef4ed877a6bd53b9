import HeapSampler.Decimal.Layout
import HeapSampler.Text.Quoted

/-!
# Reading JSON text

A streaming reader over the bytes of a JSON text. It reads one token at a time, so a value can
be refused as soon as it is seen, before the rest of the text is looked at. Every error carries
the line and column where the reader stood: *at* the last byte read for most errors, or *on*
the next, unread byte for errors about what comes next. Columns count bytes from the start of
the line. A number is read in one pass over its digits, by the rule given first.

## Main definitions

* `Json.Number`: an integer or a double, as read.
* `Json.tenPow`: the double nearest to `10 ^ k`.
* `Json.scaled`: `significand * 10 ^ exp` by the one-scaling rule, `none` when it overflows.
* `Json.Number.toDouble`: any read number as a double.
* `ErrorCode`, `ReadError`, `ReadError.message`: what went wrong and where.
* `Reader`: reading with a position and failure.
* `Reader.whitespace`, `Reader.string`, `Reader.number`, `Reader.skipValue`: the tokens.
* `Reader.nextKey`, `Reader.colon`, `Reader.moreElements`, `Reader.endArray`,
  `Reader.endObject`: the punctuation of arrays and objects.
* `Unexpected`, `Reader.invalidType`: the error for a value of the wrong kind, naming what the
  value is and what was expected.
-/

/-!
### Numbers in JSON text

A JSON number is read in one pass over its digits. A number without fraction or exponent that
fits in 64 bits stays an integer: unsigned, or signed when it has a minus sign. Every other
number becomes a double by a fixed rule: the leading digits that fit in 64 bits form a
significand, each later digit only moves the decimal exponent, the significand is rounded to a
double, and the double is multiplied or divided once by the power of ten of the exponent. That
second rounding means the result can differ from the nearest double by a unit in the last
place (`0.9999999999999999` reads as `1.0`), which is part of the format's contract here.
-/

namespace HeapSampler.Json

/-- A number as the reader produces it. -/
inductive Number where
  /-- A non-negative integer below `2 ^ 64`. -/
  | unsigned (n : UInt64)
  /-- A negative integer of at least `-2 ^ 63`. -/
  | signed (n : Int64)
  /-- Any other number. -/
  | double (x : Float)

/-- The double nearest to `10 ^ k`. -/
def tenPow (k : Nat) : Float := Float.ofScientific 1 false k

/-- `significand * 10 ^ exp`, computed as one rounding of the significand and one scaling by a
power of ten up to `10 ^ 308`. A negative exponent below `-308` first divides by `10 ^ 308` as
often as needed, and a zero stops the scaling early. `none` when the result overflows. -/
def scaled (significand : UInt64) (exp : Int) : Option Float :=
  go significand.toFloat exp ((-exp).toNat / 308 + 1)
where
  /-- Scales `f` by `10 ^ e`, with `fuel` divisions by `10 ^ 308` left. -/
  go (f : Float) (e : Int) : Nat → Option Float
    | 0 => some f
    | fuel + 1 =>
      if e.natAbs ≤ 308 then
        if e ≥ 0 then
          let g := f * tenPow e.toNat
          if g.isInf then none else some g
        else some (f / tenPow e.natAbs)
      else if f == 0.0 then some f
      else if e ≥ 0 then none
      else go (f / tenPow 308) (e + 308) fuel

/-- `scaled` with a sign. -/
def signedScaled (positive : Bool) (significand : UInt64) (exp : Int) : Option Float :=
  (scaled significand exp).map fun f => if positive then f else -f

/-- A read number as a double; integers are rounded to the nearest double. -/
def Number.toDouble : Number → Float
  | .unsigned n => n.toFloat
  | .signed n => Float.ofInt n.toInt
  | .double x => x

/-! ### The reader -/

/-- What went wrong while reading. -/
inductive ErrorCode where
  /-- The text ended inside an array. -/
  | eofWhileParsingList
  /-- The text ended inside an object. -/
  | eofWhileParsingObject
  /-- The text ended inside a string. -/
  | eofWhileParsingString
  /-- The text ended where a value was due. -/
  | eofWhileParsingValue
  /-- A colon was due after a key. -/
  | expectedColon
  /-- A comma or `]` was due. -/
  | expectedListCommaOrEnd
  /-- A comma or `}` was due. -/
  | expectedObjectCommaOrEnd
  /-- A literal `null`, `true` or `false` was misspelt. -/
  | expectedSomeIdent
  /-- A value was due. -/
  | expectedSomeValue
  /-- A backslash escape is not one of JSON's. -/
  | invalidEscape
  /-- A number is malformed. -/
  | invalidNumber
  /-- A number is too large for a double. -/
  | numberOutOfRange
  /-- A raw control character stands inside a string. -/
  | controlCharacterWhileParsingString
  /-- An object key is not a string. -/
  | keyMustBeAString
  /-- A UTF-16 surrogate escape is not part of a pair. -/
  | loneLeadingSurrogateInHexEscape
  /-- A comma stands before a closing bracket. -/
  | trailingComma
  /-- Something follows the value. -/
  | trailingCharacters
  /-- A high surrogate escape is not followed by a `\u` escape. -/
  | unexpectedEndOfHexEscape
  /-- Arrays and objects are nested too deeply. -/
  | recursionLimitExceeded
  /-- The value was well formed but not what the reader wanted. -/
  | message (text : String)

/-- The description of an error code. -/
def ErrorCode.text : ErrorCode → String
  | .eofWhileParsingList => "EOF while parsing a list"
  | .eofWhileParsingObject => "EOF while parsing an object"
  | .eofWhileParsingString => "EOF while parsing a string"
  | .eofWhileParsingValue => "EOF while parsing a value"
  | .expectedColon => "expected `:`"
  | .expectedListCommaOrEnd => "expected `,` or `]`"
  | .expectedObjectCommaOrEnd => "expected `,` or `\x7d`"
  | .expectedSomeIdent => "expected ident"
  | .expectedSomeValue => "expected value"
  | .invalidEscape => "invalid escape"
  | .invalidNumber => "invalid number"
  | .numberOutOfRange => "number out of range"
  | .controlCharacterWhileParsingString =>
    "control character (\\u0000-\\u001F) found while parsing a string"
  | .keyMustBeAString => "key must be a string"
  | .loneLeadingSurrogateInHexEscape => "lone leading surrogate in hex escape"
  | .trailingComma => "trailing comma"
  | .trailingCharacters => "trailing characters"
  | .unexpectedEndOfHexEscape => "unexpected end of hex escape"
  | .recursionLimitExceeded => "recursion limit exceeded"
  | .message text => text

/-- An error with the place where the reader stood; line `0` means no place yet. -/
structure ReadError where
  /-- What went wrong. -/
  code : ErrorCode
  /-- The line, counted from 1. -/
  line : Nat
  /-- The column: bytes from the start of the line up to the place. -/
  column : Nat

/-- The message of an error, with its place when it has one. -/
def ReadError.message (e : ReadError) : String :=
  if e.line = 0 then e.code.text
  else e.code.text ++ " at line " ++ toString e.line ++ " column " ++ toString e.column

/-- What a value turned out to be, for the message of a value of the wrong kind. -/
inductive Unexpected where
  /-- `null`. -/
  | null
  /-- A boolean. -/
  | bool (b : Bool)
  /-- A non-negative integer. -/
  | unsigned (n : UInt64)
  /-- A negative integer. -/
  | signed (n : Int64)
  /-- A number with a fraction or exponent, or too large for an integer. -/
  | double (x : Float)
  /-- A string. -/
  | string (s : String)
  /-- An array. -/
  | seq
  /-- An object. -/
  | map

/-- How a value of the wrong kind is named in a message. -/
def Unexpected.describe : Unexpected → String
  | .null => "null"
  | .bool b => "boolean `" ++ (if b then "true" else "false") ++ "`"
  | .unsigned n => "integer `" ++ toString n.toNat ++ "`"
  | .signed n => "integer `" ++ toString n.toInt ++ "`"
  | .double x => "floating point `" ++ (Decimal.Layout.json.render x).getD "" ++ "`"
  | .string s => "string " ++ Text.quote s
  | .seq => "sequence"
  | .map => "map"

/-- The message for a value of the wrong kind. -/
def invalidType (u : Unexpected) (expected : String) : ErrorCode :=
  .message ("invalid type: " ++ u.describe ++ ", expected " ++ expected)

/-- The message for a value of the right kind outside the accepted ones. -/
def invalidValue (u : Unexpected) (expected : String) : ErrorCode :=
  .message ("invalid value: " ++ u.describe ++ ", expected " ++ expected)

/-- What a number is, for the message of a number of the wrong kind. -/
def Number.unexpected : Number → Unexpected
  | .unsigned n => .unsigned n
  | .signed n => .signed n
  | .double x => .double x

/-- Reading the bytes of a text: the bytes are fixed, the index of the next unread byte is the
state, and a failure keeps the index where it happened. -/
abbrev Reader := ReaderT ByteArray (ExceptT ReadError (StateM Nat))

/-- Runs a reader on a text from its first byte. -/
def Reader.run {α : Type} (r : Reader α) (text : String) : Except ReadError α :=
  ((r text.toUTF8).run.run 0).1

namespace Reader

/-- The line and column of a byte index: the line counts the newlines before it, the column
the bytes between the last newline before it and the index. -/
def placeOf (src : ByteArray) (i : Nat) : Nat × Nat :=
  let before := (src.extract 0 i).toList
  let lineStart := before.length - (before.reverse.takeWhile (· != 10)).length
  let lines := (before.take lineStart).count 10
  (lines + 1, i - lineStart)

/-- The number of bytes not yet read: an upper bound on the steps of every loop. -/
def remaining : Reader Nat := do
  return (← read).size - (← get)

/-- The next byte, unread. -/
def peek : Reader (Option UInt8) := do
  let src ← read
  let i ← get
  return if h : i < src.size then some src[i] else none

/-- Steps over one byte. -/
def bump : Reader Unit := modify (· + 1)

/-- Reads one byte. -/
def next : Reader (Option UInt8) := do
  let b ← peek
  if b.isSome then bump
  return b

/-- An error at the place of the last byte read. -/
def errorHere (code : ErrorCode) : Reader ReadError := do
  let (line, column) := placeOf (← read) (← get)
  return ⟨code, line, column⟩

/-- An error at the place of the next, unread byte. -/
def errorAhead (code : ErrorCode) : Reader ReadError := do
  let src ← read
  let (line, column) := placeOf src (min src.size ((← get) + 1))
  return ⟨code, line, column⟩

/-- Fails at the place of the last byte read. -/
def fail {α : Type} (code : ErrorCode) : Reader α := do throw (← errorHere code)

/-- Fails at the place of the next byte. -/
def failAhead {α : Type} (code : ErrorCode) : Reader α := do throw (← errorAhead code)

/-- Gives an error that has no place yet the place of the last byte read. -/
def placed (e : ReadError) : Reader ReadError :=
  if e.line = 0 then errorHere e.code else pure e

/-- Runs a reader and gives an error without a place the place where the reader stopped. -/
def withPlace {α : Type} (r : Reader α) : Reader α :=
  tryCatch r fun e => do throw (← placed e)

/-- A failure that the reader places later, where the value it concerns ends. -/
def refuse {α : Type} (code : ErrorCode) : Reader α := throw ⟨code, 0, 0⟩

/-- Skips blanks (space, tab, newline, carriage return) and returns the next byte. -/
def whitespace : Reader (Option UInt8) := do
  go (← remaining)
where
  /-- At most `fuel` more blanks. -/
  go : Nat → Reader (Option UInt8)
    | 0 => peek
    | fuel + 1 => do
      match ← peek with
      | some b =>
        if b == 32 || b == 10 || b == 9 || b == 13 then (do bump; go fuel) else return some b
      | none => return none

/-- Reads the letters of a literal after its first one. -/
def ident (rest : List UInt8) : Reader Unit := do
  for expected in rest do
    match ← next with
    | none => fail .eofWhileParsingValue
    | some b => if b != expected then fail .expectedSomeIdent

/-! ### Strings -/

/-- The value of a hexadecimal digit. -/
def hexValue (b : UInt8) : Option Nat :=
  if 48 ≤ b && b ≤ 57 then some (b - 48).toNat
  else if 97 ≤ b && b ≤ 102 then some (b - 87).toNat
  else if 65 ≤ b && b ≤ 70 then some (b - 55).toNat
  else none

/-- Reads the four hexadecimal digits of a `\u` escape. -/
def hexEscape : Reader Nat := do
  let src ← read
  let i ← get
  if i + 4 ≤ src.size then
    set (i + 4)
    match (src.extract i (i + 4)).toList.mapM hexValue with
    | some [a, b, c, d] => return ((a * 16 + b) * 16 + c) * 16 + d
    | _ => fail .invalidEscape
  else
    set src.size
    fail .eofWhileParsingString

/-- The UTF-8 bytes of a code point. -/
def utf8 (n : Nat) : List UInt8 := (String.singleton (Char.ofNat n)).toUTF8.toList

/-- Reads the rest of a `\u` escape whose first four digits are `n`, joining a surrogate pair
into one code point. -/
def unicodeEscape (n : Nat) : Reader (List UInt8) := do
  if 0xDC00 ≤ n ∧ n ≤ 0xDFFF then fail .loneLeadingSurrogateInHexEscape
  if n < 0xD800 ∨ n > 0xDBFF then return utf8 n
  match ← peek with
  | none => fail .eofWhileParsingString
  | some b => if b == 92 then bump else (do bump; fail .unexpectedEndOfHexEscape)
  match ← peek with
  | none => fail .eofWhileParsingString
  | some b => if b == 117 then bump else (do bump; fail .unexpectedEndOfHexEscape)
  let n2 ← hexEscape
  if n2 < 0xDC00 ∨ n2 > 0xDFFF then fail .loneLeadingSurrogateInHexEscape
  return utf8 ((((n - 0xD800) <<< 10) ||| (n2 - 0xDC00)) + 0x10000)

/-- Reads an escape after its backslash, giving the bytes it stands for. -/
def escape : Reader (List UInt8) := do
  match ← next with
  | none => fail .eofWhileParsingString
  | some b =>
    if b == 34 then return [34]
    else if b == 92 then return [92]
    else if b == 47 then return [47]
    else if b == 98 then return [8]
    else if b == 102 then return [12]
    else if b == 110 then return [10]
    else if b == 114 then return [13]
    else if b == 116 then return [9]
    else if b == 117 then unicodeEscape (← hexEscape)
    else fail .invalidEscape

/-- Reads a string after its opening quote, up to and including the closing quote. -/
def string : Reader String := do
  let bytes ← go ((← remaining) + 1) #[]
  return (String.fromUTF8? (ByteArray.mk bytes)).getD ""
where
  /-- At most `fuel` more steps, with the bytes read so far; every step reads a byte. -/
  go : Nat → Array UInt8 → Reader (Array UInt8)
    | 0, _ => fail .eofWhileParsingString
    | fuel + 1, acc => do
      match ← peek with
      | none => fail .eofWhileParsingString
      | some b =>
        bump
        if b == 34 then return acc
        else if b == 92 then go fuel (acc ++ (← escape).toArray)
        else if b < 32 then fail .controlCharacterWhileParsingString
        else go fuel (acc.push b)

/-- Steps over a string after its opening quote without keeping it. A control character is
refused before it is read, and a `\u` escape is not checked beyond its four digits. -/
def skipString : Reader Unit := do go ((← remaining) + 1)
where
  /-- At most `fuel` more steps; every step reads a byte. -/
  go : Nat → Reader Unit
    | 0 => fail .eofWhileParsingString
    | fuel + 1 => do
      match ← peek with
      | none => fail .eofWhileParsingString
      | some b =>
        if b == 34 then bump
        else if b == 92 then
          bump
          match ← next with
          | none => fail .eofWhileParsingString
          | some e =>
            if e == 117 then
              let _ ← hexEscape
            else if [34, 92, 47, 98, 102, 110, 114, 116].contains e then pure ()
            else fail .invalidEscape
          go fuel
        else if b < 32 then fail .controlCharacterWhileParsingString
        else
          bump
          go fuel

/-! ### Numbers -/

/-- Whether a byte is a decimal digit. -/
def isDigit (b : UInt8) : Bool := 48 ≤ b && b ≤ 57

/-- The value of a decimal digit byte. -/
def digitOf (b : UInt8) : Nat := (b - 48).toNat

/-- `10 * n + d` does not fit in 64 bits. -/
def overflows (n d : Nat) : Bool := 10 * n + d > 0xFFFFFFFFFFFFFFFF

/-- Clamps an exponent to the 32-bit range, where exponent sums saturate. -/
def clampExp (e : Int) : Int := max (-2147483648) (min 2147483647 e)

/-- Steps over digits while there are any. -/
def skipDigits : Reader Unit := do go ((← remaining) + 1)
where
  /-- At most `fuel` more digits. -/
  go : Nat → Reader Unit
    | 0 => pure ()
    | fuel + 1 => do
      match ← peek with
      | some b => if isDigit b then (do bump; go fuel) else pure ()
      | none => pure ()

/-- The double `±significand * 10 ^ exp`, or the out-of-range error where the number ends. -/
def fromParts (positive : Bool) (significand : Nat) (exp : Int) : Reader Float := do
  match signedScaled positive significand.toUInt64 exp with
  | some f => return f
  | none => fail .numberOutOfRange

/-- Reads an exponent from its `e`, giving the double of `significand` at the exponent `start`
of the digits before it shifted by the exponent read. An exponent beyond 32 bits gives zero, or
the out-of-range error for a non-zero significand and a positive exponent. -/
def exponent (positive : Bool) (significand : Nat) (start : Int) : Reader Float := do
  bump
  let positiveExp ← do
    match ← peek with
    | some 43 => do bump; pure true
    | some 45 => do bump; pure false
    | _ => pure true
  match ← next with
  | none => fail .eofWhileParsingValue
  | some b =>
    if !isDigit b then fail .invalidNumber
    go positiveExp ((← remaining) + 1) (digitOf b)
where
  /-- Reads further exponent digits onto `e`, with at most `fuel` left. -/
  go (positiveExp : Bool) : Nat → Nat → Reader Float
    | 0, e => finish positiveExp e
    | fuel + 1, e => do
      match ← peek with
      | some c =>
        if isDigit c then
          bump
          if 10 * e + digitOf c > 2147483647 then
            if significand != 0 && positiveExp then fail .numberOutOfRange
            skipDigits
            return if positive then 0.0 else -0.0
          go positiveExp fuel (10 * e + digitOf c)
        else finish positiveExp e
      | none => finish positiveExp e
  /-- The double once the exponent digits are read. -/
  finish (positiveExp : Bool) (e : Nat) : Reader Float :=
    fromParts positive significand (clampExp (if positiveExp then start + e else start - e))

/-- After the digits of a number: an exponent, or the double. -/
def tail (positive : Bool) (significand : Nat) (exp : Int) : Reader Float := do
  match ← peek with
  | some 101 | some 69 => exponent positive significand exp
  | _ => fromParts positive significand exp

/-- Reads the digits after a decimal point from the point on. Digits are added to the
significand while it fits in 64 bits, each lowering the exponent by one; from the first digit
that does not fit on, digits are read and dropped. At least one digit is required. -/
def fraction (positive : Bool) (significand : Nat) (start : Int) : Reader Float := do
  bump
  go ((← remaining) + 1) significand start false
where
  /-- At most `fuel` more digits; `taken` once a digit was added to the significand. -/
  go : Nat → Nat → Int → Bool → Reader Float
    | 0, sig, e, _ => tail positive sig e
    | fuel + 1, sig, e, taken => do
      match ← peek with
      | some c =>
        if isDigit c then
          if overflows sig (digitOf c) then
            skipDigits
            tail positive sig e
          else
            bump
            go fuel (10 * sig + digitOf c) (e - 1) true
        else if taken then tail positive sig e
        else failAhead .invalidNumber
      | none => if taken then tail positive sig e else failAhead .eofWhileParsingValue

/-- Reads the integer digits that no longer fit in 64 bits: each raises the exponent. -/
def longInteger (positive : Bool) (significand : Nat) : Reader Float := do
  go ((← remaining) + 1) 0
where
  /-- At most `fuel` more digits, the exponent so far `e`. -/
  go : Nat → Int → Reader Float
    | 0, e => fromParts positive significand e
    | fuel + 1, e => do
      match ← peek with
      | some c =>
        if isDigit c then (do bump; go fuel (e + 1))
        else if c == 46 then fraction positive significand e
        else if c == 101 || c == 69 then exponent positive significand e
        else fromParts positive significand e
      | none => fromParts positive significand e

/-- After the integer digits: a fraction, an exponent, or an integer. A negative integer that
does not fit in 64 signed bits, and minus zero, become doubles. -/
def afterInteger (positive : Bool) (significand : Nat) : Reader Number := do
  match ← peek with
  | some 46 => return .double (← fraction positive significand 0)
  | some 101 | some 69 => return .double (← exponent positive significand 0)
  | _ =>
    if positive then return .unsigned significand.toUInt64
    else if significand = 0 ∨ significand > Nat.pow 2 63 then
      return .double (-(significand.toUInt64.toFloat))
    else return .signed (Int.toInt64 (-(significand : Int)))

/-- Reads a number after its sign. A leading zero stands alone. -/
def number (positive : Bool) : Reader Number := do
  match ← next with
  | none => fail .eofWhileParsingValue
  | some b =>
    if b == 48 then
      match ← peek with
      | some c => if isDigit c then failAhead .invalidNumber else afterInteger positive 0
      | none => afterInteger positive 0
    else if isDigit b then go ((← remaining) + 1) (digitOf b)
    else fail .invalidNumber
where
  /-- Integer digits while they fit, with at most `fuel` left. -/
  go : Nat → Nat → Reader Number
    | 0, sig => afterInteger positive sig
    | fuel + 1, sig => do
      match ← peek with
      | some c =>
        if isDigit c then
          if overflows sig (digitOf c) then return .double (← longInteger positive sig)
          bump
          go fuel (10 * sig + digitOf c)
        else afterInteger positive sig
      | none => afterInteger positive sig

/-- Steps over a number after its sign, checking only its syntax. -/
def skipNumber : Reader Unit := do
  match (← next).getD 0 with
  | 48 =>
    match ← peek with
    | some c => if isDigit c then failAhead .invalidNumber
    | none => pure ()
  | b => if isDigit b then skipDigits else fail .invalidNumber
  match ← peek with
  | some 46 => skipFraction
  | some 101 | some 69 => skipExponent
  | _ => pure ()
where
  /-- The digits of an exponent from its `e`. -/
  skipExponent : Reader Unit := do
    bump
    match ← peek with
    | some 43 | some 45 => bump
    | _ => pure ()
    if !isDigit ((← next).getD 0) then fail .invalidNumber
    skipDigits
  /-- The digits after a decimal point, from the point. -/
  skipFraction : Reader Unit := do
    bump
    match ← peek with
    | some c =>
      if isDigit c then
        skipDigits
        match ← peek with
        | some 101 | some 69 => skipExponent
        | _ => pure ()
      else failAhead .invalidNumber
    | none => failAhead .invalidNumber

/-! ### Arrays and objects -/

/-- Reads the colon after an object key. -/
def colon : Reader Unit := do
  match ← whitespace with
  | some 58 => bump
  | some _ => failAhead .expectedColon
  | none => failAhead .eofWhileParsingObject

/-- Reads a key that starts at the byte `ahead`; `none` is the end of the text. -/
def keyAt : Option UInt8 → Reader (Option String)
  | some 34 => do bump; return some (← string)
  | some 125 => failAhead .trailingComma
  | some _ => failAhead .keyMustBeAString
  | none => failAhead .eofWhileParsingValue

/-- Reads the next key of an object, or `none` at its end; `first` before the first member.
After a comma a key must follow, so the end of the text there wants a value. -/
def nextKey (first : Bool) : Reader (Option String) := do
  match ← whitespace with
  | some 125 => return none
  | some 44 => if first then keyAt (some 44) else (do bump; keyAt (← whitespace))
  | some b => if first then keyAt (some b) else failAhead .expectedObjectCommaOrEnd
  | none => failAhead .eofWhileParsingObject

/-- Whether another element of an array follows; `first` before the first element. -/
def moreElements (first : Bool) : Reader Bool := do
  match ← whitespace with
  | none => failAhead .eofWhileParsingList
  | some 93 => pure false
  | some 44 =>
    if first then pure true
    else
      bump
      match ← whitespace with
      | some 93 => failAhead .trailingComma
      | some _ => pure true
      | none => failAhead .eofWhileParsingValue
  | some _ => if first then pure true else failAhead .expectedListCommaOrEnd

/-- Reads the closing bracket of an array. -/
def endArray : Reader Unit := do
  match ← whitespace with
  | some 93 => bump
  | some 44 =>
    bump
    match ← whitespace with
    | some 93 => failAhead .trailingComma
    | _ => failAhead .trailingCharacters
  | some _ => failAhead .trailingCharacters
  | none => failAhead .eofWhileParsingList

/-- Reads the closing brace of an object. -/
def endObject : Reader Unit := do
  match ← whitespace with
  | some 125 => bump
  | some 44 => failAhead .trailingComma
  | some _ => failAhead .trailingCharacters
  | none => failAhead .eofWhileParsingObject

/-! ### Values -/

/-- Steps over any value, checking its syntax: literals, numbers, strings, and nested arrays and
objects, the open ones kept on a stack. Every two steps read at least one byte, so three steps a
byte are enough. -/
def skipValue : Reader Unit := do
  outer (3 * ((← remaining) + 1)) [] none
where
  /-- One value inside the open brackets `stack` (innermost first) and `enclosing`. -/
  outer : Nat → List UInt8 → Option UInt8 → Reader Unit
    | 0, _, _ => failAhead .eofWhileParsingValue
    | fuel + 1, stack, enclosing => do
      let some b ← whitespace | failAhead .eofWhileParsingValue
      let opened : Option UInt8 ← do
        if b == 110 then (do bump; ident [117, 108, 108]; pure none)
        else if b == 116 then (do bump; ident [114, 117, 101]; pure none)
        else if b == 102 then (do bump; ident [97, 108, 115, 101]; pure none)
        else if b == 45 then (do bump; skipNumber; pure none)
        else if isDigit b then (do skipNumber; pure none)
        else if b == 34 then (do bump; skipString; pure none)
        else if b == 91 || b == 123 then (do bump; pure (some b))
        else failAhead .expectedSomeValue
      let stack := match opened, enclosing with
        | some _, some e => e :: stack
        | _, _ => stack
      match opened, enclosing, stack with
      | some f, _, stack => closeOrNext fuel stack f false
      | none, some f, stack => closeOrNext fuel stack f true
      | none, none, f :: stack => closeOrNext fuel stack f true
      | none, none, [] => pure ()
  /-- After a value or an opening bracket of `frame`: closes finished brackets, then reads the
  key of the next member if `frame` is an object. -/
  closeOrNext : Nat → List UInt8 → UInt8 → Bool → Reader Unit
    | 0, _, _, _ => failAhead .eofWhileParsingValue
    | fuel + 1, stack, frame, acceptComma => do
      let b ← whitespace
      match b with
      | some 44 =>
        if acceptComma then
          bump
          member fuel stack frame
        else member fuel stack frame
      | some c =>
        if (c == 93 && frame == 91) || (c == 125 && frame == 123) then
          bump
          match stack with
          | [] => pure ()
          | f :: rest => closeOrNext fuel rest f true
        else if acceptComma then
          failAhead (if frame == 91 then .expectedListCommaOrEnd else .expectedObjectCommaOrEnd)
        else member fuel stack frame
      | none => failAhead (if frame == 91 then .eofWhileParsingList else .eofWhileParsingObject)
  /-- The next member of `frame`: for an object its key and colon first. -/
  member : Nat → List UInt8 → UInt8 → Reader Unit
    | fuel, stack, frame => do
      if frame == 123 then
        match ← whitespace with
        | some 34 => bump
        | some _ => failAhead .keyMustBeAString
        | none => failAhead .eofWhileParsingObject
        skipString
        match ← whitespace with
        | some 58 => bump
        | some _ => failAhead .expectedColon
        | none => failAhead .eofWhileParsingObject
      outer fuel stack (some frame)

/-- The error for a value of the wrong kind ahead: the value is read far enough to name it (a
literal, number or string entirely, a bracket not at all), and the error stands where that
reading stopped. A failure while reading it is the error instead. -/
def invalidTypeAhead (expected : String) : Reader ReadError := do
  tryCatch (do
    let b ← peek
    let u : Unexpected ← do
      match b with
      | some 110 => do bump; ident [117, 108, 108]; pure .null
      | some 116 => do bump; ident [114, 117, 101]; pure (.bool true)
      | some 102 => do bump; ident [97, 108, 115, 101]; pure (.bool false)
      | some 45 => do bump; pure (← number false).unexpected
      | some 34 => do bump; pure (.string (← string))
      | some 91 => pure .seq
      | some 123 => pure .map
      | some c =>
        if isDigit c then pure (← number true).unexpected
        else throw (← errorAhead .expectedSomeValue)
      | none => throw (← errorAhead .expectedSomeValue)
    errorHere (invalidType u expected))
    (fun e => pure e)

/-- Fails with the error for a value of the wrong kind ahead. -/
def failInvalidType {α : Type} (expected : String) : Reader α := do
  throw (← invalidTypeAhead expected)

end Reader

/-- The number that a text holds when the whole text is one JSON number. -/
def Number.ofText? (t : String) : Option Number :=
  let r : Reader Number := do
    let n ← match ← Reader.peek with
      | some 45 => do Reader.bump; Reader.number false
      | _ => Reader.number true
    if (← Reader.peek).isSome then Reader.fail .trailingCharacters
    pure n
  (r.run t).toOption

end HeapSampler.Json
