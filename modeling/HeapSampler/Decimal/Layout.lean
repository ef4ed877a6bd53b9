/-!
# Decimal text of a double

A double is written with the fewest significant digits that read back to it, laid out as prose
(in messages) or as JSON text; decimal text is read back into the nearest double. Everything is
exact arithmetic on `Nat` and `Int`; no floating-point operation is used to choose a digit.

## Main definitions

* `Binary` and `Binary.ofBits`: the value `m * 2 ^ q` of a finite bit pattern.
* `Digits`: a decimal `digits * 10 ^ exp`.
* `Binary.readsBack`: the decimal lies in the interval of the value.
* `Binary.shortest`: the fewest digits that read back, nearest first, a tie broken by `Tie`.
* `Layout`, with the two layouts of this library: `Layout.prose` for numbers quoted in messages
  and `Layout.json` for numbers in JSON text.
* `Layout.render`: the text of a `Float` in a layout, or `none` where the layout has no text
  for a non-finite value.
* `Decimal.readFloat?`: the nearest double of a decimal text, `none` for any other text.
-/

/-!
### Shortest decimals of a binary64 value

A finite double stands for every real that rounds to it: the interval from halfway to its
neighbour below to halfway to its neighbour above, with both ends included exactly when the
significand is even. The text of a double is the decimal with the fewest significant digits in
that interval, and of two such decimals the one nearer the double.

Everything here is exact arithmetic on `Nat` and `Int`; no floating-point operation is used to
choose a digit.
-/

namespace HeapSampler.Decimal

/-- A finite non-negative binary64 value, `m * 2 ^ q`. -/
structure Binary where
  /-- The significand, with the hidden bit for normal values. -/
  m : Nat
  /-- The binary exponent of the last significand bit. -/
  q : Int
  /-- The gap to the value below is half the gap to the value above. -/
  narrowBelow : Bool
  deriving Repr, DecidableEq

/-- The magnitude of a finite bit pattern (the sign bit is ignored). NaN and the infinities
have no such value: test for them first. -/
def Binary.ofBits (b : UInt64) : Binary :=
  let e := ((b >>> 52) &&& 0x7FF).toNat
  let f := (b &&& 0xFFFFFFFFFFFFF).toNat
  if e == 0 then ⟨f, -1074, false⟩ else ⟨Nat.pow 2 52 + f, (e : Int) - 1075, f == 0 && e > 1⟩

/-- A decimal `digits * 10 ^ exp`. -/
structure Digits where
  /-- The significant digits, as a number. -/
  digits : Nat
  /-- The power of ten of the last digit. -/
  exp : Int
  deriving Repr, DecidableEq

/-- How a choice between two decimals equally near the value is made. -/
inductive Tie where
  /-- The larger of the two. -/
  | up
  /-- The one whose last digit is even. -/
  | even
  deriving Repr, DecidableEq

/-- Compares `a * 10 ^ i` with `n * 2 ^ j` exactly, by moving every negative power to the
other side. -/
def cmpScaled (a : Nat) (i : Int) (n : Nat) (j : Int) : Ordering :=
  compare (a * Nat.pow 10 i.toNat * Nat.pow 2 (-j).toNat)
    (n * Nat.pow 2 j.toNat * Nat.pow 10 (-i).toNat)

/-- The decimal lies among the reals that round to the value (to nearest, ties to even). -/
def Binary.readsBack (x : Binary) (d : Digits) : Bool :=
  let lo := if x.narrowBelow then 4 * x.m - 1 else 4 * x.m - 2
  let hi := 4 * x.m + 2
  let incl := x.m % 2 == 0
  let cl := cmpScaled d.digits d.exp lo (x.q - 2)
  let ch := cmpScaled d.digits d.exp hi (x.q - 2)
  (cl == .gt || (incl && cl == .eq)) && (ch == .lt || (incl && ch == .eq))

/-- The number of binary digits of `n`. -/
def bitLength (n : Nat) : Nat := if n = 0 then 0 else Nat.log2 n + 1

/-- The value is below `10 ^ k`. -/
def Binary.below (x : Binary) (k : Int) : Bool := cmpScaled 1 k x.m x.q == .gt

/-- The least `k` with `value < 10 ^ k`, for a non-zero value. The estimate
`(bits + q) * log10 2` is off by at most one, so the least of five candidates around it that
passes the exact test is the answer. -/
def Binary.scale (x : Binary) : Int :=
  let est : Int := ((bitLength x.m : Int) + x.q) * 78913 / 262144
  let candidates := [est - 1, est, est + 1, est + 2, est + 3]
  (candidates.find? x.below).getD (est + 3)

/-- `⌊m * 2 ^ q / 10 ^ e⌋`, exactly. -/
def Binary.floorOnGrid (x : Binary) (e : Int) : Nat :=
  (x.m * Nat.pow 2 x.q.toNat * Nat.pow 10 (-e).toNat) /
    (Nat.pow 2 (-x.q).toNat * Nat.pow 10 e.toNat)

/-- Compares twice the value with `c * 10 ^ e`: `.lt` when the value is below the midpoint
`c * 10 ^ e / 2`. -/
def Binary.cmpMid (x : Binary) (c : Nat) (e : Int) : Ordering :=
  compare (2 * x.m * Nat.pow 2 x.q.toNat * Nat.pow 10 (-e).toNat)
    (c * Nat.pow 2 (-x.q).toNat * Nat.pow 10 e.toNat)

/-- Removes trailing zero digits into the exponent. -/
def Digits.trim (d : Digits) : Digits :=
  if h : d.digits ≠ 0 ∧ d.digits % 10 = 0 then
    Digits.trim ⟨d.digits / 10, d.exp + 1⟩
  else d
termination_by d.digits
decreasing_by omega

/-- The decimal chosen on the grid `10 ^ e`, if one of the value's two neighbours on that grid
reads back: the only one that does, or the nearer of two, or on a tie the one `tie` names. -/
def Binary.onGrid (x : Binary) (tie : Tie) (e : Int) : Option Digits :=
  let lower := x.floorOnGrid e
  let upper := lower + 1
  let okLo := x.readsBack ⟨lower, e⟩
  let okHi := x.readsBack ⟨upper, e⟩
  match okLo, okHi with
  | false, false => none
  | true, false => some ⟨lower, e⟩
  | false, true => some ⟨upper, e⟩
  | true, true =>
    match x.cmpMid (2 * lower + 1) e with
    | .lt => some ⟨lower, e⟩
    | .gt => some ⟨upper, e⟩
    | .eq =>
      match tie with
      | .up => some ⟨upper, e⟩
      | .even => if lower % 2 == 0 then some ⟨lower, e⟩ else some ⟨upper, e⟩

/-- The exact decimal value of `m * 2 ^ q`. -/
def Binary.exact (x : Binary) : Digits :=
  if x.q ≥ 0 then ⟨x.m * Nat.pow 2 x.q.toNat, 0⟩ else ⟨x.m * Nat.pow 5 (-x.q).toNat, x.q⟩

/-- The shortest decimal that reads back as the value, trimmed of trailing zeros. Grids of
1 to 17 significant digits are tried in turn; seventeen digits always suffice for a double, and
the exact value stands behind them. Zero is `0 * 10 ^ 0`. -/
def Binary.shortest (x : Binary) (tie : Tie) : Digits :=
  if x.m = 0 then ⟨0, 0⟩
  else
    let k := x.scale
    let grids : List Int := (List.range 17).map fun (n : Nat) => k - ((n : Int) + 1)
    match grids.findSome? (x.onGrid tie) with
    | some d => d.trim
    | none => x.exact.trim

/-- The number of decimal digits of `n` (one for zero). -/
def digitCount (n : Nat) : Nat := (Nat.toDigits 10 n).length

/-!
### Writing a shortest decimal

`Binary.shortest` fixes the digits of a double; a `Layout` fixes how they are written: where
positional notation gives way to an exponent, whether an integral value keeps a `.0`, how the
exponent is signed, which way a tie between two digit strings goes, and the words for the
values that have no digits.
-/

/-- How a decimal is written. -/
structure Layout where
  /-- Positional notation is used when the position of the leading digit, `kk` with
  `10 ^ (kk - 1) ≤ |x| < 10 ^ kk`, satisfies `lo < kk ≤ hi`; `none` means always. -/
  positional : Option (Int × Int)
  /-- An integral value written positionally ends in `.0`. -/
  pointZero : Bool
  /-- A non-negative exponent is written with a `+`. -/
  plusExponent : Bool
  /-- The choice between two equally near shortest decimals. -/
  tie : Tie
  /-- The texts of NaN, `+∞` and `-∞`; `none` where the layout has none. -/
  nonFinite : Option (String × String × String)

/-- Numbers quoted in messages: always positional, no `.0` on integral values, a tie goes up,
and the words `NaN`, `inf`, `-inf`. -/
def Layout.prose : Layout :=
  ⟨none, false, false, .up, some ("NaN", "inf", "-inf")⟩

/-- Numbers in JSON text: positional from `1e-5` up to below `1e16`, an integral value keeps
`.0`, otherwise `d.ddde±x`; a tie goes to the even digit; NaN and the infinities have no JSON
text. -/
def Layout.json : Layout :=
  ⟨some (-5, 16), true, true, .even, none⟩

/-- `n` zeros. -/
def zeros (n : Nat) : String := String.ofList (List.replicate n '0')

/-- Positional text of `digits * 10 ^ exp`, with at least one digit before the point. -/
def positionalText (ds : String) (exp : Int) (pointZero : Bool) : String :=
  let len : Int := ds.length
  if exp ≥ 0 then
    ds ++ zeros exp.toNat ++ (if pointZero then ".0" else "")
  else if len + exp > 0 then
    let cut := (len + exp).toNat
    String.ofList (ds.toList.take cut) ++ "." ++ String.ofList (ds.toList.drop cut)
  else
    "0." ++ zeros (-(len + exp)).toNat ++ ds

/-- Scientific text `d.ddd e x` of a decimal whose leading digit stands at `10 ^ p`. -/
def scientificText (ds : String) (p : Int) (plus : Bool) : String :=
  let mant := match ds.toList with
    | [] => "0"
    | [c] => String.singleton c
    | c :: rest => String.singleton c ++ "." ++ String.ofList rest
  let sign := if p < 0 then "-" else if plus then "+" else ""
  mant ++ "e" ++ sign ++ toString p.natAbs

/-- The text of a non-negative decimal in a layout. -/
def Layout.digitsText (l : Layout) (d : Digits) : String :=
  let ds := toString d.digits
  let kk : Int := (ds.length : Int) + d.exp
  if d.digits = 0 then (if l.pointZero then "0.0" else "0")
  else
    match l.positional with
    | none => positionalText ds d.exp l.pointZero
    | some (lo, hi) =>
      if lo < kk ∧ kk ≤ hi then positionalText ds d.exp l.pointZero
      else scientificText ds (kk - 1) l.plusExponent

/-- The text of a double in a layout: a `-` for a set sign bit (also of zero), then the
shortest digits. `none` for a non-finite value that the layout cannot write. -/
def Layout.render (l : Layout) (x : Float) : Option String :=
  let b := x.toBits
  let neg := b >>> 63 == 1
  let expBits := (b >>> 52) &&& 0x7FF
  if expBits == 0x7FF then
    match l.nonFinite with
    | none => none
    | some (nan, inf, ninf) =>
      if (b &&& 0xFFFFFFFFFFFFF) != 0 then some nan else if neg then some ninf else some inf
  else
    let text := l.digitsText ((Binary.ofBits b).shortest l.tie)
    some (if neg then "-" ++ text else text)

/-- The text of a double in messages. -/
def prose (x : Float) : String := (Layout.prose.render x).getD ""

/-!
### Reading decimal text

A decimal text is read into the nearest double. The text is an optional sign and either a
number, `digits`, `digits.`, `.digits` or `digits.digits` with an optional exponent `e` or `E`
with an optional sign and digits, or one of the words `inf`, `infinity` and `nan` in any mix of
cases.
-/

/-- Splits off the leading decimal digits of a character list, with their value and count. -/
def leadingDigits : List Char → Nat × Nat × List Char
  | c :: cs =>
    if c.isDigit then
      let (v, k, rest) := leadingDigits cs
      (v + (c.toNat - 48) * Nat.pow 10 k, k + 1, rest)
    else (0, 0, c :: cs)
  | [] => (0, 0, [])

/-- The nearest double of `m * 10 ^ e`. A value of `p` digits before the point, with
`10 ^ (p - 1) ≤ m * 10 ^ e < 10 ^ p`, is infinite beyond `p = 310` and zero below `p = -330`, as
no double is that large or that small; between them it is rounded from the exact value. -/
def nearest (m : Nat) (e : Int) : Float :=
  if m = 0 then 0.0
  else
    let p := e + (Nat.toDigits 10 m).length
    if p > 310 then 1.0 / 0.0
    else if p < -330 then 0.0
    else if e ≥ 0 then Float.ofScientific m false e.toNat else Float.ofScientific m true e.natAbs

/-- The magnitude of an unsigned decimal text. -/
def readMagnitude (cs : List Char) : Option Float :=
  let lower := String.ofList (cs.map Char.toLower)
  if lower = "inf" ∨ lower = "infinity" then some (1.0 / 0.0)
  else if lower = "nan" then some (0.0 / 0.0)
  else
    let (iv, ik, rest) := leadingDigits cs
    let (fv, fk, rest) := match rest with
      | '.' :: r => leadingDigits r
      | r => (0, 0, r)
    if ik + fk = 0 then none
    else
      let m := iv * Nat.pow 10 fk + fv
      match rest with
      | [] => some (nearest m (-(fk : Int)))
      | c :: r =>
        if c = 'e' ∨ c = 'E' then
          let (neg, r) := match r with
            | '-' :: r => (true, r)
            | '+' :: r => (false, r)
            | r => (false, r)
          let (ev, ek, r) := leadingDigits r
          if ek = 0 ∨ r ≠ [] then none
          else some (nearest m ((if neg then -(ev : Int) else ev) - fk))
        else none

/-- The nearest double of a decimal text, or `none` when the text is not one. -/
def readFloat? (s : String) : Option Float :=
  match s.toList with
  | '-' :: cs => (readMagnitude cs).map (fun x => -x)
  | '+' :: cs => readMagnitude cs
  | cs => readMagnitude cs

end HeapSampler.Decimal
