import HeapSampler.Decimal.Layout
import HeapSampler.Text.Quoted

/-!
# Settings of a collector

Five settings steer a collector: the rate at which allocations are sampled, the rate at which
sampled allocations are kept once their size is known, the capacities of the allocation ledger
and of the heap index, and the method by which the host captures a stack. A rate is a
probability kept as a 32-bit threshold, given first.

## Main definitions

* `SettingsError`: the two ways a setting can be refused, with their messages.
* `Rate`, `Rate.ofProbability`: a probability checked and quantised under a setting's name.
* `Rate.admits`: the sampling decision for one draw.
* `Rate.toProbability`: the probability that a threshold stands for.
* `CaptureMethod`, `CaptureMethod.ofName`: the two methods and the names they are known by.
* `Settings`, `Settings.validate`: the settings with their defaults, and the check of both
  rates (the sampling rate first).
-/

/-!
### Sampling rates

A rate is a probability in `[0, 1]` kept as a 32-bit threshold, so that a sampling decision is
one comparison of a uniform 32-bit draw with the threshold. The two ends are exact: the
threshold `0` admits no draw and the threshold `2 ^ 32 - 1` admits every draw.
-/

namespace HeapSampler

/-- A setting that was refused. -/
inductive SettingsError where
  /-- A rate outside `[0, 1]`, or NaN, given for the named setting. -/
  | rateOutOfRange (name : String) (value : Float)
  /-- A capture method name that is not known. -/
  | unknownMethod (text : String)

/-- The message of a refused setting. -/
def SettingsError.message : SettingsError → String
  | .rateOutOfRange name value =>
    name ++ " must be between 0 and 1 (got " ++ Decimal.prose value ++ ")"
  | .unknownMethod text =>
    "unrecognised backtrace method " ++ Text.quote text ++ " (expected one of: fast, slow)"

/-- A probability quantised to a 32-bit threshold. -/
structure Rate where
  /-- The largest draw that is admitted, except that `0` admits none. -/
  bits : UInt32
  deriving DecidableEq, Repr

namespace Rate

/-- The rate that admits no draw. -/
def never : Rate := ⟨0⟩

/-- The rate that admits every draw. -/
def always : Rate := ⟨0xFFFFFFFF⟩

/-- The threshold of a probability in `[0, 1]`: the product with `2 ^ 32 - 1`, rounded to a
double, then truncated toward zero. -/
def quantise (p : Float) : UInt32 := (p * 4294967295.0).toUInt32

/-- The rate of a probability given for the setting `name`: refused unless `0 ≤ p ≤ 1`, which
NaN fails and `-0` passes. -/
def ofProbability (name : String) (p : Float) : Except SettingsError Rate :=
  if 0.0 ≤ p ∧ p ≤ 1.0 then .ok ⟨quantise p⟩ else .error (.rateOutOfRange name p)

/-- The probability a threshold stands for, `bits / (2 ^ 32 - 1)`. -/
def toProbability (r : Rate) : Float := r.bits.toFloat / 4294967295.0

/-- Whether a uniform 32-bit draw passes the rate. -/
def admits (r : Rate) (draw : UInt32) : Bool :=
  if r.bits = 0 then false
  else if r.bits = 0xFFFFFFFF then true
  else draw ≤ r.bits

@[simp] theorem never_admits (d : UInt32) : never.admits d = false := rfl

@[simp] theorem always_admits (d : UInt32) : always.admits d = true := rfl

end Rate

/-! ### The settings -/

/-- How the host walks a stack. -/
inductive CaptureMethod where
  /-- Read the interpreter's frames directly. -/
  | fast
  /-- Ask the runtime for its own backtrace objects. -/
  | slow
  deriving DecidableEq, Repr, Inhabited

namespace CaptureMethod

/-- The canonical name of a method. -/
def name : CaptureMethod → String
  | .fast => "fast"
  | .slow => "slow"

/-- The method a name stands for: `fast` or `cfp`, `slow` or `slowrb`, matched exactly. -/
def ofName (s : String) : Except SettingsError CaptureMethod :=
  if s = "fast" ∨ s = "cfp" then .ok .fast
  else if s = "slow" ∨ s = "slowrb" then .ok .slow
  else .error (.unknownMethod s)

end CaptureMethod

/-- The settings of a collector. Capacities count records. -/
structure Settings where
  /-- The probability that an allocation is sampled. -/
  sampleRate : Float := 0.01
  /-- The probability that a sampled allocation is kept once its size is known. -/
  retainRate : Float := 1.0
  /-- The capacity of the allocation ledger. -/
  maxAllocationSamples : Nat := 10000
  /-- The capacity of the heap index. -/
  maxHeapSamples : Nat := 50000
  /-- How stacks are captured. -/
  method : CaptureMethod := .fast

namespace Settings

/-- Both rates, checked in order: the sampling rate, then the retain rate. -/
def rates (s : Settings) : Except SettingsError (Rate × Rate) := do
  let sample ← Rate.ofProbability "sample_rate" s.sampleRate
  let retain ← Rate.ofProbability "allocation_retain_rate" s.retainRate
  return (sample, retain)

/-- The settings are acceptable: both rates lie in `[0, 1]`. -/
def validate (s : Settings) : Except SettingsError Unit := do
  let _ ← s.rates
  return ()

/-- Field-wise equality, with rates compared as numbers (so NaN differs from itself and
`-0` equals `0`). -/
def same (a b : Settings) : Bool :=
  a.sampleRate == b.sampleRate && a.retainRate == b.retainRate &&
  a.maxAllocationSamples == b.maxAllocationSamples && a.maxHeapSamples == b.maxHeapSamples &&
  a.method == b.method

end Settings

end HeapSampler
