import HeapSampler.Collector.Basic

/-!
# Runs of a collector

A collector is driven by two kinds of calls.  The host's *events* (an allocation, a free, a
return from a call) may come at any time, and an allocation may capture a stack: while it
captures, the host may fire further events on the same thread, one capture deeper, before the
capture fails or hands back its frames.  The *calls* of the program that owns the collector
(start, stop, the settings, a relocation, an export) come between events.

An `EventRun d c c'` is one such run of events with `d` captures in progress, told as the list
of what happened: each allocation that captured carries the run of events of its capture.  A
`History c` is every way a collector `c` can come about: made with any settings, then any
sequence of calls and runs of events, with any answers from the host and any random draws.
Both are data, so that what a run saw (the records it made, the draws it took) can be read off
it by recursion.

A property that holds of every new collector and that every single call and event keeps holds
of every reachable collector (`Invariant.holds`).  The events of a capture are taken care of
by the induction: the property only has to survive the two halves of an allocation.

## Main definitions

* `EventRun`, `History`, `Reachable`.
* `EventInvariant`, `Invariant` — what a property must survive.

## Main results

* `Invariant.holds`, `Invariant.reachable` — an invariant holds of every reachable collector.
* `reachable_of_new` — every collector that `Collector.new` makes is reachable.
-/

namespace HeapSampler

/-- A collector as `Collector.new` makes it: stopped and empty, with the given settings. -/
def Collector.initial (sampleRate retainRate : Rate) (method : CaptureMethod)
    (maxAllocs maxHeap : Nat) : Collector :=
  { sampleRate, retainRate, method,
    ledger := { capacity := maxAllocs }, heap := { capacity := maxHeap } }

theorem Collector.new_eq_initial {s : Settings} {c : Collector} (h : Collector.new s = .ok c) :
    ∃ sampleRate retainRate,
      c = Collector.initial sampleRate retainRate s.method s.maxAllocationSamples s.maxHeapSamples := by
  unfold Collector.new at h
  cases hr : s.rates with
  | error e => simp [hr, bind, Except.bind] at h
  | ok rates =>
    simp only [hr, bind, Except.bind, pure, Except.pure, Except.ok.injEq] at h
    exact ⟨rates.1, rates.2, h.symm⟩

/-- The host's events on a collector with `d` captures in progress, taking it from `c` to `c'`.
Each event is told with the host's answers and the random draws it took. -/
inductive EventRun : Nat → Collector → Collector → Type
  /-- No event. -/
  | nil (d : Nat) (c : Collector) : EventRun d c c
  /-- A free of handle `h`, then the rest. -/
  | free {d : Nat} {c c₁ c₂ : Collector} (h : UInt64) (hs : c.onFree h = .ok c₁)
      (rest : EventRun d c₁ c₂) : EventRun d c c₂
  /-- A return from a call, with the host's sizes of live objects and the retain draws. -/
  | ret {d : Nat} {c c₁ c₂ : Collector} (probe : UInt64 → Option UInt64) (draws : Nat → UInt32)
      (hs : c.onReturn probe draws = .ok c₁) (rest : EventRun d c₁ c₂) : EventRun d c c₂
  /-- An allocation of handle `h` with the sample draw `draw` that does not capture. -/
  | alloc {d : Nat} {c c₁ c₂ : Collector} (h : UInt64) (draw : UInt32)
      (hs : c.beginAlloc h draw d = .ok (c₁, none)) (rest : EventRun d c₁ c₂) : EventRun d c c₂
  /-- An allocation whose capture ran the events `nested` and then failed. -/
  | allocFailed {d : Nat} {c c₁ c₂ c₃ : Collector} (h : UInt64) (draw : UInt32)
      (m : CaptureMethod) (hs : c.beginAlloc h draw d = .ok (c₁, some m))
      (nested : EventRun (d + 1) c₁ c₂) (rest : EventRun d c₂ c₃) : EventRun d c c₃
  /-- An allocation with size hint `size` whose capture ran the events `nested` and handed back
  `frames`. -/
  | allocCaptured {d : Nat} {c c₁ c₂ c₃ c₄ : Collector} (h size : UInt64) (draw : UInt32)
      (m : CaptureMethod) (frames : List Frame) (hs : c.beginAlloc h draw d = .ok (c₁, some m))
      (nested : EventRun (d + 1) c₁ c₂) (hf : c₂.finishAlloc h size frames = .ok c₃)
      (rest : EventRun d c₃ c₄) : EventRun d c c₄

/-- How a collector came about: made with some settings, then called and sent events. -/
inductive History : Collector → Type
  /-- A new collector. -/
  | new (sampleRate retainRate : Rate) (method : CaptureMethod) (maxAllocs maxHeap : Nat) :
      History (Collector.initial sampleRate retainRate method maxAllocs maxHeap)
  /-- A start, with the host's answer to the request for hooks. -/
  | start {c c' : Collector} {r : Except HostError Unit} (prev : History c)
      (hooks : Except HostError Unit) (hs : c.start hooks = .ok (c', r)) : History c'
  /-- A stop, with the host's answer to giving back the hooks. -/
  | stop {c : Collector} (prev : History c) (unhooks : Except HostError Unit) :
      History (c.stop unhooks).1
  /-- New settings, accepted. -/
  | configure {c c' : Collector} (prev : History c) (s : Settings) (hs : c.configure s = .ok c') :
      History c'
  /-- A new sampling rate, accepted. -/
  | setSampleRate {c c' : Collector} (prev : History c) (p : Float)
      (hs : c.setSampleRate p = .ok c') : History c'
  /-- A new retain rate, accepted. -/
  | setRetainRate {c c' : Collector} (prev : History c) (p : Float)
      (hs : c.setRetainRate p = .ok c') : History c'
  /-- A new capacity of the ledger. -/
  | setMaxAllocationSamples {c : Collector} (prev : History c) (n : Nat) :
      History (c.setMaxAllocationSamples n)
  /-- A new capacity of the heap index. -/
  | setMaxHeapSamples {c : Collector} (prev : History c) (n : Nat) :
      History (c.setMaxHeapSamples n)
  /-- A new capture method. -/
  | setMethod {c : Collector} (prev : History c) (m : CaptureMethod) : History (c.setMethod m)
  /-- The host moved objects. -/
  | relocate {c c' : Collector} (prev : History c) (remap : UInt64 → UInt64)
      (hs : c.relocate remap = .ok c') : History c'
  /-- An export, with the host's sizes of live objects and the clock. -/
  | flush {c c' : Collector} {r : Except SerializationError FlushReport} (prev : History c)
      (probe : UInt64 → Option UInt64) (time : Int64) (hs : c.flush probe time = .ok (c', r)) :
      History c'
  /-- Events from the host, none of them inside a capture. -/
  | events {c c' : Collector} (prev : History c) (run : EventRun 0 c c') : History c'

/-- A collector that some history leads to. -/
def Reachable (c : Collector) : Prop := Nonempty (History c)

theorem reachable_of_new {s : Settings} {c : Collector} (h : Collector.new s = .ok c) :
    Reachable c := by
  obtain ⟨sampleRate, retainRate, rfl⟩ := Collector.new_eq_initial h
  exact ⟨.new sampleRate retainRate s.method s.maxAllocationSamples s.maxHeapSamples⟩

/-! ### Invariants -/

/-- A property of collectors that every event keeps: a free, a return, and both halves of an
allocation, at any depth of captures. -/
structure EventInvariant (P : Collector → Prop) : Prop where
  /-- A free keeps it. -/
  onFree : ∀ {c c' : Collector} {h : UInt64}, P c → c.onFree h = .ok c' → P c'
  /-- A return keeps it. -/
  onReturn : ∀ {c c' : Collector} {probe : UInt64 → Option UInt64} {draws : Nat → UInt32},
    P c → c.onReturn probe draws = .ok c' → P c'
  /-- The first half of an allocation keeps it. -/
  beginAlloc : ∀ {c c' : Collector} {d : Nat} {h : UInt64} {draw : UInt32}
    {m : Option CaptureMethod}, P c → c.beginAlloc h draw d = .ok (c', m) → P c'
  /-- The second half of an allocation keeps it. -/
  finishAlloc : ∀ {c c' : Collector} {h size : UInt64} {frames : List Frame},
    P c → c.finishAlloc h size frames = .ok c' → P c'

/-- An invariant of single events is an invariant of runs of events, captures included. -/
theorem EventInvariant.run {P : Collector → Prop} (hP : EventInvariant P) {d : Nat}
    {c c' : Collector} (r : EventRun d c c') (hc : P c) : P c' := by
  induction r with
  | nil => exact hc
  | free _ hs _ ih => exact ih (hP.onFree hc hs)
  | ret _ _ hs _ ih => exact ih (hP.onReturn hc hs)
  | alloc _ _ hs _ ih => exact ih (hP.beginAlloc hc hs)
  | allocFailed _ _ _ hs _ _ ihn ih => exact ih (ihn (hP.beginAlloc hc hs))
  | allocCaptured _ _ _ _ _ hs _ hf _ ihn ih =>
    exact ih (hP.finishAlloc (ihn (hP.beginAlloc hc hs)) hf)

/-- A property of collectors that holds of every new one and that every call and event keeps. -/
structure Invariant (P : Collector → Prop) : Prop extends EventInvariant P where
  /-- A new collector has it. -/
  initial : ∀ sampleRate retainRate method maxAllocs maxHeap,
    P (Collector.initial sampleRate retainRate method maxAllocs maxHeap)
  /-- A start keeps it. -/
  start : ∀ {c c' : Collector} {hooks r}, P c → c.start hooks = .ok (c', r) → P c'
  /-- A stop keeps it. -/
  stop : ∀ {c : Collector} {unhooks}, P c → P (c.stop unhooks).1
  /-- New settings keep it. -/
  configure : ∀ {c c' : Collector} {s}, P c → c.configure s = .ok c' → P c'
  /-- A new sampling rate keeps it. -/
  setSampleRate : ∀ {c c' : Collector} {p}, P c → c.setSampleRate p = .ok c' → P c'
  /-- A new retain rate keeps it. -/
  setRetainRate : ∀ {c c' : Collector} {p}, P c → c.setRetainRate p = .ok c' → P c'
  /-- A new capacity of the ledger keeps it. -/
  setMaxAllocationSamples : ∀ {c : Collector} {n}, P c → P (c.setMaxAllocationSamples n)
  /-- A new capacity of the heap index keeps it. -/
  setMaxHeapSamples : ∀ {c : Collector} {n}, P c → P (c.setMaxHeapSamples n)
  /-- A new capture method keeps it. -/
  setMethod : ∀ {c : Collector} {m}, P c → P (c.setMethod m)
  /-- A relocation keeps it. -/
  relocate : ∀ {c c' : Collector} {remap}, P c → c.relocate remap = .ok c' → P c'
  /-- An export keeps it. -/
  flush : ∀ {c c' : Collector} {probe time r}, P c → c.flush probe time = .ok (c', r) → P c'

/-- An invariant holds of every collector a history leads to. -/
theorem Invariant.holds {P : Collector → Prop} (hP : Invariant P) {c : Collector}
    (t : History c) : P c := by
  induction t with
  | new => exact hP.initial _ _ _ _ _
  | start _ _ hs ih => exact hP.start ih hs
  | stop _ _ ih => exact hP.stop ih
  | configure _ _ hs ih => exact hP.configure ih hs
  | setSampleRate _ _ hs ih => exact hP.setSampleRate ih hs
  | setRetainRate _ _ hs ih => exact hP.setRetainRate ih hs
  | setMaxAllocationSamples _ _ ih => exact hP.setMaxAllocationSamples ih
  | setMaxHeapSamples _ _ ih => exact hP.setMaxHeapSamples ih
  | setMethod _ _ ih => exact hP.setMethod ih
  | relocate _ _ hs ih => exact hP.relocate ih hs
  | flush _ _ _ hs ih => exact hP.flush ih hs
  | events _ r ih => exact hP.toEventInvariant.run r ih

theorem Invariant.reachable {P : Collector → Prop} (hP : Invariant P) {c : Collector}
    (hc : Reachable c) : P c :=
  hc.elim hP.holds

/-! ### A history with shared frames -/

/-- A started collector that sampled two allocations in one function `f` of file `m`: handle `7`
with frames at lines `3` and `4`, then handle `8` with one frame at line `3`.  The two stacks share
a function and a location. -/
noncomputable def sharedFrameHistory : Σ c, History c :=
  ⟨_, .events (@History.start _ _ (.ok ()) (.new Rate.always Rate.always .fast 6 6) (.ok ()) rfl)
    (.allocCaptured 7 16 0 .fast
      [{ functionId := 5, name := "f", file := "m", startLine := 1, line := 3 },
        { functionId := 5, name := "f", file := "m", startLine := 1, line := 4 }] rfl (.nil _ _) rfl
      (.allocCaptured 8 24 0 .fast
        [{ functionId := 5, name := "f", file := "m", startLine := 1, line := 3 }] rfl (.nil _ _) rfl
        (.nil _ _)))⟩

end HeapSampler
