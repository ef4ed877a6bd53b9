import HeapSampler.Collector.Basic
import HeapSampler.Bench.Library

/-!
# The collector bench

Collector scripts, the host that runs them, and the bench that runs them against one
collector.

## Main definitions

* `CollectorStep`, `CaptureScript`: what a bench runs.
* `ScriptedHost` and its answers: `probe`, `registerHooks`, `unregisterHooks`, `beginCapture`.
* `Status`, `CollectorReply`, `StepAnswer`.
* `CollectorBench`, `CollectorBench.new`, `CollectorBench.runStep`, `CollectorBench.run`.
-/

/-!
### Collector scripts and the scripted host

A collector bench runs a script of steps against one collector and a scripted host. The host
keeps a table of live objects with their sizes, the stack it reports, and a queue of capture
scripts. Each time the collector captures a stack, the host takes the next capture script: it
runs that script's steps as events nested in the capture, then fails with the script's message
or returns the script's stack, or its own. With no script queued it returns its own stack.
-/

namespace HeapSampler.Bench

mutual

/-- One step of a collector script. -/
inductive CollectorStep where
  /-- Starts collecting. -/
  | start
  /-- Stops collecting. -/
  | stop
  /-- Makes an object live in the host, then reports its allocation. -/
  | alloc (h size : UInt64)
  /-- Reports an allocation only. -/
  | allocEvent (h size : UInt64)
  /-- Removes an object from the host, then reports its free. -/
  | free (h : UInt64)
  /-- Reports a free only. -/
  | freeEvent (h : UInt64)
  /-- Reports a return from a call, on the bench's thread. -/
  | onReturn
  /-- Reports a return from a call on another thread. -/
  | onReturnElsewhere
  /-- Exports what was collected. -/
  | flush
  /-- Applies settings, or the reason they could not be read. -/
  | configure (s : Except SettingsError Settings)
  /-- Sets the sampling rate. -/
  | setSampleRate (p : Float)
  /-- Sets the retain rate. -/
  | setRetainRate (p : Float)
  /-- Sets the ledger's capacity. -/
  | setMaxAllocs (n : Nat)
  /-- Sets the heap index's capacity. -/
  | setMaxHeap (n : Nat)
  /-- Sets the capture method by name. -/
  | setMethod (name : String)
  /-- Reads the settings. -/
  | getConfig
  /-- Reports that objects moved, by a list of moves. -/
  | relocate (moves : List (UInt64 × UInt64))
  /-- Runs steps inside a profiling run: start, the steps, export, stop. -/
  | profile (steps : List CollectorStep)
  /-- Makes an object live in the host, with a size. -/
  | hostSet (h size : UInt64)
  /-- Removes an object from the host. -/
  | hostKill (h : UInt64)
  /-- Sets the stack the host reports. -/
  | hostFrames (frames : List Frame)
  /-- Makes the host refuse to register its hooks, with a message, or agree again. -/
  | hostFailRegister (message : Option String)
  /-- Makes the host refuse to unregister its hooks, with a message, or agree again. -/
  | hostFailUnregister (message : Option String)
  /-- Queues capture scripts. -/
  | hostScript (captures : List CaptureScript)
  /-- Shows the state. -/
  | show
  /-- A step that could not be read, and why. -/
  | unreadable (why : String)

/-- What the host does on one capture. -/
inductive CaptureScript where
  /-- Runs `steps` as nested events; then fails with `fail` if given, or returns `frames` if
  given, or the host's own stack. With `propagate`, the first nested step that fails in the
  host (a start, a stop or an allocation) ends the capture at once with that failure. -/
  | mk (steps : List CollectorStep) (fail : Option String) (frames : Option (List Frame))
      (propagate : Bool)

end

/-- The steps of a capture script. -/
def CaptureScript.steps : CaptureScript → List CollectorStep
  | .mk steps .. => steps

/-- The failure of a capture script. -/
def CaptureScript.fail : CaptureScript → Option String
  | .mk _ fail .. => fail

/-- The stack of a capture script. -/
def CaptureScript.frames : CaptureScript → Option (List Frame)
  | .mk _ _ frames _ => frames

/-- Whether a capture script passes on a nested step's host failure. -/
def CaptureScript.propagate : CaptureScript → Bool
  | .mk _ _ _ propagate => propagate

/-- A host driven by a script. -/
structure ScriptedHost where
  /-- The live objects and their sizes. -/
  objects : List (UInt64 × UInt64) := []
  /-- The stack it reports. -/
  frames : List Frame
  /-- The capture scripts queued. -/
  script : List CaptureScript := []
  /-- The captures asked for. -/
  captures : Nat := 0
  /-- The method of the last capture. -/
  lastMethod : Option CaptureMethod := none
  /-- The registrations of hooks asked for. -/
  registers : Nat := 0
  /-- The unregistrations of hooks asked for. -/
  unregisters : Nat := 0
  /-- The message to refuse registrations with. -/
  failRegister : Option String := none
  /-- The message to refuse unregistrations with. -/
  failUnregister : Option String := none

namespace ScriptedHost

/-- The size of a live object, `none` for one that is not live. -/
def probe (host : ScriptedHost) (h : UInt64) : Option UInt64 :=
  (host.objects.find? (·.1 == h)).map (·.2)

/-- Makes an object live with a size. -/
def setObject (host : ScriptedHost) (h size : UInt64) : ScriptedHost :=
  { host with objects := (host.objects.filter (·.1 != h)) ++ [(h, size)] }

/-- Removes an object. -/
def killObject (host : ScriptedHost) (h : UInt64) : ScriptedHost :=
  { host with objects := host.objects.filter (·.1 != h) }

/-- Registers the hooks: counted, and refused while a message is set. -/
def registerHooks (host : ScriptedHost) : ScriptedHost × Except HostError Unit :=
  ({ host with registers := host.registers + 1 },
    match host.failRegister with
    | some m => .error ⟨m⟩
    | none => .ok ())

/-- Unregisters the hooks: counted, and refused while a message is set. -/
def unregisterHooks (host : ScriptedHost) : ScriptedHost × Except HostError Unit :=
  ({ host with unregisters := host.unregisters + 1 },
    match host.failUnregister with
    | some m => .error ⟨m⟩
    | none => .ok ())

/-- Starts a capture: counts it, notes its method and takes the next capture script. -/
def beginCapture (host : ScriptedHost) (m : CaptureMethod) : ScriptedHost × Option CaptureScript :=
  let host := { host with captures := host.captures + 1, lastMethod := some m }
  match host.script with
  | [] => (host, none)
  | s :: rest => ({ host with script := rest }, some s)

end ScriptedHost

/-!
### The collector bench

Runs a collector script against one collector and a scripted host, on one thread. Every step
answers with its reply, the counts of the collector and the host after it, and the answers of
the steps the host ran nested in captures during it, in the order they ran.

Captures nest: a step run inside a capture may allocate and capture again. The collector
refuses to capture while `maxCaptureDepth` captures are in progress, so the nesting is bounded;
this is what makes the run terminate, by the measure (captures still allowed, size of the
steps left).

A call-return event from another thread is skipped while a capture is in progress, since the
capturing thread holds the collector's lock.

Random draws come from a fixed sequence, `randomDraw`.
-/

/-- The counts shown after every step. -/
structure Status where
  /-- The collector is running. -/
  running : Bool
  /-- The records in the ledger. -/
  allocs : Nat
  /-- The entries of the heap index. -/
  heap : Nat
  /-- The records waiting for their size. -/
  pending : Nat
  /-- The captures the host was asked for. -/
  captures : Nat
  /-- The registrations of hooks the host was asked for. -/
  registers : Nat
  /-- The unregistrations of hooks the host was asked for. -/
  unregisters : Nat
  /-- The method of the last capture. -/
  lastMethod : Option CaptureMethod

mutual

/-- The reply to a step of a collector script. -/
inductive CollectorReply where
  /-- Done. -/
  | ok
  /-- The host failed. -/
  | hostFailed (e : HostError)
  /-- Settings were refused. -/
  | settingsRefused (e : SettingsError)
  /-- The result of an export. -/
  | flushed (r : Except SerializationError FlushReport)
  /-- The settings in force. -/
  | config (s : Settings)
  /-- The answers of a profiling run's steps, and its result. -/
  | profiled (inner : List StepAnswer) (r : Except CollectorError FlushReport)
  /-- The step could not be read. -/
  | unreadable (why : String)

/-- The answer to a step: its reply, the counts after it, and the answers of the steps run
nested in captures during it. -/
inductive StepAnswer where
  /-- The answer. -/
  | mk (reply : CollectorReply) (status : Status) (nested : List StepAnswer)

end

/-- The `n`-th random draw of a bench: the `n`-th output of the splitmix64 sequence, cut to
32 bits. -/
def randomDraw (n : Nat) : UInt32 :=
  let z := (n.toUInt64 + 1) * 0x9E3779B97F4A7C15
  let z := (z ^^^ (z >>> 30)) * 0xBF58476D1CE4E5B9
  let z := (z ^^^ (z >>> 27)) * 0x94D049BB133111EB
  (z ^^^ (z >>> 31)).toUInt32

/-- The state of a collector bench. -/
structure CollectorBench where
  /-- The collector. -/
  collector : Collector
  /-- The host. -/
  host : ScriptedHost
  /-- The random draws taken. -/
  drawn : Nat := 0
  /-- The wall-clock reading given to exports, in nanoseconds since the epoch. -/
  clock : Int64

namespace CollectorBench

/-- A bench with a new collector of the given settings and a host reporting `frames`. -/
def new (s : Settings) (frames : List Frame) (clock : Int64) : Except SettingsError CollectorBench := do
  return { collector := ← Collector.new s, host := { frames }, clock }

/-- The counts of the collector and the host. -/
def status (b : CollectorBench) : Status :=
  ⟨b.collector.running, b.collector.ledger.size, b.collector.heap.size, b.collector.pending,
    b.host.captures, b.host.registers, b.host.unregisters, b.host.lastMethod⟩

/-- The answer of a step with no nested steps. -/
def answer (b : CollectorBench) (r : CollectorReply) : StepAnswer := .mk r b.status []

/-- Takes the next random draw. -/
def draw (b : CollectorBench) : CollectorBench × UInt32 :=
  ({ b with drawn := b.drawn + 1 }, randomDraw b.drawn)

/-- Starts the collector; the host is asked for its hooks only when the collector is stopped. -/
def start (b : CollectorBench) : Except Abort (CollectorBench × Except HostError Unit) := do
  let (host, hooks) := if b.collector.running then (b.host, .ok ()) else b.host.registerHooks
  let (c, r) ← b.collector.start hooks
  return ({ b with collector := c, host }, r)

/-- Stops the collector; the host is asked to give back its hooks only when it is running. -/
def stop (b : CollectorBench) : CollectorBench × Except HostError Unit :=
  let (host, unhooks) := if b.collector.running then b.host.unregisterHooks else (b.host, .ok ())
  let (c, r) := b.collector.stop unhooks
  ({ b with collector := c, host }, r)

/-- Exports. -/
def flush (b : CollectorBench) : Except Abort (CollectorBench × Except SerializationError FlushReport) := do
  let (c, r) ← b.collector.flush b.host.probe b.clock
  return ({ b with collector := c }, r)

/-- A return from a call; it takes one draw per pending record. -/
def onReturn (b : CollectorBench) : Except Abort CollectorBench := do
  let c ← b.collector.onReturn b.host.probe fun i => randomDraw (b.drawn + i)
  return { b with collector := c, drawn := b.drawn + b.collector.pending }

/-- The reply to a change of settings. -/
def settle (b : CollectorBench) (r : Except SettingsError Collector) : CollectorBench × CollectorReply :=
  match r with
  | .ok c => ({ b with collector := c }, .ok)
  | .error e => (b, .settingsRefused e)

/-- The reply of a host call. -/
def hostReply (r : Except HostError Unit) : CollectorReply :=
  match r with
  | .ok () => .ok
  | .error e => .hostFailed e

/-- Runs a step that captures nothing, with `depth` captures in progress. -/
def simpleStep (depth : Nat) (b : CollectorBench) :
    CollectorStep → Except Abort (CollectorBench × CollectorReply)
  | .start => do
    let (b, r) ← b.start
    return (b, hostReply r)
  | .stop =>
    let (b, r) := b.stop
    .ok (b, hostReply r)
  | .free h => do
    let c ← b.collector.onFree h
    return ({ b with collector := c, host := b.host.killObject h }, .ok)
  | .freeEvent h => do
    let c ← b.collector.onFree h
    return ({ b with collector := c }, .ok)
  | .onReturn => do return (← b.onReturn, .ok)
  | .onReturnElsewhere => do
    if depth = 0 then return (← b.onReturn, .ok) else return (b, .ok)
  | .flush => do
    let (b, r) ← b.flush
    return (b, .flushed r)
  | .configure (.error e) => .ok (b, .settingsRefused e)
  | .configure (.ok s) => .ok (b.settle (b.collector.configure s))
  | .setSampleRate p => .ok (b.settle (b.collector.setSampleRate p))
  | .setRetainRate p => .ok (b.settle (b.collector.setRetainRate p))
  | .setMaxAllocs n => .ok ({ b with collector := b.collector.setMaxAllocationSamples n }, .ok)
  | .setMaxHeap n => .ok ({ b with collector := b.collector.setMaxHeapSamples n }, .ok)
  | .setMethod name => .ok (b.settle ((CaptureMethod.ofName name).map b.collector.setMethod))
  | .getConfig => .ok (b, .config b.collector.configuration)
  | .relocate moves => do
    let c ← b.collector.relocate (remapOf moves)
    return ({ b with collector := c }, .ok)
  | .hostSet h size => .ok ({ b with host := b.host.setObject h size }, .ok)
  | .hostKill h => .ok ({ b with host := b.host.killObject h }, .ok)
  | .hostFrames frames => .ok ({ b with host := { b.host with frames } }, .ok)
  | .hostFailRegister m => .ok ({ b with host := { b.host with failRegister := m } }, .ok)
  | .hostFailUnregister m => .ok ({ b with host := { b.host with failUnregister := m } }, .ok)
  | .hostScript captures => .ok ({ b with host := { b.host with script := b.host.script ++ captures } }, .ok)
  | .show => .ok (b, .ok)
  | .unreadable why => .ok (b, .unreadable why)
  -- allocations and profiling runs capture, and are run by `runStep`
  | .alloc .. | .allocEvent .. | .profile .. => .ok (b, .ok)

/-- The result of a profiling run from the results of its start, export and stop. -/
def profileResult (flushed : Except SerializationError FlushReport) (stopped : Except HostError Unit) :
    Except CollectorError FlushReport :=
  match stopped, flushed with
  | .error e, _ => .error (.host e)
  | .ok (), .error e => .error (.serialization e)
  | .ok (), .ok r => .ok r

/-- Ends an allocation once its stack is known. -/
def finishAlloc (b : CollectorBench) (h size : UInt64) (frames : List Frame) (nested : List StepAnswer) :
    Except Abort (CollectorBench × StepAnswer) := do
  let c ← b.collector.finishAlloc h size frames
  let b := { b with collector := c }
  return (b, .mk .ok b.status nested)

mutual

/-- Runs steps with `depth` captures in progress. With `propagate`, a step that fails in the
host ends the run, and the failure is returned. -/
def runSteps (depth : Nat) (propagate : Bool) (b : CollectorBench) :
    List CollectorStep → Except Abort (CollectorBench × List StepAnswer × Option HostError)
  | [] => .ok (b, [], none)
  | s :: ss => do
    let (b, a) ← runStep depth b s
    match propagate, a with
    | true, .mk (.hostFailed e) _ _ => return (b, [a], some e)
    | _, _ =>
      let (b, as, failed) ← runSteps depth propagate b ss
      return (b, a :: as, failed)
termination_by ss => (maxCaptureDepth - depth, sizeOf ss)

/-- Runs one step with `depth` captures in progress. -/
def runStep (depth : Nat) (b : CollectorBench) :
    CollectorStep → Except Abort (CollectorBench × StepAnswer)
  | .alloc h size => allocate depth { b with host := b.host.setObject h size } h size
  | .allocEvent h size => allocate depth b h size
  | .profile inner => do
    let (b, started) ← b.start
    match started with
    | .error e => return (b, b.answer (.profiled [] (.error (.host e))))
    | .ok () =>
      let (b, answers, _) ← runSteps depth false b inner
      let (b, flushed) ← b.flush
      let (b, stopped) := b.stop
      return (b, b.answer (.profiled answers (profileResult flushed stopped)))
  | s => do
    let (b, r) ← simpleStep depth b s
    return (b, b.answer r)
termination_by s => (maxCaptureDepth - depth, sizeOf s)

/-- An allocation of handle `h` with size hint `size`, with `depth` captures in progress. A
capture takes the host's next capture script and runs its steps one level deeper. -/
def allocate (depth : Nat) (b : CollectorBench) (h size : UInt64) :
    Except Abort (CollectorBench × StepAnswer) :=
  let (b, d) := b.draw
  match hb : b.collector.beginAlloc h d depth with
  | .error e => .error e
  | .ok (c, none) =>
    let b := { b with collector := c }
    .ok (b, b.answer .ok)
  | .ok (c, some m) =>
    have _hd : depth < maxCaptureDepth := Collector.depth_lt_of_beginAlloc hb
    let (host, entry) := b.host.beginCapture m
    let b := { b with collector := c, host }
    match entry with
    | none => b.finishAlloc h size b.host.frames []
    | some e =>
      match runSteps (depth + 1) e.propagate b e.steps with
      | .error ab => .error ab
      | .ok (b, nested, some err) => .ok (b, .mk (.hostFailed err) b.status nested)
      | .ok (b, nested, none) =>
        match e.fail with
        | some msg => .ok (b, .mk (.hostFailed ⟨msg⟩) b.status nested)
        | none => b.finishAlloc h size (e.frames.getD b.host.frames) nested
termination_by (maxCaptureDepth - depth, 0)
decreasing_by
  apply Prod.Lex.left
  omega

end

/-- Runs a script at the top level. The answers of the steps run before an abort are kept. -/
def run (b : CollectorBench) : List CollectorStep → List StepAnswer × Option Abort
  | [] => ([], none)
  | s :: ss =>
    match b.runStep 0 s with
    | .error ab => ([], some ab)
    | .ok (b, a) =>
      let (as, ab) := run b ss
      (a :: as, ab)

end CollectorBench

end HeapSampler.Bench
