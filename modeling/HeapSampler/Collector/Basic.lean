import HeapSampler.Settings.Basic
import HeapSampler.Sample.Records
import HeapSampler.Locations.Table
import HeapSampler.Profile.Builder

/-!
# The collector

The collector's state and settings, how it lets go of a record, its answers to the host's
events, and its export of what it collected.

## Main definitions

* `Collector`, `Collector.new`, `Collector.configuration`, `Collector.configure` and the
  setters.
* `Collector.release`, `Collector.evict`: letting go of a record.
* `HostError`, `DropCounts`, `maxCaptureDepth`.
* `Collector.start`, `Collector.stop`, `Collector.beginAlloc`, `Collector.finishAlloc`,
  `Collector.onFree`, `Collector.onReturn`, `Collector.relocate`.
* `FlushStats`, `FlushReport`, `Collector.flush`.
* `CollectorError`: why a profiling run failed.
-/

/-!
### State and settings

The collector turns the host's allocation events into samples. It holds the string and
location tables, the allocation ledger, the heap index and the records they share, the two
rates, the capture method, the number of records at the front of the ledger whose size is not
yet measured (*pending*), and counts of samples lost for each cause.

Each record is held by the ledger, by the heap index, or by both; the store counts its holders,
and the last one to let go returns the record's backtrace to the location table.
-/

namespace HeapSampler

/-- The most captures that may be in progress at once. Capturing a stack may allocate, and
each allocation may capture again; the bound stops that. -/
def maxCaptureDepth : Nat := 2

/-- A failure reported by the host. -/
structure HostError where
  /-- The host's message. -/
  message : String
  deriving DecidableEq, Repr

/-- The text of a host failure. -/
def HostError.text (e : HostError) : String := "host runtime error: " ++ e.message

/-- Samples lost since the last export, by cause. -/
structure DropCounts where
  /-- The collector was busy: as many captures as allowed were in progress. -/
  noLock : Nat := 0
  /-- The ledger was full. -/
  ledgerFull : Nat := 0
  /-- The heap index was full. -/
  heapFull : Nat := 0
  deriving DecidableEq, Repr

/-- The state of a collector. -/
structure Collector where
  /-- The host delivers events. -/
  running : Bool := false
  /-- The share of allocations sampled. -/
  sampleRate : Rate
  /-- The share of sampled allocations kept once their size is known. -/
  retainRate : Rate
  /-- How stacks are captured. -/
  method : CaptureMethod
  /-- The number of records at the front of the ledger whose size is not measured yet. -/
  pending : Nat := 0
  /-- The string table. -/
  strings : StringTable := .new
  /-- The location table. -/
  locations : LocationTable := {}
  /-- The records sampled since the last export, the most recent first. -/
  ledger : Ledger
  /-- The records of objects believed live, by handle. -/
  heap : HeapIndex
  /-- The records held by the ledger or the heap index. -/
  store : RecordStore := {}
  /-- Samples lost since the last export. -/
  dropped : DropCounts := {}

namespace Collector

/-- A stopped collector with the given settings; the sampling rate is checked first, then the
retain rate. -/
def new (s : Settings) : Except SettingsError Collector := do
  let (sampleRate, retainRate) ← s.rates
  return { sampleRate, retainRate, method := s.method,
           ledger := { capacity := s.maxAllocationSamples },
           heap := { capacity := s.maxHeapSamples } }

/-- The settings in force, each rate as its quantised probability. -/
def configuration (c : Collector) : Settings where
  sampleRate := c.sampleRate.toProbability
  retainRate := c.retainRate.toProbability
  maxAllocationSamples := c.ledger.capacity
  maxHeapSamples := c.heap.capacity
  method := c.method

/-- Applies all settings, or none when a rate is out of range. -/
def configure (c : Collector) (s : Settings) : Except SettingsError Collector := do
  let (sampleRate, retainRate) ← s.rates
  return { c with sampleRate, retainRate, method := s.method,
                  ledger := c.ledger.setCapacity s.maxAllocationSamples,
                  heap := c.heap.setCapacity s.maxHeapSamples }

/-- Sets the sampling rate. -/
def setSampleRate (c : Collector) (p : Float) : Except SettingsError Collector := do
  return { c with sampleRate := ← Rate.ofProbability "sample_rate" p }

/-- Sets the retain rate. -/
def setRetainRate (c : Collector) (p : Float) : Except SettingsError Collector := do
  return { c with retainRate := ← Rate.ofProbability "allocation_retain_rate" p }

/-- Sets the capacity of the ledger. -/
def setMaxAllocationSamples (c : Collector) (n : Nat) : Collector :=
  { c with ledger := c.ledger.setCapacity n }

/-- Sets the capacity of the heap index. -/
def setMaxHeapSamples (c : Collector) (n : Nat) : Collector :=
  { c with heap := c.heap.setCapacity n }

/-- Sets the capture method. -/
def setMethod (c : Collector) (m : CaptureMethod) : Collector := { c with method := m }

/-- One holder lets go of a record; the last one returns its backtrace to the location table. -/
def release (c : Collector) (id : RecordId) : Except Abort Collector :=
  let (store, gone) := c.store.release id
  match gone with
  | none => .ok { c with store }
  | some r => do
    let (locations, strings) ← c.locations.release c.strings r.backtrace
    return { c with store, locations, strings }

/-- Lets go of records, in order. -/
def releaseAll (c : Collector) (ids : List RecordId) : Except Abort Collector :=
  ids.foldlM release c

/-- Changes a record. -/
def updateRecord (c : Collector) (id : RecordId) (f : SampleRecord → SampleRecord) : Collector :=
  { c with store := c.store.update id f }

/-- Forgets the object under a handle: its heap entry goes, the record's handle is cleared and
the heap index lets go of it. -/
def evict (c : Collector) (h : UInt64) : Except Abort Collector :=
  let (heap, removed) := c.heap.remove h
  match removed with
  | none => .ok c
  | some id => ({ c with heap }.updateRecord id SampleRecord.clearHandle).release id

end Collector

/-!
### Events

What the collector does on each event of the host. An event that needs the host is split
where the host is asked: the caller passes the host's answer in.

* `start` clears what was collected and asks the host for its hooks; `stop` gives them back.
* An allocation first forgets any record of its handle (the host may reuse a handle without
  reporting the free), then draws against the sampling rate. A sampled allocation is dropped
  when as many captures as allowed are in progress, or when the ledger or the heap index is
  full; otherwise its stack is captured (`beginAlloc`). Capturing may run other events, so
  room is checked again before the record is made and put into the ledger and under its handle
  in the heap index (`finishAlloc`).
* A free forgets the record of its handle.
* A return from a call measures the objects of the pending records: a live object's record
  takes its size, a dead one's record loses its handle and heap entry. Then each is kept in
  the ledger with the retain rate's chance.
* A relocation moves heap entries to new handles; records that lose their slot are forgotten.
-/

namespace Collector

/-- Empties the ledger and the heap index, letting go of their records (the ledger's first),
and zeroes the pending and drop counts. -/
def clear (c : Collector) : Except Abort Collector := do
  let (ledger, detached) := c.ledger.detach
  let (heap, drained) := c.heap.drain
  let c ← releaseAll { c with ledger, heap } detached
  let c ← c.releaseAll drained
  return { c with pending := 0, dropped := {} }

/-- Starts collecting. A running collector is left alone and the host is not asked. A stopped
one is cleared, then asks the host for its hooks, whose answer is `hooks`; it runs only if the
host agreed. -/
def start (c : Collector) (hooks : Except HostError Unit) :
    Except Abort (Collector × Except HostError Unit) := do
  if c.running then return (c, .ok ())
  let c ← c.clear
  match hooks with
  | .ok () => return ({ c with running := true }, .ok ())
  | .error e => return (c, .error e)

/-- Stops collecting. A stopped collector is left alone and the host is not asked; a running
one gives back the host's hooks, whose answer is `unhooks`, and stops only if that worked.
What was collected stays. -/
def stop (c : Collector) (unhooks : Except HostError Unit) : Collector × Except HostError Unit :=
  if c.running then
    match unhooks with
    | .ok () => ({ c with running := false }, .ok ())
    | .error e => (c, .error e)
  else (c, .ok ())

/-- Whether a sample fits: the ledger is not full, nor the heap index. A sample that does not
fit is counted as lost, for the first container found full. -/
def checkRoom (c : Collector) : Collector × Bool :=
  if c.ledger.isFull then ({ c with dropped.ledgerFull := c.dropped.ledgerFull + 1 }, false)
  else if c.heap.isFull then ({ c with dropped.heapFull := c.dropped.heapFull + 1 }, false)
  else (c, true)

/-- The decision on a sampled allocation's draw, with `depth` captures in progress: not
admitted by the sampling rate, lost because the collector is busy or a container is full, or
to be captured with the collector's method. -/
def sampleDecision (c : Collector) (draw : UInt32) (depth : Nat) : Collector × Option CaptureMethod :=
  if !c.sampleRate.admits draw then (c, none)
  else if maxCaptureDepth ≤ depth then ({ c with dropped.noLock := c.dropped.noLock + 1 }, none)
  else
    match c.checkRoom with
    | (c, true) => (c, some c.method)
    | (c, false) => (c, none)

/-- The first half of an allocation of handle `h`, with `depth` captures in progress and the
random `draw`: forgets the handle's record, then decides whether to capture the stack, and
with which method. -/
def beginAlloc (c : Collector) (h : UInt64) (draw : UInt32) (depth : Nat) :
    Except Abort (Collector × Option CaptureMethod) :=
  (c.evict h).map fun c => c.sampleDecision draw depth

/-- A capture is asked for only while fewer than `maxCaptureDepth` are in progress. -/
theorem depth_lt_of_sampleDecision {c c' : Collector} {draw : UInt32} {depth : Nat} {m : CaptureMethod}
    (h : c.sampleDecision draw depth = (c', some m)) : depth < maxCaptureDepth := by
  unfold sampleDecision at h
  split at h
  · simp at h
  · split at h
    · simp at h
    · omega

/-- A capture is asked for only while fewer than `maxCaptureDepth` are in progress. -/
theorem depth_lt_of_beginAlloc {c c' : Collector} {h : UInt64} {draw : UInt32} {depth : Nat}
    {m : CaptureMethod} (hb : c.beginAlloc h draw depth = .ok (c', some m)) :
    depth < maxCaptureDepth := by
  unfold beginAlloc at hb
  cases he : c.evict h with
  | error e => simp [he, Except.map] at hb
  | ok c1 =>
    simp only [he, Except.map, Except.ok.injEq] at hb
    exact depth_lt_of_sampleDecision hb

/-- The second half of an allocation of handle `h` with size hint `size`, once its stack is
captured: if there is still room, a record is made and held by the ledger and the heap index,
and it waits for its size. A record the heap index held under the handle before is forgotten. -/
def finishAlloc (c : Collector) (h size : UInt64) (frames : List Frame) :
    Except Abort Collector := do
  let (c, room) := c.checkRoom
  if !room then return c
  let (locations, strings, bt) := c.locations.intern c.strings frames
  let (store, id) := c.store.add (SampleRecord.new bt h size) 2
  let ledger ← match c.ledger.push id with
    | .ok l => pure l
    | .error _ => throw .ledgerFullAfterCheck
  let (heap, previous) := c.heap.insert h id
  let c := { c with locations, strings, store, ledger, heap, pending := c.pending + 1 }
  match previous with
  | none => return c
  | some old => (c.updateRecord old SampleRecord.clearHandle).release old

/-- A free of handle `h`. -/
def onFree (c : Collector) (h : UInt64) : Except Abort Collector := c.evict h

/-- The handle of a record, `0` when it has none or is not stored. -/
def handleOf (c : Collector) (id : RecordId) : UInt64 :=
  ((c.store.get? id).map (·.handle)).getD 0

/-- Measures one pending record with the host's `probe` (the size of a live object, `none`
for a dead one), then keeps it in the ledger if `draw` is admitted by the retain rate. -/
def settle (c : Collector) (probe : UInt64 → Option UInt64) (id : RecordId) (draw : UInt32) :
    Except Abort Collector := do
  let h := c.handleOf id
  let c ← match (if h = 0 then none else probe h) with
    | some size => pure (c.updateRecord id (·.resolveSize size))
    | none =>
      if h = 0 then pure c
      else
        let (heap, removed) := c.heap.removeIfSame h id
        let c := { c with heap }
        let c ← match removed with
          | some e => c.release e
          | none => pure c
        pure (c.updateRecord id SampleRecord.clearHandle)
  if c.retainRate.admits draw then return c
  let (ledger, removed) := c.ledger.unlink id
  match removed with
  | some e => Collector.release { c with ledger } e
  | none => return { c with ledger }

/-- Settles pending records in order; the `i`-th uses draw `draws (start + i)`. -/
def settleAll (probe : UInt64 → Option UInt64) (draws : Nat → UInt32) :
    Collector → Nat → List RecordId → Except Abort Collector
  | c, _, [] => .ok c
  | c, i, id :: ids => do
    let c ← c.settle probe id (draws i)
    settleAll probe draws c (i + 1) ids

/-- A return from a call: settles every pending record, the most recent first, with the host's
`probe` and the `i`-th random draw for the `i`-th record. Nothing happens when none is pending;
the run stops if more are pending than the ledger holds. -/
def onReturn (c : Collector) (probe : UInt64 → Option UInt64) (draws : Nat → UInt32) :
    Except Abort Collector := do
  if c.pending = 0 then return c
  if c.ledger.size < c.pending then throw (.pendingBeyondLedger c.pending c.ledger.size)
  let batch := c.ledger.records.take c.pending
  let c ← settleAll probe draws c 0 batch
  return { c with pending := c.pending - batch.length }

/-- The host moved objects: heap entries follow `remap`, moved records take their new handles,
and records that lost their slot lose their handle and are let go by the heap index. -/
def relocate (c : Collector) (remap : UInt64 → UInt64) : Except Abort Collector :=
  let (heap, displaced, moved) := c.heap.relocate remap
  let c := moved.foldl (fun c m => c.updateRecord m.2 (·.setHandle m.1)) { c with heap }
  displaced.foldlM (fun c id => (c.updateRecord id SampleRecord.clearHandle).release id) c

end Collector

/-!
### Export

An export takes every record of the ledger and the records of the heap index whose objects are
still live, and writes one profile of them: the ledger's records as allocations, the most
recent first, then the heap's records. The ledger starts over, the heap index does not, and the
drop counts are reported and zeroed.

The host is asked, for every heap entry, whether its object is live and how large (`probe`). A
live object's record takes its current size; a dead one's entry leaves the heap index and its
record loses its handle. Then the string table is frozen and the profile written; the records
taken from the ledger are held until then, so their strings are in the frozen list.
-/

/-- What an export counted. -/
structure FlushStats where
  /-- The records taken from the ledger. -/
  allocationSamples : Nat
  /-- The heap records written. -/
  heapSamples : Nat
  /-- The samples lost since the last export. -/
  dropped : DropCounts
  deriving DecidableEq, Repr

/-- The result of an export. -/
structure FlushReport where
  /-- The counts. -/
  stats : FlushStats
  /-- The profile. -/
  profile : Profile

/-- Why a profiling run (start, work, export, stop) failed. -/
inductive CollectorError where
  /-- Settings were refused. -/
  | settings (e : SettingsError)
  /-- The profile could not be written. -/
  | serialization (e : SerializationError)
  /-- The host failed. -/
  | host (e : HostError)

/-- The message of a profiling failure: that of its cause. -/
def CollectorError.message : CollectorError → String
  | .settings e => e.message
  | .serialization e => e.message
  | .host e => e.text

namespace Collector

/-- Updates the heap entry of `h` holding record `id` with the host's `probe`: a live object's
record takes its current size, a dead one's entry is removed, its handle cleared, and the heap
index lets go of it. -/
def sweepEntry (probe : UInt64 → Option UInt64) (c : Collector) (e : UInt64 × RecordId) :
    Except Abort Collector :=
  match probe e.1 with
  | some size => .ok (c.updateRecord e.2 (·.setCurrentSize size))
  | none =>
    let (heap, removed) := c.heap.removeIfSame e.1 e.2
    match removed with
    | some id => ({ c with heap }.updateRecord id SampleRecord.clearHandle).release id
    | none => .ok { c with heap }

/-- The stored records with the given names. -/
def recordsOf (c : Collector) (ids : List RecordId) : List SampleRecord :=
  ids.filterMap c.store.get?

/-- Exports what was collected, with the host's `probe` and the wall-clock reading `timeNanos`. -/
def flush (c : Collector) (probe : UInt64 → Option UInt64) (timeNanos : Int64) :
    Except Abort (Collector × Except SerializationError FlushReport) := do
  let (ledger, detached) := c.ledger.detach
  let dropped := c.dropped
  let c := { c with pending := 0, ledger, dropped := {} }
  let c ← c.heap.entries.foldlM (sweepEntry probe) c
  let heapIds := c.heap.entries.map (·.2)
  let profile := Profile.ofRecords c.strings.snapshot c.strings.vocabulary timeNanos
    (c.recordsOf detached) (c.recordsOf heapIds)
  let c ← c.releaseAll detached
  return (c, profile.map fun p => ⟨⟨detached.length, heapIds.length, dropped⟩, p⟩)

end Collector

end HeapSampler
