import HeapSampler.Profile.Builder
import HeapSampler.Sample.Records
import HeapSampler.Fork.Registry

/-!
# Benches of the library's parts

Benches that drive the tables, the record containers and the fork registry through numbered
handles, and the misuse they refuse.

## Main definitions

* `Misuse`, `Misuse.message`.
* `slot?`: the entry of a numbered list.
* `TablesStep`, `TablesReply`, `TablesBench`, `TablesBench.step`.
* `LedgerStep`, `LedgerReply`, `LedgerBench.step`.
* `HeapStep`, `HeapReply`, `HeapBench.step`.
* `remapOf`: the handle remapping given by a list of moves.
* `ForkStep`, `ForkReply`, `ForkBench`, `ForkBench.step`, `ForkBench.elsewhere`.
-/

/-!
### Misuse of a bench

A bench drives the library through numbered handles: strings, snapshots, backtraces, records,
contexts, locks. A step that names a handle that was never made, or one already given up, or
that would block the bench forever, is refused with a `Misuse` and changes nothing.
-/

namespace HeapSampler.Bench

/-- Why a bench step was refused. -/
inductive Misuse where
  /-- No string handle with this number. -/
  | noStringHandle (n : Nat)
  /-- No string handle with the number in the field `field`. -/
  | noHandle (field : String)
  /-- No backtrace with this number, or it was given up. -/
  | noBacktrace (n : Nat)
  /-- No snapshot with this number, or it was given up. -/
  | noSnapshot
  /-- No context with this number. -/
  | noContext
  /-- No record with this number, or it was dropped. -/
  | noRecord
  /-- No record numbered `n` to update, or it was dropped. -/
  | recordMissing (n : Nat)
  /-- No lock with this number. -/
  | noLock (n : Nat)
  /-- No registration with this number, or it was dropped. -/
  | noRegistration
  /-- The bench holds no guard on the lock. -/
  | notHeld
  /-- The step would wait for the registry that the bench itself holds. -/
  | wouldDeadlock (step : String)
  /-- The registry is held already. -/
  | alreadyPrepared
  /-- The registry is not held. -/
  | notPrepared
  /-- The step could not be read. -/
  | unreadable (why : String)
  deriving Repr, DecidableEq

/-- The text of a misuse. -/
def Misuse.message : Misuse → String
  | .noStringHandle n => "no string handle " ++ toString n
  | .noHandle field => "no handle " ++ field
  | .noBacktrace n => "no backtrace " ++ toString n
  | .noSnapshot => "no such snapshot"
  | .noContext => "no such context"
  | .noRecord => "no such record"
  | .recordMissing n => "no record " ++ toString n
  | .noLock n => "no lock " ++ toString n
  | .noRegistration => "no such registration"
  | .notHeld => "no guard held"
  | .wouldDeadlock step => step ++ " while prepared would deadlock"
  | .alreadyPrepared => "already prepared"
  | .notPrepared => "not prepared"
  | .unreadable why => why

/-- A number that a step refers to, or why it could not be read. A step with several such
numbers reads each one only when it comes to use it. -/
abbrev Ref := Except Misuse Nat

/-- The value of an option, or the misuse `m` when there is none. -/
def present {α : Type} (m : Misuse) : Option α → Except Misuse α
  | some a => .ok a
  | none => .error m

/-- The entry numbered `i` of a numbered list, `none` when it was never made or was given up. -/
def slot? {α : Type} (xs : List (Option α)) (i : Nat) : Option α := (xs[i]?).join

/-!
### The tables bench

A bench for the string table, the location table, sample records and the profile builder. It
keeps one string table and one location table, and numbers what it hands out, each kind from
`0` in the order made: string references, snapshots, backtraces, records and contexts. A
string reference stays usable after it is released; a backtrace is given up when it is
released or moved into a record, though the ids of its frames are remembered; a snapshot is
given up when a context is made from it; a record is given up when it is dropped.

A step either answers, is refused as a `Misuse`, or stops the run with an `Abort` from the
tables. A refused step changes nothing, with two exceptions where a step acts before it reads
all of its fields: a record step whose handle or size cannot be read has used up its backtrace
without releasing it, and a resize step keeps the updates before the first one that cannot be
read.
-/

/-- A backtrace held by the bench: the location and function id of each frame, kept after the
backtrace itself is given up. -/
structure HeldBacktrace where
  /-- The location id and function id of each frame. -/
  ids : List (UInt64 × UInt64)
  /-- The backtrace, `none` once given up. -/
  backtrace : Option Backtrace

/-- The sizes of the tables. -/
structure TableCounts where
  /-- Entries of the string table. -/
  strings : Nat
  /-- Locations of the location table. -/
  locations : Nat
  /-- Functions of the location table. -/
  functions : Nat
  deriving DecidableEq, Repr

/-- One change to a record. -/
inductive RecordUpdate where
  /-- Resolves its size. -/
  | resolve (size : UInt64)
  /-- Sets its current size. -/
  | current (size : UInt64)
  /-- Sets its handle. -/
  | handle (h : UInt64)
  /-- Clears its handle. -/
  | clearHandle

/-- Applies one change to a record. -/
def RecordUpdate.apply (r : SampleRecord) : RecordUpdate → SampleRecord
  | .resolve n => r.resolveSize n
  | .current n => r.setCurrentSize n
  | .handle h => r.setHandle h
  | .clearHandle => r.clearHandle

/-- Applies changes in order up to the first that cannot be read, giving the record and the
reason it stopped, if it did. -/
def applyUpdates (r : SampleRecord) :
    List (Except Misuse RecordUpdate) → SampleRecord × Option Misuse
  | [] => (r, none)
  | .error m :: _ => (r, some m)
  | .ok u :: us => applyUpdates (u.apply r) us

/-- One step of the tables bench. -/
inductive TablesStep where
  /-- Interns a text. -/
  | intern (s : String)
  /-- Takes a reference to a word of the table's vocabulary. -/
  | vocab (w : VocabWord)
  /-- Whether two references are to the same entry. -/
  | same (a b : Ref)
  /-- Releases a reference. -/
  | release (h : Nat)
  /-- The references outstanding for a text. -/
  | refcount (s : String)
  /-- The size of the string table. -/
  | size
  /-- Freezes the string table. -/
  | snapshot
  /-- The position of a reference in a snapshot. -/
  | position (snap h : Ref)
  /-- Interns a stack. -/
  | internBacktrace (frames : List Frame)
  /-- Releases a backtrace. -/
  | releaseBacktrace (b : Nat)
  /-- The counts on the location and function of each frame of a backtrace. -/
  | refsOf (b : Nat)
  /-- The sizes of the tables. -/
  | counts
  /-- Moves a backtrace into a new record with the handle and size given, or the reason they
  cannot be read. -/
  | record (b : Nat) (handleAndSize : Except Misuse (UInt64 × UInt64))
  /-- Updates a record, in order; an update that cannot be read stops the step. -/
  | resize (r : Nat) (updates : List (Except Misuse RecordUpdate))
  /-- Drops a record, releasing its backtrace. -/
  | dropRecord (r : Nat)
  /-- Makes a context from a snapshot and the table's vocabulary. -/
  | context (snap : Nat)
  /-- Adds a sample of a kind for a record to a context; the record is looked up before the
  context. -/
  | addSample (c r : Ref) (kind : SampleKind)
  /-- The profile of a context. -/
  | serialize (c : Nat)

/-- The answer to a step of the tables bench. -/
inductive TablesReply where
  /-- A new reference, the count on its text and the table's size. -/
  | interned (h : Nat) (refcount : Option Nat) (size : Nat)
  /-- A new reference to a vocabulary word, its text and the count on it. -/
  | vocab (h : Nat) (text : String) (refcount : Option Nat)
  /-- Whether two references are to the same entry. -/
  | same (same : Bool)
  /-- The count left on the released text and the table's size. -/
  | released (refcount : Option Nat) (size : Nat)
  /-- The references outstanding for a text. -/
  | refcount (refcount : Option Nat)
  /-- The size of the string table. -/
  | size (size : Nat)
  /-- A new snapshot and its texts. -/
  | snapshot (snap : Nat) (texts : List String)
  /-- The position of a reference and the text there, if it has one. -/
  | position (found : Option (Nat × String))
  /-- A new backtrace and the sizes of the tables. -/
  | backtrace (b : Nat) (bt : Backtrace) (counts : TableCounts)
  /-- The sizes of the tables after a release. -/
  | releasedCounts (counts : TableCounts)
  /-- The counts on the location and function of each frame. -/
  | refs (refs : List (Option Nat × Option Nat))
  /-- The sizes of the tables. -/
  | counts (counts : TableCounts)
  /-- A new record. -/
  | record (r : Nat)
  /-- The record after an update. -/
  | resized (record : SampleRecord)
  /-- A new context. -/
  | context (c : Nat)
  /-- No context could be made. -/
  | contextRefused (error : SerializationError)
  /-- The samples of a context, and why the sample was refused if it was. -/
  | added (samples : Nat) (error : Option SerializationError)
  /-- The profile of a context. -/
  | profile (profile : Profile)

/-- The state of the tables bench. -/
structure TablesBench where
  /-- The wall-clock reading given to new contexts, in nanoseconds since the epoch. -/
  clock : Int64
  /-- The string table. -/
  strings : StringTable := .new
  /-- The location table. -/
  locations : LocationTable := {}
  /-- The string references handed out. -/
  handles : List Interned := []
  /-- The snapshots taken. -/
  snapshots : List (Option StringIndex) := []
  /-- The backtraces interned. -/
  backtraces : List HeldBacktrace := []
  /-- The records made. -/
  records : List (Option SampleRecord) := []
  /-- The contexts made. -/
  contexts : List ProfileBuilder := []

namespace TablesBench

/-- The sizes of the tables. -/
def tableCounts (t : TablesBench) : TableCounts :=
  ⟨t.strings.size, t.locations.locations.length, t.locations.functions.length⟩

/-- The result of a step that answers. -/
def reply (t : TablesBench) (r : TablesReply) :
    Except Abort (TablesBench × Except Misuse TablesReply) := .ok (t, .ok r)

/-- The result of a refused step. -/
def refuse (t : TablesBench) (m : Misuse) :
    Except Abort (TablesBench × Except Misuse TablesReply) := .ok (t, .error m)

/-- Runs one step. -/
def step (t : TablesBench) : TablesStep → Except Abort (TablesBench × Except Misuse TablesReply)
  | .intern s =>
    let (strings, h) := t.strings.intern s
    reply { t with strings, handles := t.handles ++ [h] }
      (.interned t.handles.length (strings.refcount? s) strings.size)
  | .vocab w =>
    let h := t.strings.vocabulary w
    reply { t with handles := t.handles ++ [h] }
      (.vocab t.handles.length h.text (t.strings.refcount? h.text))
  | .same a b =>
    .ok (t, do
      let x ← present (.noHandle "a") t.handles[← a]?
      let y ← present (.noHandle "b") t.handles[← b]?
      pure (.same (x.stamp == y.stamp)))
  | .release i =>
    match t.handles[i]? with
    | none => refuse t (.noStringHandle i)
    | some h => do
      let strings ← t.strings.release h
      reply { t with strings } (.released (strings.refcount? h.text) strings.size)
  | .refcount s => reply t (.refcount (t.strings.refcount? s))
  | .size => reply t (.size t.strings.size)
  | .snapshot =>
    let ix := t.strings.snapshot
    reply { t with snapshots := t.snapshots ++ [some ix] } (.snapshot t.snapshots.length ix.texts)
  | .position snap i =>
    .ok (t, do
      let ix ← present .noSnapshot (slot? t.snapshots (← snap))
      let i ← i
      let h ← present (.noStringHandle i) t.handles[i]?
      pure (.position ((ix.position? h).map fun p => (p, ((ix.texts)[p]?).getD ""))))
  | .internBacktrace frames =>
    let (locations, strings, bt) := t.locations.intern t.strings frames
    let held : HeldBacktrace := ⟨bt.map fun l => (l.id, l.function.id), some bt⟩
    let t' := { t with locations, strings, backtraces := t.backtraces ++ [held] }
    reply t' (.backtrace t.backtraces.length bt t'.tableCounts)
  | .releaseBacktrace b =>
    match t.backtraces[b]? with
    | some ⟨ids, some bt⟩ => do
      let (locations, strings) ← t.locations.release t.strings bt
      let t := { t with locations, strings, backtraces := t.backtraces.set b ⟨ids, none⟩ }
      reply t (.releasedCounts t.tableCounts)
    | _ => refuse t (.noBacktrace b)
  | .refsOf b =>
    match t.backtraces[b]? with
    | some held =>
      reply t (.refs (held.ids.map fun ids =>
        (t.locations.locationCount? ids.1, t.locations.functionCount? ids.2)))
    | none => refuse t (.noBacktrace b)
  | .counts => reply t (.counts t.tableCounts)
  | .record b fields =>
    match t.backtraces[b]? with
    | some ⟨ids, some bt⟩ =>
      let t := { t with backtraces := t.backtraces.set b ⟨ids, none⟩ }
      match fields with
      | .error m => refuse t m
      | .ok (handle, size) =>
        reply { t with records := t.records ++ [some (SampleRecord.new bt handle size)] }
          (.record t.records.length)
    | _ => refuse t (.noBacktrace b)
  | .resize i updates =>
    match slot? t.records i with
    | none => refuse t (.recordMissing i)
    | some r =>
      let (r, stopped) := applyUpdates r updates
      let t := { t with records := t.records.set i (some r) }
      match stopped with
      | some m => refuse t m
      | none => reply t (.resized r)
  | .dropRecord i =>
    match slot? t.records i with
    | none => refuse t .noRecord
    | some r => do
      let (locations, strings) ← t.locations.release t.strings r.backtrace
      let t := { t with locations, strings, records := t.records.set i none }
      reply t (.releasedCounts t.tableCounts)
  | .context snap =>
    match slot? t.snapshots snap with
    | none => refuse t .noSnapshot
    | some ix =>
      let t := { t with snapshots := t.snapshots.set snap none }
      match ProfileBuilder.new ix t.strings.vocabulary t.clock with
      | .ok b => reply { t with contexts := t.contexts ++ [b] } (.context t.contexts.length)
      | .error e => reply t (.contextRefused e)
  | .addSample c i kind =>
    let found : Except Misuse (SampleRecord × Nat × ProfileBuilder) := do
      let r ← present .noRecord (slot? t.records (← i))
      let c ← c
      let b ← present .noContext t.contexts[c]?
      pure (r, c, b)
    match found with
    | .error m => refuse t m
    | .ok (r, c, b) =>
      let (b, err) := b.addSample r kind
      reply { t with contexts := t.contexts.set c b } (.added b.sampleCount err)
  | .serialize c =>
    match t.contexts[c]? with
    | none => refuse t .noContext
    | some b => reply t (.profile b.profile)

end TablesBench

/-!
### The container benches

Two benches, one for the allocation ledger and one for the heap index. Each numbers the
records it makes from `0`; a record is never given up. The ledger bench's records are known by
number only. The heap index bench keeps each record's handle, which relocation updates.
-/

/-- One step of the ledger bench. -/
inductive LedgerStep where
  /-- Pushes a new record, or again a record made before. -/
  | push (again : Option Nat)
  /-- Removes the first occurrence of a record. -/
  | unlink (r : Nat)
  /-- Whether the ledger holds a record. -/
  | contains (r : Nat)
  /-- Takes all records out. -/
  | detach
  /-- Sets the capacity. -/
  | setCapacity (n : Nat)
  /-- The number of times the ledger holds a record. -/
  | owners (r : Nat)
  /-- Shows the ledger. -/
  | show

/-- The answer to a step of the ledger bench. -/
inductive LedgerReply where
  /-- The record pushed, and whether the push was taken. -/
  | pushed (r : Nat) (taken : Bool)
  /-- The record removed, if any. -/
  | removed (r : Option Nat)
  /-- Whether the ledger holds the record. -/
  | contains (held : Bool)
  /-- The records taken out, the most recent first. -/
  | detached (rs : List Nat)
  /-- The number of times the ledger holds the record. -/
  | owners (n : Nat)
  /-- Nothing to report but the ledger. -/
  | done

/-- The state of the ledger bench. -/
structure LedgerBench where
  /-- The ledger. -/
  ledger : Ledger
  /-- The number of records made. -/
  made : Nat := 0

namespace LedgerBench

/-- Runs one step. -/
def step (b : LedgerBench) : LedgerStep → Except Misuse (LedgerBench × LedgerReply)
  | .push again =>
    match again with
    | some r => if r < b.made then pushOne b r else .error .noRecord
    | none => pushOne { b with made := b.made + 1 } b.made
  | .unlink r =>
    if r < b.made then
      let (ledger, removed) := b.ledger.unlink r
      .ok ({ b with ledger }, .removed removed)
    else .error .noRecord
  | .contains r => if r < b.made then .ok (b, .contains (b.ledger.contains r)) else .error .noRecord
  | .detach =>
    let (ledger, rs) := b.ledger.detach
    .ok ({ b with ledger }, .detached rs)
  | .setCapacity n => .ok ({ b with ledger := b.ledger.setCapacity n }, .done)
  | .owners r => if r < b.made then .ok (b, .owners (b.ledger.records.count r)) else .error .noRecord
  | .show => .ok (b, .done)
where
  /-- Pushes record `r`. -/
  pushOne (b : LedgerBench) (r : Nat) : Except Misuse (LedgerBench × LedgerReply) :=
    match b.ledger.push r with
    | .ok ledger => .ok ({ b with ledger }, .pushed r true)
    | .error _ => .ok (b, .pushed r false)

end LedgerBench

/-- The handle remapping of a list of moves `(old, new)`: a handle moves to the target of its
last move, and a handle with no move stays. -/
def remapOf (moves : List (UInt64 × UInt64)) (h : UInt64) : UInt64 :=
  match moves.reverse.find? (·.1 == h) with
  | some m => m.2
  | none => h

/-- One step of the heap index bench. -/
inductive HeapStep where
  /-- Puts a record under a handle: a record made before, or a new one with the given handle. -/
  | insert (h : UInt64) (existing : Option Nat) (recordHandle : UInt64)
  /-- Removes the entry under a handle. -/
  | remove (h : UInt64)
  /-- Removes the entry under a handle if it holds the record. -/
  | removeIfSame (h : UInt64) (r : Nat)
  /-- The record under a handle. -/
  | get (h : UInt64)
  /-- Moves entries by a list of moves. -/
  | relocate (moves : List (UInt64 × UInt64))
  /-- Takes all entries out. -/
  | drain
  /-- Sets the capacity. -/
  | setCapacity (n : Nat)
  /-- Shows the index. -/
  | show

/-- The answer to a step of the heap index bench. -/
inductive HeapReply where
  /-- The record put in and the one it replaced. -/
  | inserted (r : Nat) (previous : Option Nat)
  /-- The record removed, if any. -/
  | removed (r : Option Nat)
  /-- The record found, if any. -/
  | got (r : Option Nat)
  /-- The records displaced by a relocation. -/
  | displaced (rs : List Nat)
  /-- The records taken out. -/
  | drained (rs : List Nat)
  /-- Nothing to report but the index. -/
  | done

/-- The state of the heap index bench. -/
structure HeapBench where
  /-- The index. -/
  index : HeapIndex
  /-- The handle of each record made. -/
  handles : List UInt64 := []

namespace HeapBench

/-- Runs one step. -/
def step (b : HeapBench) : HeapStep → Except Misuse (HeapBench × HeapReply)
  | .insert h existing recordHandle =>
    match existing with
    | some r =>
      if r < b.handles.length then
        let (index, previous) := b.index.insert h r
        .ok ({ b with index }, .inserted r previous)
      else .error .noRecord
    | none =>
      let r := b.handles.length
      let (index, previous) := b.index.insert h r
      .ok ({ index, handles := b.handles ++ [recordHandle] }, .inserted r previous)
  | .remove h =>
    let (index, removed) := b.index.remove h
    .ok ({ b with index }, .removed removed)
  | .removeIfSame h r =>
    if r < b.handles.length then
      let (index, removed) := b.index.removeIfSame h r
      .ok ({ b with index }, .removed removed)
    else .error .noRecord
  | .get h => .ok (b, .got (b.index.get? h))
  | .relocate moves =>
    let (index, displaced, moved) := b.index.relocate (remapOf moves)
    let handles := moved.foldl (fun hs m => hs.set m.2 m.1) b.handles
    .ok ({ index, handles }, .displaced displaced)
  | .drain =>
    let (index, rs) := b.index.drain
    .ok ({ b with index }, .drained rs)
  | .setCapacity n => .ok ({ b with index := b.index.setCapacity n }, .done)
  | .show => .ok (b, .done)

end HeapBench

/-!
### The fork bench

A bench for the fork registry and re-entrant locks, run by one thread, thread `0`. It numbers
the locks and the registrations it makes from `0`, and keeps the guards it holds, the newest
first. A step that would wait for the registry the bench itself has taken is refused, as is a
release of a registry that is not taken. After `releaseChild` the guards are forgotten: in a
child process they belong to no one.
-/

/-- One step of the fork bench. -/
inductive ForkStep where
  /-- Makes a free lock. -/
  | newLock
  /-- Registers a lock. -/
  | register (lock : Nat)
  /-- Drops a registration. -/
  | unregister (reg : Nat)
  /-- The number of registrations. -/
  | size
  /-- Takes the registry and the registered locks, as before a fork. -/
  | prepare
  /-- Gives them back, as in the parent after a fork. -/
  | releaseParent
  /-- Frees the registered locks and gives the registry back, as in the child after a fork. -/
  | releaseChild
  /-- Takes a lock and keeps a guard. -/
  | lock (lock : Nat)
  /-- Tries to take a lock; keeps a guard if it was taken. -/
  | tryLock (lock : Nat)
  /-- Drops the newest guard on a lock. -/
  | unlock (lock : Nat)
  /-- Shows the locks. -/
  | show

/-- The answer to a step of the fork bench. -/
inductive ForkReply where
  /-- A new lock. -/
  | lock (n : Nat)
  /-- A new registration. -/
  | registered (reg : Nat)
  /-- The number of registrations. -/
  | size (n : Nat)
  /-- Whether the lock was taken. -/
  | acquired (taken : Bool)
  /-- Nothing to report but the locks. -/
  | done

/-- The state of the fork bench. -/
structure ForkBench where
  /-- The registry. -/
  registry : ForkRegistry := {}
  /-- The locks. -/
  locks : List LockState := []
  /-- The registration id of each registration made, `none` once dropped. -/
  registrations : List (Option Nat) := []
  /-- The locks on which the bench holds a guard, the newest first. -/
  guards : List Nat := []

namespace ForkBench

/-- The thread the bench runs on. -/
def self : ThreadId := 0

/-- Another thread could take the lock at once. -/
def elsewhere (s : LockState) : Bool := (s.acquire (self + 1)).isSome

/-- Runs one step. -/
def step (b : ForkBench) : ForkStep → Except Misuse (ForkBench × ForkReply)
  | .newLock => .ok ({ b with locks := b.locks ++ [.free] }, .lock b.locks.length)
  | .register l =>
    if b.registry.taken then .error (.wouldDeadlock "register")
    else if l < b.locks.length then
      match b.registry.register l with
      | some (registry, id) =>
        .ok ({ b with registry, registrations := b.registrations ++ [some id] },
          .registered b.registrations.length)
      | none => .error (.wouldDeadlock "register")
    else .error (.noLock l)
  | .unregister g =>
    if b.registry.taken then .error (.wouldDeadlock "unregister")
    else match slot? b.registrations g with
      | some id =>
        match b.registry.unregister id with
        | some registry =>
          .ok ({ b with registry, registrations := b.registrations.set g none }, .done)
        | none => .error (.wouldDeadlock "unregister")
      | none => .error .noRegistration
  | .size =>
    match b.registry.size? with
    | some n => .ok (b, .size n)
    | none => .error (.wouldDeadlock "len")
  | .prepare =>
    if b.registry.taken then .error .alreadyPrepared
    else match b.registry.prepare self b.locks with
      | some (registry, locks) => .ok ({ b with registry, locks }, .done)
      | none => .error (.wouldDeadlock "prepare")
  | .releaseParent =>
    match b.registry.releaseParent b.locks with
    | some (registry, locks) => .ok ({ b with registry, locks }, .done)
    | none => .error .notPrepared
  | .releaseChild =>
    match b.registry.releaseChild b.locks with
    | some (registry, locks) => .ok ({ b with registry, locks, guards := [] }, .done)
    | none => .error .notPrepared
  | .lock l =>
    match b.locks[l]? with
    | none => .error (.noLock l)
    | some s => match s.acquire self with
      | some s => .ok ({ b with locks := b.locks.set l s, guards := l :: b.guards }, .done)
      | none => .error (.wouldDeadlock "lock")
  | .tryLock l =>
    match b.locks[l]? with
    | none => .error (.noLock l)
    | some s => match s.acquire self with
      | some s => .ok ({ b with locks := b.locks.set l s, guards := l :: b.guards }, .acquired true)
      | none => .ok (b, .acquired false)
  | .unlock l =>
    match b.locks[l]? with
    | none => .error (.noLock l)
    | some s =>
      if l ∈ b.guards then
        .ok ({ b with locks := b.locks.set l s.release, guards := b.guards.erase l }, .done)
      else .error .notHeld
  | .show => .ok (b, .done)

end ForkBench

end HeapSampler.Bench
