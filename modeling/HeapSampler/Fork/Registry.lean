/-!
# The fork registry

A process that forks while another thread holds a collector's lock leaves the child with a lock
that nobody will give back. Every collector therefore registers its lock, and around a fork the
registry takes them all: `prepare` takes the registry itself and then every registered lock
once per registration, on the forking thread; in the parent `releaseParent` gives those holds
back, and in the child `releaseChild` makes every registered lock new again, since the threads
that held them do not exist there. Both give the registry back.

While the registry is taken, registering, unregistering and counting wait for it; here that is
a refused operation.

The collector's lock is a re-entrant mutex from a library outside this one. It is known here by
its documented behaviour only: the operations form the class `ReentrantLock` and the promises
about them the structure `ReentrantLock.Laws`, and the registry is written for any such lock.
`LockState` is one lock that keeps those promises, the one the benches run.

## Main definitions

* `ThreadId`, `ReentrantLock`, `ReentrantLock.Laws`.
* `LockState` and its `ReentrantLock` instance.
* `ForkRegistry`, with `register`, `unregister`, `size?`, `prepare`, `releaseParent`,
  `releaseChild`.
-/

namespace HeapSampler

/-- A thread, by number. -/
abbrev ThreadId := Nat

/-! ### Re-entrant locks -/

/-- The operations of a re-entrant lock: the thread that holds it may take it again, and it is
free once every hold is given back. -/
class ReentrantLock (L : Type) where
  /-- A new lock (`INIT`). -/
  init : L
  /-- One more hold for a thread (`lock`, or a `try_lock` that succeeds); `none` when the thread
  would have to wait (a `try_lock` that fails). -/
  acquire : ThreadId → L → Option L
  /-- One hold given back by the thread that holds the lock (`unlock`). -/
  release : L → L
  /-- The thread that holds the lock, if any. -/
  owner : L → Option ThreadId
  /-- How many holds the owner has, its recursion count. -/
  holds : L → Nat

namespace ReentrantLock

/-- What the lock promises: a new lock is unlocked; a thread waits exactly while another thread
holds the lock; a granted hold makes the thread the owner with one hold more; and giving a hold
back undoes the last one granted. -/
structure Laws (L : Type) [ReentrantLock L] : Prop where
  /-- Nobody holds a new lock. -/
  owner_init : owner (init : L) = none
  /-- A new lock has no holds. -/
  holds_init : holds (init : L) = 0
  /-- A thread waits exactly while another thread holds the lock. -/
  acquire_eq_none_iff : ∀ (t : ThreadId) (l : L), acquire t l = none ↔ ∃ o, owner l = some o ∧ o ≠ t
  /-- A granted hold makes the thread the owner. -/
  owner_acquire : ∀ {t : ThreadId} {l l' : L}, acquire t l = some l' → owner l' = some t
  /-- A granted hold adds one to the count. -/
  holds_acquire : ∀ {t : ThreadId} {l l' : L}, acquire t l = some l' → holds l' = holds l + 1
  /-- Giving a hold back undoes the last one granted. -/
  release_acquire : ∀ {t : ThreadId} {l l' : L}, acquire t l = some l' → release l' = l

end ReentrantLock

/-- The state of a re-entrant lock. A held lock is held at least once. -/
inductive LockState where
  /-- Nobody holds it. -/
  | free
  /-- One thread holds it, `more + 1` times. -/
  | held (owner : ThreadId) (more : Nat)
  deriving DecidableEq, Repr

namespace LockState

/-- One more hold by a thread: granted on a free lock or to its holder, `none` when another
thread holds it. -/
def acquire (t : ThreadId) : LockState → Option LockState
  | .free => some (.held t 0)
  | .held owner n => if owner = t then some (.held owner (n + 1)) else none

/-- One hold given back; the last one frees the lock. -/
def release : LockState → LockState
  | .free => .free
  | .held _ 0 => .free
  | .held owner (n + 1) => .held owner n

/-- The thread that holds the lock. -/
def owner : LockState → Option ThreadId
  | .free => none
  | .held owner _ => some owner

/-- The number of holds. -/
def holds : LockState → Nat
  | .free => 0
  | .held _ n => n + 1

/-- Some thread holds the lock. -/
def isLocked : LockState → Bool
  | .free => false
  | .held .. => true

/-- The thread holds the lock. -/
def isHeldBy (t : ThreadId) : LockState → Bool
  | .free => false
  | .held owner _ => owner == t

end LockState

instance : ReentrantLock LockState where
  init := .free
  acquire := LockState.acquire
  release := LockState.release
  owner := LockState.owner
  holds := LockState.holds

/-! ### The registry -/

/-- One registration of a lock. -/
structure Registration where
  /-- The registration's id, unique in its registry. -/
  id : Nat
  /-- The lock, by number. -/
  lock : Nat
  deriving DecidableEq, Repr

/-- The registered locks, and whether a fork is under way. -/
structure ForkRegistry where
  /-- The registrations, oldest first. -/
  entries : List Registration := []
  /-- The id of the next registration. -/
  nextId : Nat := 1
  /-- The registry is taken by `prepare` and not yet given back. -/
  taken : Bool := false
  deriving DecidableEq, Repr

namespace ForkRegistry

variable {L : Type} [ReentrantLock L]

/-- Registers a lock; `none` while the registry is taken. -/
def register (r : ForkRegistry) (lock : Nat) : Option (ForkRegistry × Nat) :=
  if r.taken then none
  else some ({ r with entries := r.entries ++ [⟨r.nextId, lock⟩], nextId := r.nextId + 1 }, r.nextId)

/-- Drops a registration; `none` while the registry is taken. -/
def unregister (r : ForkRegistry) (id : Nat) : Option ForkRegistry :=
  if r.taken then none else some { r with entries := r.entries.filter (·.id != id) }

/-- The number of registrations; `none` while the registry is taken. -/
def size? (r : ForkRegistry) : Option Nat :=
  if r.taken then none else some r.entries.length

/-- Applies `f` to the lock numbered `n`. -/
def updateLock (locks : List L) (n : Nat) (f : L → L) : List L :=
  match locks[n]? with
  | some s => locks.set n (f s)
  | none => locks

/-- Takes every registered lock once per registration, in order, on thread `t`; `none` if
one of them is held by another thread. -/
def takeAll (t : ThreadId) (locks : List L) : List Registration → Option (List L)
  | [] => some locks
  | e :: es =>
    match locks[e.lock]? with
    | none => takeAll t locks es
    | some s => match ReentrantLock.acquire t s with
      | some s' => takeAll t (locks.set e.lock s') es
      | none => none

/-- Takes the registry and then every registered lock on thread `t`; `none` while the registry
is taken or a lock is held by another thread. -/
def prepare (r : ForkRegistry) (t : ThreadId) (locks : List L) : Option (ForkRegistry × List L) :=
  if r.taken then none
  else (takeAll t locks r.entries).map fun locks => ({ r with taken := true }, locks)

/-- In the parent after a fork: gives back one hold per registration and then the registry;
`none` when the registry is not taken. -/
def releaseParent (r : ForkRegistry) (locks : List L) : Option (ForkRegistry × List L) :=
  if r.taken then
    some ({ r with taken := false },
      r.entries.foldl (fun ls e => updateLock ls e.lock ReentrantLock.release) locks)
  else none

/-- In the child after a fork: every registered lock is made new, then the registry is given
back; `none` when the registry is not taken. -/
def releaseChild (r : ForkRegistry) (locks : List L) : Option (ForkRegistry × List L) :=
  if r.taken then
    some ({ r with taken := false },
      r.entries.foldl (fun ls e => updateLock ls e.lock fun _ => ReentrantLock.init) locks)
  else none

end ForkRegistry

end HeapSampler
