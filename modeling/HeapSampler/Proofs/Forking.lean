import HeapSampler.Fork.Registry
import Mathlib.Data.List.Nodup
import Mathlib.Logic.Function.Iterate

/-!
# Forking with registered locks

Around a fork the registry takes every registered lock once per registration on the forking
thread, and afterwards gives those holds back (in the parent) or makes the locks new (in the
child). This file proves that the holds balance, for any lock that keeps the promises of
`ReentrantLock.Laws`: after `prepare` each registered lock is held by the forking thread with
its count raised by the number of its registrations; `releaseParent` then gives back exactly
what `prepare` took, so every lock and the registry are as they were, while `releaseChild`
leaves every registered lock unlocked and open to every thread, whoever held it before.

Taking the locks one registration at a time is a fold that may stop; it does not stop exactly when
no registered lock is held by another thread, and then it is the fold of
`ReentrantLock.grant`, one more hold granted (`ForkRegistry.takeAll_eq_some_iff`).  Both release
handlers are folds of one change per registration, so each lock sees that change iterated as
many times as it is registered (`ForkRegistry.foldl_updateLock_getElem?`).  A hold given back
undoes the one granted, so `k` holds given back undo `k` granted
(`ReentrantLock.Laws.release_iterate_grant`).

## Main definitions

* `ReentrantLock.OpenTo`, `ReentrantLock.grant`.
* `LockState.laws` — the bench's lock keeps the promises.
* `ForkRegistry.registrations` — how often a lock is registered.
* `ForkRegistry.Reachable` — the registry and the locks after any steps of any threads.

## Main results

* `ForkRegistry.prepare_isSome_iff` — when `prepare` completes.
* `ForkRegistry.prepare_getElem?` — what it leaves each lock.
* `ForkRegistry.releaseParent_prepare`, `ForkRegistry.releaseChild_prepare`.
* `ForkRegistry.unregister_erase` — dropping a registration removes that one only.
* `ForkRegistry.fork_restores_locks` — the whole protocol, for every reachable state.
-/

namespace HeapSampler

namespace ReentrantLock

variable {L : Type} [ReentrantLock L]

/-- A thread may take the lock at once: no other thread holds it. -/
def OpenTo (t : ThreadId) (l : L) : Prop := ∀ o, owner l = some o → o = t

/-- One more hold for thread `t`, on a lock open to it; a lock held elsewhere is left alone. -/
def grant (t : ThreadId) (l : L) : L := (acquire t l).getD l

namespace Laws

variable (hL : Laws L) {t : ThreadId} {l : L}
include hL

theorem acquire_isSome_iff : (acquire t l).isSome ↔ OpenTo t l := by
  rw [Option.isSome_iff_ne_none, ne_eq, hL.acquire_eq_none_iff]
  simp [OpenTo]

/-- A lock open to the thread is granted one more hold. -/
theorem acquire_eq_grant (h : OpenTo t l) : acquire t l = some (grant t l) := by
  obtain ⟨l', hl'⟩ := Option.isSome_iff_exists.1 ((hL.acquire_isSome_iff).2 h)
  rw [grant, hl', Option.getD_some]

theorem owner_grant (h : OpenTo t l) : owner (grant t l) = some t :=
  hL.owner_acquire (hL.acquire_eq_grant h)

theorem openTo_grant (h : OpenTo t l) : OpenTo t (grant t l) := fun o ho => by
  rw [hL.owner_grant h, Option.some.injEq] at ho
  exact ho.symm

/-- Holds granted one after another stay open to the thread. -/
theorem openTo_grant_iterate (h : OpenTo t l) (k : Nat) : OpenTo t ((grant t)^[k] l) := by
  induction k with
  | zero => exact h
  | succ k ih =>
    rw [Function.iterate_succ_apply']
    exact hL.openTo_grant ih

/-- After `k > 0` holds granted the thread owns the lock. -/
theorem owner_grant_iterate (h : OpenTo t l) {k : Nat} (hk : 0 < k) :
    owner ((grant t)^[k] l) = some t := by
  obtain ⟨j, rfl⟩ := Nat.exists_eq_succ_of_ne_zero (Nat.pos_iff_ne_zero.1 hk)
  rw [Function.iterate_succ_apply']
  exact hL.owner_grant (hL.openTo_grant_iterate h j)

/-- `k` holds granted raise the count by `k`. -/
theorem holds_grant_iterate (h : OpenTo t l) (k : Nat) :
    holds ((grant t)^[k] l) = holds l + k := by
  induction k with
  | zero => rfl
  | succ k ih =>
    rw [Function.iterate_succ_apply',
      hL.holds_acquire (hL.acquire_eq_grant (hL.openTo_grant_iterate h k)), ih, Nat.add_assoc]

/-- Giving back `k` holds that were just granted. -/
theorem release_iterate_grant (h : OpenTo t l) (k : Nat) : release^[k] ((grant t)^[k] l) = l := by
  induction k with
  | zero => rfl
  | succ k ih =>
    -- Peel the last grant off the inside and the first release off the outside.
    rw [Function.iterate_succ_apply, Function.iterate_succ_apply',
      hL.release_acquire (hL.acquire_eq_grant (hL.openTo_grant_iterate h k))]
    exact ih

/-- A new lock is open to every thread. -/
theorem openTo_init (t : ThreadId) : OpenTo t (init : L) := fun o ho => by
  rw [hL.owner_init] at ho
  cases ho

end Laws

end ReentrantLock

/-! ### The bench's lock -/

namespace LockState

variable {t : ThreadId} {l l' : LockState}

theorem acquire_eq_none_iff : l.acquire t = none ↔ ∃ o, l.owner = some o ∧ o ≠ t := by
  cases l with
  | free => simp [acquire, owner]
  | held o n =>
    by_cases h : o = t
    · simp [acquire, owner, h]
    · simp [acquire, owner, h]

theorem acquire_cases (h : l.acquire t = some l') :
    (l = .free ∧ l' = .held t 0) ∨ ∃ n, l = .held t n ∧ l' = .held t (n + 1) := by
  cases l with
  | free =>
    cases h
    exact .inl ⟨rfl, rfl⟩
  | held o n =>
    simp only [acquire] at h
    split at h
    · rename_i ho
      cases h
      exact .inr ⟨n, by rw [ho], by rw [ho]⟩
    · cases h

/-- The bench's lock keeps every promise of a re-entrant lock. -/
theorem laws : ReentrantLock.Laws LockState where
  owner_init := rfl
  holds_init := rfl
  acquire_eq_none_iff _ _ := acquire_eq_none_iff
  owner_acquire h := by
    rcases acquire_cases h with ⟨-, rfl⟩ | ⟨n, -, rfl⟩ <;> rfl
  holds_acquire h := by
    rcases acquire_cases h with ⟨rfl, rfl⟩ | ⟨n, rfl, rfl⟩ <;> rfl
  release_acquire h := by
    rcases acquire_cases h with ⟨rfl, rfl⟩ | ⟨n, rfl, rfl⟩ <;> rfl

end LockState

namespace ForkRegistry

open ReentrantLock

variable {L : Type}

/-! ### Taking and giving back one lock per registration -/

theorem updateLock_getElem? (locks : List L) (n m : Nat) (f : L → L) :
    (updateLock locks n f)[m]? = if m = n then locks[m]?.map f else locks[m]? := by
  unfold updateLock
  by_cases hm : m = n
  · subst hm
    cases h : locks[m]? with
    | none => simp [h]
    | some s =>
      have hn : m < locks.length := (List.getElem?_eq_some_iff.1 h).1
      simp [hn]
  · cases locks[n]? <;> simp [hm, Ne.symm hm]

/-- A fold of one change per registration changes each lock as often as it is registered. -/
theorem foldl_updateLock_getElem? (f : L → L) (es : List Registration) (locks : List L) (n : Nat) :
    (es.foldl (fun ls e => updateLock ls e.lock f) locks)[n]? =
      locks[n]?.map (f^[(es.map (·.lock)).count n]) := by
  induction es generalizing locks with
  | nil => simp
  | cons e es ih =>
    rw [List.foldl_cons, ih, updateLock_getElem?, List.map_cons, List.count_cons]
    by_cases h : n = e.lock
    · subst h
      cases locks[e.lock]? <;> simp
    · have : (e.lock == n) = false := by simpa using Ne.symm h
      simp [h, this]

theorem getElem?_set_of_getElem? {locks : List L} {n : Nat} {s : L}
    (h : locks[n]? = some s) (s' : L) (m : Nat) :
    (locks.set n s')[m]? = if m = n then some s' else locks[m]? := by
  have hn : n < locks.length := (List.getElem?_eq_some_iff.1 h).1
  rw [List.getElem?_set]
  by_cases hm : m = n
  · subst hm
    simp [hn]
  · simp [Ne.symm hm, hm]

variable [ReentrantLock L]

section Laws

variable (hL : Laws L)
include hL

/-- Granting `t` a lock open to it leaves each lock open to `t` exactly when it was. -/
theorem openTo_set_grant {t : ThreadId} {locks : List L} {n : Nat} {s : L}
    (hs : locks[n]? = some s) (ho : OpenTo t s) (m : Nat) :
    (∀ s', (locks.set n (grant t s))[m]? = some s' → OpenTo t s') ↔
      ∀ s', locks[m]? = some s' → OpenTo t s' := by
  rw [getElem?_set_of_getElem? hs]
  by_cases h : m = n
  · rw [if_pos h, h, hs]
    constructor
    · intro _ s' h'
      cases h'
      exact ho
    · intro _ s' h'
      cases h'
      exact hL.openTo_grant ho
  · rw [if_neg h]

/-- Taking every registered lock goes through exactly when no other thread holds one of them,
and then grants one hold per registration. -/
theorem takeAll_eq_some_iff (t : ThreadId) (locks : List L) (es : List Registration)
    (locks' : List L) :
    takeAll t locks es = some locks' ↔ (∀ e ∈ es, ∀ s, locks[e.lock]? = some s → OpenTo t s) ∧
      locks' = es.foldl (fun ls e => updateLock ls e.lock (grant t)) locks := by
  induction es generalizing locks with
  | nil => simp [takeAll, eq_comm]
  | cons e es ih =>
    rw [List.forall_mem_cons, List.foldl_cons]
    cases hs : locks[e.lock]? with
    | none =>
      have hu : updateLock locks e.lock (grant t) = locks := by
        simp [updateLock, hs]
      have ht : takeAll t locks (e :: es) = takeAll t locks es := by
        simp [takeAll, hs]
      rw [ht, ih, hu]
      simp
    | some s =>
      by_cases ho : OpenTo t s
      · -- The lock is granted, and stays open to `t` for its later registrations.
        have hopen : (∀ e' ∈ es, ∀ s', (locks.set e.lock (grant t s))[e'.lock]? = some s' →
            OpenTo t s') ↔ ∀ e' ∈ es, ∀ s', locks[e'.lock]? = some s' → OpenTo t s' :=
          forall₂_congr fun e' _ => openTo_set_grant hL hs ho e'.lock
        have hu : updateLock locks e.lock (grant t) = locks.set e.lock (grant t s) := by
          simp [updateLock, hs]
        have ht : takeAll t locks (e :: es) = takeAll t (locks.set e.lock (grant t s)) es := by
          simp [takeAll, hs, hL.acquire_eq_grant ho]
        rw [ht, ih, hopen, hu]
        simp [ho]
      · have hn : acquire t s = none := by
          rw [← Option.not_isSome_iff_eq_none, hL.acquire_isSome_iff]
          exact ho
        have ht : takeAll t locks (e :: es) = none := by
          simp [takeAll, hs, hn]
        rw [ht]
        simp only [reduceCtorEq, false_iff, not_and]
        exact fun h => absurd (h.1 s rfl) ho

end Laws

/-- How often a lock is registered. -/
def registrations (r : ForkRegistry) (n : Nat) : Nat := (r.entries.map (·.lock)).count n

/-- Some registration names the lock. -/
theorem exists_of_registrations_pos {r : ForkRegistry} {n : Nat} (h : 0 < r.registrations n) :
    ∃ e ∈ r.entries, e.lock = n := by
  obtain ⟨m, hm, rfl⟩ := List.mem_map.1 (List.count_pos_iff.1 h)
  exact ⟨m, hm, rfl⟩

/-! ### Prepare and the two releases -/

section Laws

variable (hL : Laws L)
include hL

variable {r r₁ : ForkRegistry} {t : ThreadId} {locks locks₁ : List L}

theorem prepare_eq_some_iff :
    r.prepare t locks = some (r₁, locks₁) ↔
      r.taken = false ∧ (∀ (n : Nat) (s : L), locks[n]? = some s → 0 < r.registrations n → OpenTo t s) ∧
      r₁ = { r with taken := true } ∧
      locks₁ = r.entries.foldl (fun ls e => updateLock ls e.lock (grant t)) locks := by
  -- A lock is registered exactly when a registration names it.
  have hreg : (∀ e ∈ r.entries, ∀ s, locks[e.lock]? = some s → OpenTo t s) ↔
      ∀ (n : Nat) (s : L), locks[n]? = some s → 0 < r.registrations n → OpenTo t s := by
    constructor
    · intro h n s hs hpos
      obtain ⟨e, he, rfl⟩ := exists_of_registrations_pos hpos
      exact h e he s hs
    · intro h e he s hs
      exact h e.lock s hs (List.count_pos_iff.2 (List.mem_map_of_mem he))
  unfold prepare
  cases r.taken with
  | true => simp
  | false =>
    rw [if_neg Bool.false_ne_true, Option.map_eq_some_iff]
    constructor
    · rintro ⟨ls, hls, he⟩
      obtain ⟨hall, rfl⟩ := (takeAll_eq_some_iff hL t locks r.entries ls).1 hls
      cases he
      exact ⟨rfl, hreg.1 hall, rfl, rfl⟩
    · rintro ⟨-, hall, rfl, rfl⟩
      exact ⟨_, (takeAll_eq_some_iff hL t locks r.entries _).2 ⟨hreg.2 hall, rfl⟩, rfl⟩

/-- `prepare` completes exactly when the registry is not taken and no other thread holds a
registered lock. -/
theorem prepare_isSome_iff (r : ForkRegistry) (t : ThreadId) (locks : List L) :
    (r.prepare t locks).isSome ↔
      r.taken = false ∧ ∀ (n : Nat) (s : L), locks[n]? = some s → 0 < r.registrations n → OpenTo t s := by
  constructor
  · intro h
    obtain ⟨⟨r₁, locks₁⟩, hp⟩ := Option.isSome_iff_exists.1 h
    obtain ⟨hfree, hopen, -⟩ := (prepare_eq_some_iff hL).1 hp
    exact ⟨hfree, hopen⟩
  · rintro ⟨hfree, hopen⟩
    rw [(prepare_eq_some_iff hL).2 ⟨hfree, hopen, rfl, rfl⟩]
    rfl

theorem prepare_eq_some (hp : r.prepare t locks = some (r₁, locks₁)) :
    r.taken = false ∧ r₁ = { r with taken := true } ∧
      (∀ (n : Nat) (s : L), locks[n]? = some s → 0 < r.registrations n → OpenTo t s) ∧
      locks₁ = r.entries.foldl (fun ls e => updateLock ls e.lock (grant t)) locks := by
  obtain ⟨hfree, hopen, h₁, h₂⟩ := (prepare_eq_some_iff hL).1 hp
  exact ⟨hfree, h₁, hopen, h₂⟩

/-- After `prepare`, each lock has been granted one hold per registration. -/
theorem prepare_getElem? (hp : r.prepare t locks = some (r₁, locks₁)) (n : Nat) :
    locks₁[n]? = locks[n]?.map (grant t)^[r.registrations n] := by
  obtain ⟨-, -, -, rfl⟩ := prepare_eq_some hL hp
  exact foldl_updateLock_getElem? _ _ _ n

/-- In the parent, giving back one hold per registration undoes `prepare`: the locks and the
registry are exactly as before. -/
theorem releaseParent_prepare (hp : r.prepare t locks = some (r₁, locks₁)) :
    r₁.releaseParent locks₁ = some (r, locks) := by
  obtain ⟨hfree, rfl, hopen, rfl⟩ := prepare_eq_some hL hp
  simp only [releaseParent, if_true, Option.some.injEq, Prod.mk.injEq]
  refine ⟨by cases r; simp_all, List.ext_getElem? fun n => ?_⟩
  rw [foldl_updateLock_getElem?, foldl_updateLock_getElem?, Option.map_map]
  cases hs : locks[n]? with
  | none => rfl
  | some s =>
    rw [Option.map_some, Option.some.injEq]
    by_cases hpos : 0 < r.registrations n
    · exact hL.release_iterate_grant (hopen n s hs hpos) _
    · change release^[r.registrations n] ((grant t)^[r.registrations n] s) = s
      rw [Nat.eq_zero_of_not_pos hpos]
      rfl

end Laws

/-- In the child, every registered lock is new, and the registry is given back unchanged. -/
theorem releaseChild_prepare (hL : Laws L) {r r₁ : ForkRegistry} {t : ThreadId}
    {locks locks₁ : List L} (hp : r.prepare t locks = some (r₁, locks₁)) :
    ∃ locks₂, r₁.releaseChild locks₁ = some (r, locks₂) ∧
      ∀ n, locks₂[n]? = if r.registrations n = 0 then locks[n]? else locks[n]?.map fun _ => init := by
  obtain ⟨hfree, rfl, -, rfl⟩ := prepare_eq_some hL hp
  refine ⟨_, by simp only [releaseChild, if_true]; congr; cases r; simp_all, fun n => ?_⟩
  rw [foldl_updateLock_getElem?, foldl_updateLock_getElem?, Option.map_map]
  unfold registrations
  split
  · rename_i h
    rw [h]
    cases locks[n]? <;> rfl
  · rename_i h
    obtain ⟨k, hk⟩ := Nat.exists_eq_succ_of_ne_zero h
    rw [hk]
    cases locks[n]? with
    | none => rfl
    | some v => exact congrArg some (Function.iterate_succ_apply' _ _ _)

/-! ### Registrations -/

/-- Dropping a registration removes the one entry with its id, when ids are unique: the other
entries stay, in order. -/
theorem unregister_erase {r r' : ForkRegistry} {id : Nat} (hn : (r.entries.map (·.id)).Nodup)
    (hu : r.unregister id = some r') :
    (∀ e ∈ r.entries, e.id = id → r'.entries = r.entries.erase e) ∧
      ((∀ e ∈ r.entries, e.id ≠ id) → r'.entries = r.entries) := by
  unfold unregister at hu
  split at hu
  · cases hu
  · cases hu
    refine ⟨fun e he hid => ?_, fun hnone => ?_⟩
    · rw [(hn.of_map _).erase_eq_filter]
      refine List.filter_congr fun x hx => ?_
      by_cases hxe : x = e
      · subst hxe
        simp [hid]
      · have : x.id ≠ id := fun h => hxe (List.inj_on_of_nodup_map hn hx he (h.trans hid.symm))
        rw [bne_iff_ne.2 this, bne_iff_ne.2 hxe]
    · exact List.filter_eq_self.2 fun x hx => by simpa using hnone x hx

/-! ### Every run of the threads -/

/-- The registry and the locks after any steps of any threads: making a lock, registering one,
dropping a registration, a thread taking a lock (`lock`, or a `try_lock` that succeeds) or giving
back a hold it has, and whole forks. -/
inductive Reachable : ForkRegistry → List L → Prop
  /-- No lock and no registration. -/
  | init : Reachable {} []
  /-- A new lock. -/
  | newLock {r : ForkRegistry} {locks : List L} :
      Reachable r locks → Reachable r (locks ++ [ReentrantLock.init])
  /-- A lock is registered. -/
  | register {r r' : ForkRegistry} {locks : List L} {n id : Nat} :
      Reachable r locks → n < locks.length → r.register n = some (r', id) → Reachable r' locks
  /-- A registration is dropped. -/
  | unregister {r r' : ForkRegistry} {locks : List L} {id : Nat} :
      Reachable r locks → r.unregister id = some r' → Reachable r' locks
  /-- A thread takes a lock. -/
  | acquire {r : ForkRegistry} {locks : List L} {n : Nat} {s s' : L} {t : ThreadId} :
      Reachable r locks → locks[n]? = some s → ReentrantLock.acquire t s = some s' →
        Reachable r (locks.set n s')
  /-- The thread that holds a lock gives back one hold. -/
  | release {r : ForkRegistry} {locks : List L} {n : Nat} {s : L} {t : ThreadId} :
      Reachable r locks → locks[n]? = some s → ReentrantLock.owner s = some t →
        Reachable r (locks.set n (ReentrantLock.release s))
  /-- A fork begins. -/
  | prepare {r r' : ForkRegistry} {locks locks' : List L} {t : ThreadId} :
      Reachable r locks → r.prepare t locks = some (r', locks') → Reachable r' locks'
  /-- A fork ends in the parent. -/
  | releaseParent {r r' : ForkRegistry} {locks locks' : List L} :
      Reachable r locks → r.releaseParent locks = some (r', locks') → Reachable r' locks'
  /-- A fork ends in the child. -/
  | releaseChild {r r' : ForkRegistry} {locks locks' : List L} :
      Reachable r locks → r.releaseChild locks = some (r', locks') → Reachable r' locks'

/-- What every run keeps: registration ids are unique and below the next one. -/
structure Sound (r : ForkRegistry) : Prop where
  /-- No two registrations share an id. -/
  ids_nodup : (r.entries.map (·.id)).Nodup
  /-- Every id was handed out before the next one. -/
  ids_lt : ∀ e ∈ r.entries, e.id < r.nextId

namespace Sound

variable {r r' : ForkRegistry}

theorem register (hs : Sound r) {n id : Nat} (h : r.register n = some (r', id)) : Sound r' := by
  unfold ForkRegistry.register at h
  split at h
  · cases h
  · cases h
    refine ⟨?_, fun e he => ?_⟩
    · rw [List.map_append, List.nodup_append]
      refine ⟨hs.ids_nodup, List.nodup_singleton _, fun a ha b hb hab => ?_⟩
      obtain ⟨e, he, rfl⟩ := List.mem_map.1 ha
      rw [List.map_singleton, List.mem_singleton] at hb
      exact Nat.ne_of_lt (hs.ids_lt e he) (hab.trans hb)
    · rcases List.mem_append.1 he with he | he
      · exact Nat.lt_succ_of_lt (hs.ids_lt e he)
      · rw [List.mem_singleton.1 he]
        exact Nat.lt_succ_self _

theorem unregister (hs : Sound r) {id : Nat} (h : r.unregister id = some r') : Sound r' := by
  unfold ForkRegistry.unregister at h
  split at h
  · cases h
  · cases h
    exact ⟨hs.ids_nodup.sublist (List.filter_sublist.map _),
      fun e he => hs.ids_lt e (List.mem_of_mem_filter he)⟩

/-- A fork takes and gives back the registry, and leaves its entries alone. -/
theorem of_taken (hs : Sound r) (b : Bool) : Sound { r with taken := b } :=
  ⟨hs.ids_nodup, hs.ids_lt⟩

theorem prepare (hs : Sound r) {t : ThreadId} {locks locks' : List L}
    (h : r.prepare t locks = some (r', locks')) : Sound r' := by
  unfold ForkRegistry.prepare at h
  split at h
  · cases h
  · obtain ⟨_, -, he⟩ := Option.map_eq_some_iff.1 h
    cases he
    exact hs.of_taken true

theorem releaseParent (hs : Sound r) {locks locks' : List L}
    (h : r.releaseParent locks = some (r', locks')) : Sound r' := by
  unfold ForkRegistry.releaseParent at h
  split at h
  · cases h
    exact hs.of_taken false
  · cases h

theorem releaseChild (hs : Sound r) {locks locks' : List L}
    (h : r.releaseChild locks = some (r', locks')) : Sound r' := by
  unfold ForkRegistry.releaseChild at h
  split at h
  · cases h
    exact hs.of_taken false
  · cases h

end Sound

theorem Reachable.sound {r : ForkRegistry} {locks : List L} (h : Reachable r locks) : Sound r := by
  induction h with
  | init => exact ⟨List.nodup_nil, fun _ h => by cases h⟩
  | newLock _ ih => exact ih
  | register _ _ h ih => exact ih.register h
  | unregister _ h ih => exact ih.unregister h
  | acquire _ _ _ ih => exact ih
  | release _ _ _ ih => exact ih
  | prepare _ h ih => exact ih.prepare h
  | releaseParent _ h ih => exact ih.releaseParent h
  | releaseChild _ h ih => exact ih.releaseChild h

/-- **Forking keeps the locks balanced.**  For any re-entrant lock that keeps its promises, in
every state the threads can reach, registration ids are unique and dropping one removes that
registration only.  A `prepare` on thread `t` completes exactly when the registry is free and no
other thread holds a registered lock; it takes the registry and leaves each registered lock
owned by `t`, its count raised by the number of its registrations.  `releaseParent` then
restores every lock and the registry exactly, while `releaseChild` leaves every registered lock
new (owned by nobody, with no holds, open to every thread), whoever held it, and gives the
registry back with the same entries. -/
theorem fork_restores_locks (hL : Laws L) {r : ForkRegistry} {locks : List L}
    (hr : Reachable r locks) :
    (r.entries.map (·.id)).Nodup ∧
    (∀ id r', r.unregister id = some r' →
      (∀ e ∈ r.entries, e.id = id → r'.entries = r.entries.erase e) ∧
      ((∀ e ∈ r.entries, e.id ≠ id) → r'.entries = r.entries)) ∧
    ∀ t, ((r.prepare t locks).isSome ↔
        r.taken = false ∧ ∀ (n : Nat) (s : L), locks[n]? = some s → 0 < r.registrations n → OpenTo t s) ∧
      ∀ r₁ locks₁, r.prepare t locks = some (r₁, locks₁) →
        r₁.taken = true ∧ r₁.entries = r.entries ∧
        (∀ (n : Nat) (s : L), locks[n]? = some s → 0 < r.registrations n →
          ∃ s₁, locks₁[n]? = some s₁ ∧ owner s₁ = some t ∧ holds s₁ = holds s + r.registrations n) ∧
        (∀ n, r.registrations n = 0 → locks₁[n]? = locks[n]?) ∧
        r₁.releaseParent locks₁ = some (r, locks) ∧
        ∃ locks₂, r₁.releaseChild locks₁ = some (r, locks₂) ∧
          (∀ (n : Nat) (s : L), locks[n]? = some s → 0 < r.registrations n →
            ∃ s₂, locks₂[n]? = some s₂ ∧ owner s₂ = none ∧ holds s₂ = 0 ∧
              ∀ t', OpenTo t' s₂) ∧
          (∀ n, r.registrations n = 0 → locks₂[n]? = locks[n]?) := by
  have hs := hr.sound
  refine ⟨hs.ids_nodup, fun id r' hu => unregister_erase hs.ids_nodup hu,
    fun t => ⟨prepare_isSome_iff hL r t locks, fun r₁ locks₁ hp => ?_⟩⟩
  obtain ⟨-, rfl, hopen, -⟩ := prepare_eq_some hL hp
  obtain ⟨locks₂, hc, hc'⟩ := releaseChild_prepare hL hp
  refine ⟨rfl, rfl, fun n s hn hpos => ?_, fun n h0 => ?_, releaseParent_prepare hL hp,
    locks₂, hc, fun n s hn hpos => ?_, fun n h0 => ?_⟩
  · -- Each registered lock was granted one hold per registration.
    refine ⟨_, by rw [prepare_getElem? hL hp, hn]; rfl, hL.owner_grant_iterate (hopen n s hn hpos) hpos,
      hL.holds_grant_iterate (hopen n s hn hpos) _⟩
  · rw [prepare_getElem? hL hp, h0]
    cases locks[n]? <;> rfl
  · rw [hc', if_neg (Nat.pos_iff_ne_zero.1 hpos), hn]
    exact ⟨init, rfl, hL.owner_init, hL.holds_init, hL.openTo_init⟩
  · rw [hc', if_pos h0]

/-- One bench lock, registered twice and held once by thread `0`: a fork on that thread takes it
twice more; in the parent it is held once again, and in the child it is free. -/
theorem fork_restores_twice_registered_lock :
    Reachable ⟨[⟨1, 0⟩, ⟨2, 0⟩], 3, false⟩ [LockState.held 0 0] ∧
      (⟨[⟨1, 0⟩, ⟨2, 0⟩], 3, false⟩ : ForkRegistry).prepare 0 [LockState.held 0 0] =
        some (⟨[⟨1, 0⟩, ⟨2, 0⟩], 3, true⟩, [.held 0 2]) ∧
      (⟨[⟨1, 0⟩, ⟨2, 0⟩], 3, true⟩ : ForkRegistry).releaseParent [LockState.held 0 2] =
        some (⟨[⟨1, 0⟩, ⟨2, 0⟩], 3, false⟩, [.held 0 0]) ∧
      (⟨[⟨1, 0⟩, ⟨2, 0⟩], 3, true⟩ : ForkRegistry).releaseChild [LockState.held 0 2] =
        some (⟨[⟨1, 0⟩, ⟨2, 0⟩], 3, false⟩, [.free]) :=
  have hr : Reachable ⟨[⟨1, 0⟩, ⟨2, 0⟩], 3, false⟩ [LockState.held 0 0] :=
    have h₁ : Reachable ⟨[⟨1, 0⟩], 2, false⟩ [LockState.free] :=
      .register (.newLock .init) (by decide) (rfl : ({} : ForkRegistry).register 0 = some (_, 1))
    have h₂ : Reachable ⟨[⟨1, 0⟩, ⟨2, 0⟩], 3, false⟩ [LockState.free] :=
      .register h₁ (by decide) (rfl : (⟨[⟨1, 0⟩], 2, false⟩ : ForkRegistry).register 0 = some (_, 2))
    .acquire (n := 0) (t := 0) h₂ rfl rfl
  ⟨hr, rfl, (((fork_restores_locks LockState.laws hr).2.2 0).2 _ _ rfl).2.2.2.2.1, rfl⟩

end ForkRegistry

end HeapSampler
