import Backplane.Suite.LockInvariant

/-!
# The session lock in every run

* `lockWork` : what the coroutine of a guard does, and what it has learned.
* `LockInv.exec` : its steps keep the invariant.
* `Unstruck` : while no cancellation meets an entry, every guard that is entered is left.
* `session_lock_exclusive`, `session_lock_sound` : the results.
-/

namespace Backplane

open Concur Prog

/-! ### What a coroutine does -/

/-- How far the coroutine of a guard has come. -/
inductive GuardStage
  | fresh
  | waiting (g : ℕ)
  /-- It has the local lock, and is still in `__aenter__`. -/
  | holding (g : ℕ)
  | inside (g : ℕ)
  | done

/-- A coroutine enters a guard, is inside once it has the lock, and leaves it. -/
def lockWork : Discipline LockAct GuardStage where
  ok q a := match a with
    | .enter _ => q = .fresh
    | .awaitLock g => q = .waiting g
    | .redisSet g | .sleep g | .entered g _ => q = .holding g
    | .bodyEnds g | .stopRenewer g | .cas g | .release g => q = .inside g
    | .cancelTask _ | .unfollowed => True
  ans _ _ := True
  next q a b := match a, b with
    | .enter _, (g, true) => .holding g
    | .enter _, (g, false) => .waiting g
    | .awaitLock g, true => .holding g
    | .awaitLock _, false => .done
    | .redisSet _, .cancelled => .done
    | .sleep _, false => .done
    | .entered g _, _ => .inside g
    | .release _, _ => .done
    | _, _ => q

theorem lockWork_acquireRedis (g polls : ℕ) :
    lockWork.Obeys (.holding g) (acquireRedis g polls) fun q r =>
      r = .cancelled ∨ q = .holding g := by
  induction polls with
  | zero => exact ⟨trivial, fun x _ => nomatch x⟩
  | succ polls ih =>
    refine Discipline.obeys_perform_bind.2 ⟨rfl, fun answer _ => ?_⟩
    cases answer with
    | set => exact .inr rfl
    | failed => exact .inr rfl
    | cancelled => exact .inl rfl
    | taken =>
      refine Discipline.obeys_perform_bind.2 ⟨rfl, fun slept _ => ?_⟩
      cases slept with
      | false => exact .inl rfl
      | true => exact ih

theorem lockWork_leaveGuard (g : ℕ) (token : Bool) :
    lockWork.Obeys (.inside g) (leaveGuard g token) fun _ _ => True := by
  cases token with
  | false => exact ⟨rfl, fun _ _ => trivial⟩
  | true => exact ⟨rfl, fun _ _ => ⟨rfl, fun _ _ => ⟨rfl, fun _ _ => trivial⟩⟩⟩

theorem lockWork_holdGuard (redis : Bool) (g polls : ℕ) :
    lockWork.Obeys (.holding g) (holdGuard redis g polls) fun _ _ => True := by
  have hinside (token : Bool) : lockWork.Obeys (.holding g) (do
      perform (.entered g token)
      perform (.bodyEnds g)
      leaveGuard g token) fun _ _ => True :=
    ⟨rfl, fun _ _ => ⟨rfl, fun _ _ => lockWork_leaveGuard g token⟩⟩
  cases redis with
  | false => exact hinside false
  | true =>
    refine Discipline.obeys_bind.2 ((lockWork_acquireRedis g polls).mono fun q r hq => ?_)
    cases r with
    | cancelled => trivial
    | token =>
      obtain hc | rfl := hq
      · cases hc
      · exact hinside true
    | degraded =>
      obtain hc | rfl := hq
      · cases hc
      · exact hinside false

theorem lockWork_body (redis : Bool) (c : LockCall) :
    lockWork.Obeys .fresh (c.body redis) fun _ _ => True := by
  cases c with
  | cancel g => exact ⟨trivial, fun _ _ => trivial⟩
  | guarded sid polls =>
    refine Discipline.obeys_perform_bind.2 ⟨rfl, fun p _ => ?_⟩
    obtain ⟨g, acquired⟩ := p
    cases acquired with
    | true => exact lockWork_holdGuard redis g polls
    | false =>
      refine Discipline.obeys_perform_bind.2 ⟨rfl, fun got _ => ?_⟩
      cases got with
      | true => exact lockWork_holdGuard redis g polls
      | false => trivial

/-! ### Whose guard it is -/

/-- The coroutine has entered this guard. -/
def EnteredGuard (log : Log LockAct) (i g : ℕ) : Prop :=
  ∃ sid b, (i, ⟨.enter sid, (g, b)⟩) ∈ log

/-- What a coroutine knows of its guard. -/
def GuardStage.Holds (s : LockTable) : GuardStage → Prop
  | fresh | done => True
  | waiting g => ∃ r, s.guards[g]? = some r ∧ r.phase = .entering ∧ r.holds = false
  | holding g => ∃ r, s.guards[g]? = some r ∧ r.phase = .entering ∧ r.holds = true
  | inside g => ∃ r, s.guards[g]? = some r ∧ r.phase = .inside ∧ r.holds = true

/-- The guard of a stage. -/
def GuardStage.guard : GuardStage → Option ℕ
  | fresh | done => none
  | waiting g | holding g | inside g => some g

/-- The guard a step is about. -/
def LockAct.own {β : Type} : LockAct β → Option ℕ
  | awaitLock g | redisSet g | sleep g | entered g _ | bodyEnds g | stopRenewer g | cas g
  | release g => some g
  | enter _ | cancelTask _ | unfollowed => none

section

variable {s s' : LockTable} {e : LockEnv} {β : Type} {a : LockAct β} {b : β} {q : GuardStage}
  {g : ℕ} {r : LockGuard}

theorem LockTable.guards_mark_eq (g' : ℕ) (f : LockGuard → LockGuard)
    (hg : s.guards[g]? = some r) :
    ∃ r', (s.mark g' f).guards[g]? = some r' ∧ (some g' ≠ some g → r' = r) := by
  rw [LockTable.guards_mark, hg]
  split
  · rename_i heq
    exact ⟨f r, rfl, fun hne => absurd (congrArg some heq) hne⟩
  · exact ⟨r, rfl, fun _ => rfl⟩

theorem LockTable.acquireLocal_guards (sid : SessionId) :
    (s.acquireLocal sid).1.guards = s.guards := by
  unfold LockTable.acquireLocal
  dsimp only
  split <;> rfl

/-- A guard that is entered is a new one, and its lock was asked for. -/
theorem LockAct.exec_enter {sid : SessionId} {p : ℕ × Bool}
    (he : (LockAct.enter sid).exec e s = some (s', p)) : p.1 = s.guards.length ∧
      s'.guards = s.guards ++ [⟨sid, (s.acquireLocal sid).2, p.2, .entering⟩] ∧
      ∃ l, ((s.acquireLocal sid).1.lockAt (s.acquireLocal sid).2).acquire s.guards.length =
          (l, p.2) ∧
        s'.locks = ((s.acquireLocal sid).1.setLock (s.acquireLocal sid).2 l).locks := by
  have hsame := LockTable.acquireLocal_guards (s := s) sid
  unfold exec at he
  dsimp only at he
  rw [hsame] at he
  obtain ⟨rfl, rfl⟩ := Prod.mk.inj (Option.some.inj he)
  exact ⟨rfl, rfl, _, rfl, rfl⟩

/-- A step leaves the guards of others alone, and forgets none. -/
theorem LockAct.exec_guards (he : a.exec e s = some (s', b)) (hg : s.guards[g]? = some r) :
    ∃ r', s'.guards[g]? = some r' ∧ (a.own ≠ some g → r' = r) := by
  cases a with
  | enter sid =>
    refine ⟨r, ?_, fun _ => rfl⟩
    rw [(exec_enter he).2.1, List.getElem?_append_left (List.getElem?_eq_some_iff.1 hg).1, hg]
  | awaitLock g' =>
    simp only [exec] at he
    split at he
    · cases he
    · split at he
      · cases he
      · cases he
        exact LockTable.guards_mark_eq g' _ hg
      · cases he
        exact LockTable.guards_mark_eq g' _ hg
  | redisSet g' =>
    simp only [exec] at he
    split at he <;> cases he
    · exact LockTable.guards_mark_eq g' _ hg
    · exact ⟨r, hg, fun _ => rfl⟩
  | sleep g' =>
    simp only [exec] at he
    split at he <;> cases he
    · exact LockTable.guards_mark_eq g' _ hg
    · exact ⟨r, hg, fun _ => rfl⟩
  | entered g' token =>
    cases he
    exact LockTable.guards_mark_eq g' (fun r => { r with phase := .inside }) hg
  | release g' =>
    simp only [exec] at he
    split at he
    · cases he
      exact ⟨r, hg, fun _ => rfl⟩
    · split at he
      · cases he
        exact ⟨r, hg, fun _ => rfl⟩
      · cases he
        refine LockTable.guards_mark_eq g' _ ?_
        rw [LockTable.releaseLocal_guards]
        exact hg
  | cancelTask g' =>
    simp only [exec] at he
    split at he <;> cases he <;> exact ⟨r, hg, fun _ => rfl⟩
  | unfollowed => cases he
  | _ => cases he; exact ⟨r, hg, fun _ => rfl⟩

/-- What a coroutine knows stays true while others move. -/
theorem GuardStage.Holds.frame (h : q.Holds s) (he : a.exec e s = some (s', b))
    (hown : ∀ g, q.guard = some g → a.own ≠ some g) : q.Holds s' := by
  have hkeep (g : ℕ) (r : LockGuard) (hg : q.guard = some g) (hr : s.guards[g]? = some r) :
      s'.guards[g]? = some r := by
    obtain ⟨r', hr', hsame⟩ := LockAct.exec_guards he hr
    rw [hr', hsame (hown g hg)]
  cases q with
  | fresh => trivial
  | done => trivial
  | waiting g => exact h.elim fun r hr => ⟨r, hkeep g r rfl hr.1, hr.2⟩
  | holding g => exact h.elim fun r hr => ⟨r, hkeep g r rfl hr.1, hr.2⟩
  | inside g => exact h.elim fun r hr => ⟨r, hkeep g r rfl hr.1, hr.2⟩

/-- Watchdogs do not matter. -/
theorem LockInv.renew (h : LockInv s) (gs : List ℕ) : LockInv { s with renewers := gs } where
  guards g r hg := by
    have hr := h.guards g r hg
    exact ⟨hr.placed, hr.current, hr.live, hr.inside⟩
  locks n x hx := by
    have hl := h.locks n x hx
    exact ⟨hl.orderly, hl.held, hl.waiting⟩
  mapped := h.mapped
  counted := h.counted

/-- A step of a coroutine keeps the invariant, and what the coroutine knows comes true. -/
theorem LockInv.exec (h : LockInv s) (hq : q.Holds s) (hok : lockWork.ok q a)
    (he : a.exec e s = some (s', b)) : LockInv s' ∧ (lockWork.next q a b).Holds s' := by
  cases a with
  | enter sid =>
    refine ⟨h.entered he, ?_⟩
    obtain ⟨rfl, hb⟩ := Prod.mk.inj (Option.some.inj he)
    have hlast (l : List LockGuard) (r : LockGuard) : (l ++ [r])[l.length]? = some r := by simp
    obtain ⟨g, acquired⟩ := b
    obtain ⟨rfl, hacq⟩ := Prod.mk.inj hb
    cases acquired with
    | true => exact ⟨_, hlast _ _, rfl, hacq⟩
    | false => exact ⟨_, hlast _ _, rfl, hacq⟩
  | awaitLock g =>
    obtain rfl : q = .waiting g := hok
    obtain ⟨r, hg, hp, hh⟩ := hq
    simp only [LockAct.exec, hg] at he
    split at he
    · cases he
    · rename_i l hr
      cases he
      refine ⟨h.resumed hg hh hp hr, { r with holds := true }, ?_, hp, rfl⟩
      rw [LockTable.guards_mark, if_pos rfl]
      show Option.map _ s.guards[g]? = _
      rw [hg, Option.map_some]
    · rename_i l hr
      cases he
      exact ⟨h.struckWaiting hg hh hp hr, trivial⟩
  | redisSet g =>
    obtain rfl : q = .holding g := hok
    obtain ⟨r, hg, hp, hh⟩ := hq
    simp only [LockAct.exec] at he
    split at he <;> cases he
    · exact ⟨h.rephase hg hh (by decide), trivial⟩
    · refine ⟨h, ?_⟩
      cases e.fault <;> cases e.free <;> exact ⟨r, hg, hp, hh⟩
  | sleep g =>
    obtain rfl : q = .holding g := hok
    obtain ⟨r, hg, hp, hh⟩ := hq
    simp only [LockAct.exec] at he
    split at he <;> cases he
    · exact ⟨h.rephase hg hh (by decide), trivial⟩
    · exact ⟨h, r, hg, hp, hh⟩
  | entered g token =>
    obtain rfl : q = .holding g := hok
    obtain ⟨r, hg, hp, hh⟩ := hq
    cases he
    have hin := h.rephase hg hh (show GuardPhase.inside ≠ .left by decide)
    refine ⟨hin.renew _, { r with phase := .inside }, ?_, rfl, hh⟩
    show (s.mark g fun r => { r with phase := .inside }).guards[g]? = _
    rw [LockTable.guards_mark, if_pos rfl, hg, Option.map_some]
  | release g =>
    obtain rfl : q = .inside g := hok
    obtain ⟨r, hg, hp, hh⟩ := hq
    refine ⟨?_, trivial⟩
    simp only [LockAct.exec, hg] at he
    split at he
    · cases he
      exact h
    · rename_i l hr
      cases he
      exact h.released hg hh hr
  | cancelTask g =>
    simp only [LockAct.exec] at he
    split at he <;> cases he
    · exact ⟨h, hq⟩
    · rename_i r hg
      refine ⟨h.cancelled hg, ?_⟩
      cases q <;> exact hq
  | unfollowed => cases he
  | stopRenewer g =>
    cases he
    exact ⟨h.renew _, by cases q <;> exact hq⟩
  | bodyEnds g => cases he; exact ⟨h, hq⟩
  | cas g => cases he; exact ⟨h, hq⟩

/-! ### Who has entered -/

/-- A guard has one coroutine. -/
structure GuardOwners (s : LockTable) (log : Log LockAct) : Prop where
  made : ∀ i g, EnteredGuard log i g → g < s.guards.length
  /-- Its coroutine made it. -/
  one : ∀ i j g, EnteredGuard log i g → EnteredGuard log j g → i = j

/-- What is true of the locks and of who entered what. -/
structure LockWorld (s : LockTable) (log : Log LockAct) : Prop where
  /-- The counts count, and the guards of a session share a lock. -/
  inv : LockInv s
  /-- Guards belong to coroutines. -/
  owners : GuardOwners s log

/-- What the coroutine `i` knows. -/
structure GuardStage.Knows (i : ℕ) (q : GuardStage) (s : LockTable) (log : Log LockAct) : Prop where
  /-- Its guard is where it thinks. -/
  holds : q.Holds s
  own : ∀ g, q.guard = some g → EnteredGuard log i g

variable {log : Log LockAct} {i j : ℕ}

theorem entered_append {x : Event LockAct} (h : EnteredGuard (log ++ [(j, x)]) i g) :
    EnteredGuard log i g ∨ i = j ∧ ∃ sid b, x = ⟨.enter sid, (g, b)⟩ := by
  obtain ⟨sid, b, hmem⟩ := h
  obtain hmem | hmem := List.mem_append.1 hmem
  · exact .inl ⟨sid, b, hmem⟩
  · obtain ⟨rfl, rfl⟩ := Prod.mk.inj (List.mem_singleton.1 hmem)
    exact .inr ⟨rfl, sid, b, rfl⟩

theorem GuardOwners.exec (h : GuardOwners s log) (he : a.exec e s = some (s', b)) (i : ℕ) :
    GuardOwners s' (log ++ [(i, ⟨a, b⟩)]) := by
  have hold (j g : ℕ) (hj : EnteredGuard log j g) : g < s'.guards.length := by
    have hlt := h.made j g hj
    obtain ⟨r', hr', -⟩ := LockAct.exec_guards he (List.getElem?_eq_getElem hlt)
    exact (List.getElem?_eq_some_iff.1 hr').1
  have hnew (g : ℕ) (hx : ∃ sid b', (⟨a, b⟩ : Event LockAct) = ⟨.enter sid, (g, b')⟩) :
      g = s.guards.length ∧ g < s'.guards.length := by
    obtain ⟨sid, b', hx⟩ := hx
    cases hx
    obtain ⟨rfl, hlen, -⟩ := LockAct.exec_enter he
    rw [hlen, List.length_append]
    exact ⟨rfl, Nat.lt_succ_self _⟩
  refine ⟨fun j g hj => ?_, fun j k g hj hk => ?_⟩
  · obtain hj | ⟨-, hx⟩ := entered_append hj
    · exact hold j g hj
    · exact (hnew g hx).2
  · obtain hj | ⟨hji, hx⟩ := entered_append hj <;> obtain hk | ⟨hki, hy⟩ := entered_append hk
    · exact h.one j k g hj hk
    · have hlt := h.made j g hj
      have hg := (hnew g hy).1
      omega
    · have hlt := h.made k g hk
      have hg := (hnew g hx).1
      omega
    · rw [hji, hki]

theorem EnteredGuard.append {l : Log LockAct} (h : EnteredGuard log i g) :
    EnteredGuard (log ++ l) i g :=
  h.elim fun sid hb => hb.elim fun b hmem => ⟨sid, b, List.mem_append_left _ hmem⟩

/-- The guard of what a coroutine knows next is its own. -/
theorem GuardStage.Knows.next (h : q.Knows i s log) (hok : lockWork.ok q a)
    (hq : (lockWork.next q a b).Holds s') :
    (lockWork.next q a b).Knows i s' (log ++ [(i, ⟨a, b⟩)]) := by
  refine ⟨hq, fun g hg => ?_⟩
  have hkeep (hg : q.guard = some g) : EnteredGuard (log ++ [(i, ⟨a, b⟩)]) i g :=
    (h.own g hg).append
  cases a with
  | enter sid =>
    obtain ⟨g', acquired⟩ := b
    have hg' : g' = g := by cases acquired <;> exact Option.some.inj hg
    subst hg'
    exact ⟨sid, acquired, by simp⟩
  | awaitLock g' =>
    obtain rfl : q = .waiting g' := hok
    cases b with
    | true => exact hkeep hg
    | false => cases hg
  | redisSet g' =>
    obtain rfl : q = .holding g' := hok
    cases b with
    | cancelled => cases hg
    | _ => exact hkeep hg
  | sleep g' =>
    obtain rfl : q = .holding g' := hok
    cases b with
    | true => exact hkeep hg
    | false => cases hg
  | entered g' token =>
    obtain rfl : q = .holding g' := hok
    exact hkeep hg
  | release g' => cases hg
  | unfollowed => cases b
  | _ => exact hkeep hg

theorem lockWork_own (hok : lockWork.ok q a) {g : ℕ} (ho : a.own = some g) : q.guard = some g := by
  cases a with
  | enter | cancelTask | unfollowed => cases ho
  | _ => obtain rfl : q = _ := hok; exact ho

end

/-! ### The results -/

/-- The invariant in every interleaving, and what each coroutine knows. -/
theorem sessionLocks_sound (redis : Bool) (g : Guard LockAct LockEnv LockTable LockCall Unit) :
    Sound (sessionLocks redis) g lockWork (fun _ => .fresh) {} LockWorld
      (fun i _ q => q.Knows i) where
  init := ⟨LockInv.init, fun _ _ h => by simp [EnteredGuard] at h, fun _ _ _ h => by simp [EnteredGuard] at h⟩
  start _ _ _ := ⟨trivial, fun _ h => by cases h⟩
  step _ _ _ he hw hk hok := by
    obtain ⟨hinv, hq⟩ := hw.inv.exec hk.holds hok he
    exact ⟨trivial, ⟨hinv, hw.owners.exec he _⟩, hk.next hok hq⟩
  frame _ _ _ he hw hk hok _ _ _ hj hk' := by
    refine ⟨hk'.holds.frame he fun g hg ho => ?_, fun g hg => (hk'.own g hg).append⟩
    exact hj (hw.owners.one _ _ g (hk'.own g hg) (hk.own g (lockWork_own hok ho)))

variable {redis : Bool} {P : Pool LockAct LockTable LockCall Unit}

/-- **At most one coroutine of the process is inside the guard of a session**, in every run,
whatever is cancelled and whatever Redis does. -/
theorem session_lock_exclusive (h : Run (sessionLocks redis) .free (.init {}) P) :
    P.shared.Exclusive :=
  ((sessionLocks_sound redis .free).of_run (lockWork_body redis) h).1.inv.exclusive

/-- Two coroutines for one session: one is inside, and the other waits. -/
theorem session_lock_exclusive_two : ∃ P, Run (sessionLocks false) .free (.init {}) P ∧
    P.shared.guards.map (fun r => r.phase) = [.inside, .entering] ∧ P.shared.Exclusive := by
  have hplay : ((sessionLocks false).run (fun _ _ _ _ _ => true) (.init {})
      [.start (.guarded "chat" 3), .start (.guarded "chat" 3), .step 0 {}, .step 1 {}, .step 0 {},
        .step 0 {}]).map (fun P => P.shared.guards.map fun r => r.phase) =
        some [.inside, .entering] := by
    decide +kernel
  obtain ⟨P, hP, hphases⟩ := Option.map_eq_some_iff.1 hplay
  have hrun : Run (sessionLocks false) .free (.init {}) P :=
    Run.of_run (fun _ _ => trivial) (fun _ _ _ _ _ _ => trivial) hP
  exact ⟨P, hrun, hphases, session_lock_exclusive hrun⟩

/-! ### Entries that are not cancelled -/

/-- No guard has been left behind, and nobody who waits for a lock was cancelled. -/
structure LockTable.Unstruck (s : LockTable) : Prop where
  guards : ∀ (g : ℕ) (r : LockGuard), s.guards[g]? = some r → r.phase ≠ .struck
  locks : ∀ (n : ℕ) (x : LocalLock), s.locks[n]? = some x → x.lock.Unstruck

section

variable {s s' : LockTable} {e : LockEnv} {β : Type} {a : LockAct β} {b : β} {q : GuardStage}
  {g n : ℕ} {r : LockGuard} {l : AsyncLock} {f : LockGuard → LockGuard}

theorem LockTable.Unstruck.setLock (h : s.Unstruck) (hl : l.Unstruck) :
    (s.setLock n l).Unstruck := by
  refine ⟨h.guards, fun m x hx => ?_⟩
  rw [LockTable.locks_setLock] at hx
  split at hx
  · obtain ⟨y, -, rfl⟩ := Option.map_eq_some_iff.1 hx
    exact hl
  · exact h.locks m x hx

theorem LockTable.Unstruck.mark (h : s.Unstruck) (hf : ∀ r, r.phase ≠ .struck → (f r).phase ≠ .struck) :
    (s.mark g f).Unstruck := by
  refine ⟨fun g' r hr => ?_, h.locks⟩
  rw [LockTable.guards_mark] at hr
  split at hr
  · obtain ⟨r', hr', rfl⟩ := Option.map_eq_some_iff.1 hr
    exact hf r' (h.guards g' r' hr')
  · exact h.guards g' r hr

theorem LockTable.Unstruck.lockAt (h : s.Unstruck) (n : ℕ) : (s.lockAt n).Unstruck := by
  unfold LockTable.lockAt
  cases hn : s.locks[n]? with
  | none => intro x hx; cases hx
  | some x => exact h.locks n x hn

theorem LockTable.Unstruck.enter (h : s.Unstruck) (hi : LockInv s) {sid : SessionId}
    {p : ℕ × Bool} (he : (LockAct.enter sid).exec e s = some (s', p)) : s'.Unstruck := by
  refine ⟨fun g r hr => ?_, ?_⟩
  · rw [(LockAct.exec_enter he).2.1] at hr
    have hmem := List.mem_of_getElem? hr
    obtain hmem | hmem := List.mem_append.1 hmem
    · obtain ⟨g', hg'⟩ := List.getElem?_of_mem hmem
      exact h.guards g' r hg'
    · rw [List.mem_singleton.1 hmem]
      exact GuardPhase.noConfusion
  · obtain ⟨x, ha⟩ := hi.acquireLocal sid
    have hx : x.lock.Unstruck := by
      obtain hx | hx := ha.fresh
      · exact h.locks _ x hx
      · rw [hx]
        intro y hy
        cases hy
    obtain ⟨-, -, l, hl, hlocks⟩ := LockAct.exec_enter he
    rw [LockTable.lockAt_eq ha.lock] at hl
    intro m y hy
    rw [hlocks, ha.locks_setLock] at hy
    split at hy
    · obtain rfl := Option.some.inj hy
      exact hx.acquire hl
    · exact h.locks m y hy

/-- A step of a coroutine that is not cancelled while it enters leaves no guard behind. -/
theorem LockTable.Unstruck.exec (h : s.Unstruck) (hi : LockInv s) (hs : a.steady e s)
    (he : a.exec e s = some (s', b)) : s'.Unstruck := by
  cases a with
  | enter sid => exact h.enter hi he
  | awaitLock g =>
    simp only [LockAct.exec] at he
    split at he
    · cases he
    · split at he
      · cases he
      · rename_i hr
        cases he
        exact (h.setLock ((h.lockAt _).resume hr).2).mark fun _ hp => hp
      · rename_i hr
        cases ((h.lockAt _).resume hr).1
  | redisSet g =>
    simp only [LockAct.exec, show e.cancelled = false from hs] at he
    cases he
    exact h
  | sleep g =>
    simp only [LockAct.exec, show e.cancelled = false from hs] at he
    cases he
    exact h
  | entered g token =>
    cases he
    have hm := h.mark (g := g) (f := fun r => { r with phase := .inside }) fun _ _ => by simp
    exact ⟨hm.guards, hm.locks⟩
  | release g =>
    simp only [LockAct.exec] at he
    split at he
    · cases he
      exact h
    · split at he
      · cases he
        exact h
      · rename_i hr
        cases he
        have hl (n : ℕ) := h.setLock (n := n) ((h.lockAt _).release hr)
        refine LockTable.Unstruck.mark ⟨fun g r hg => ?_, fun n x hx => ?_⟩ fun _ _ => by simp
        · rw [LockTable.releaseLocal_guards] at hg
          exact (hl 0).guards g r hg
        · rw [LockTable.releaseLocal_locks] at hx
          exact (hl _).locks n x hx
  | cancelTask g =>
    simp only [LockAct.exec] at he
    split at he
    · cases he
      exact h
    · rename_i r hg
      cases he
      -- It is not in the queue any more.
      obtain ⟨x, hx, -⟩ := (hi.guards g r hg).placed
      rw [LockTable.lockAt_eq hx, AsyncLock.cancel_eq_self]
      · exact h.setLock (h.locks _ x hx)
      · intro hw
        obtain ⟨r', hr', -, hp, -⟩ := (hi.locks _ x hx).waiting g hw
        exact hs r' hr' hp
  | unfollowed => cases he
  | stopRenewer g => cases he; exact ⟨h.guards, h.locks⟩
  | bodyEnds g => cases he; exact h
  | cas g => cases he; exact h

/-- An idle session has no users. -/
theorem LockTable.Unstruck.users_eq_zero (h : s.Unstruck) {sid : SessionId} (hidle : s.Idle sid) :
    s.users sid = 0 := by
  refine List.countP_eq_zero.2 fun r hr hp => ?_
  simp only [Bool.and_eq_true, decide_eq_true_eq] at hp
  obtain ⟨g, hg⟩ := List.getElem?_of_mem hr
  obtain ⟨he, hi⟩ := hidle r hr hp.1
  have hs := h.guards g r hg
  cases hph : r.phase with
  | entering => exact he hph
  | inside => exact hi hph
  | left => exact hp.2 hph
  | struck => exact hs hph

theorem LockInv.lookup_none (h : LockInv s) {sid : SessionId} (hu : s.users sid = 0) :
    s.localLocks.lookup sid = none ∧ s.localRefs.lookup sid = none := by
  refine ⟨?_, by rw [h.counted, if_pos hu]⟩
  cases hl : s.localLocks.lookup sid with
  | none => rfl
  | some n => exact absurd hu (h.mapped sid n hl)

/-- Where no guard was left behind the locks do what they are for. -/
theorem LockInv.sound (h : LockInv s) (hu : s.Unstruck) : SessionLockSound s where
  exclusive := h.exclusive
  free sid hidle x hx hs := by
    by_contra hl
    obtain ⟨n, hn⟩ := List.getElem?_of_mem hx
    obtain ⟨g, r, hg, -, hsid, hp⟩ := h.holder hn (by simpa using hl)
    have hpos := LockTable.users_ne_zero hg hp
    rw [hsid, hs] at hpos
    exact hpos (hu.users_eq_zero hidle)
  evicted sid hidle := h.lookup_none (hu.users_eq_zero hidle)
  admits sid hidle e := by
    obtain ⟨hl, -⟩ := h.lookup_none (hu.users_eq_zero hidle)
    simp [LockAct.exec, LockTable.acquireLocal, hl, LockTable.lockAt, AsyncLock.acquire]

end

/-- **The session lock while entries are not cancelled**: one coroutine at a time is inside, and a
session that is idle has left neither a held lock nor an entry behind. -/
theorem session_lock_sound (h : Run (sessionLocks redis) steadyEntry (.init {}) P) :
    SessionLockSound P.shared := by
  have hunstruck : P.shared.Unstruck := by
    induction h with
    | refl => exact ⟨fun _ _ h => by simp [Pool.init] at h, fun _ _ h => by simp [Pool.init] at h⟩
    | start _ _ _ ih => exact ih
    | step h _ hg he ih =>
      have hw := ((sessionLocks_sound redis steadyEntry).of_run (lockWork_body redis) h).1
      exact ih.exec hw.inv hg he
  have hw := ((sessionLocks_sound redis steadyEntry).of_run (lockWork_body redis) h).1
  exact hw.inv.sound hunstruck

/-! ### Runs -/

/-- Checks that no cancellation meets an entry. -/
def LockAct.isSteady {β : Type} (e : LockEnv) (s : LockTable) : LockAct β → Bool
  | redisSet _ | sleep _ => !e.cancelled
  | cancelTask g => s.guards[g]?.all fun r => decide (r.phase ≠ .entering)
  | _ => true

theorem LockAct.steady_of_isSteady {s : LockTable} {e : LockEnv} {β : Type} {a : LockAct β}
    (h : a.isSteady e s = true) : a.steady e s := by
  cases a with
  | redisSet g | sleep g =>
    show e.cancelled = false
    simpa [isSteady] using h
  | cancelTask g =>
    intro r hr
    have hall : s.guards[g]?.all (fun r => decide (r.phase ≠ .entering)) = true := h
    rw [hr, Option.all_some, decide_eq_true_eq] at hall
    exact hall
  | _ => trivial

namespace Sample

/-- Two coroutines for one session: the second waits for the first, whose Redis lock is denied once
and whose release is cancelled. -/
def twoTurns : List (Move LockEnv LockCall) :=
  [.start (.guarded "chat" 3), .start (.guarded "chat" 3), .step 0 {}, .step 1 {},
    .step 0 { free := false }, .step 0 {}, .step 0 {}, .step 0 {}, .step 0 {}, .step 0 {},
    .step 0 { cancelled := true }, .step 0 {}, .step 1 {}, .step 1 { fault := true }, .step 1 {}]

/-- A coroutine is cancelled while it polls Redis. -/
def struckPoll : List (Move LockEnv LockCall) :=
  [.start (.guarded "chat" 3), .step 0 {}, .step 0 { free := false }, .step 0 { cancelled := true }]

end Sample

/-- The second is inside once the first has left. -/
theorem session_lock_two_turns : ∃ P, Run (sessionLocks true) steadyEntry (.init {}) P ∧
    P.shared.guards.map (fun r => (r.holds, r.phase)) = [(false, .left), (true, .inside)] ∧
    SessionLockSound P.shared := by
  have hplay : ((sessionLocks true).run (fun P _ _ a e => a.isSteady e P.shared) (.init {})
      Sample.twoTurns).map (fun P => P.shared.guards.map fun r => (r.holds, r.phase)) =
        some [(false, .left), (true, .inside)] := by
    decide +kernel
  obtain ⟨P, hP, hguards⟩ := Option.map_eq_some_iff.1 hplay
  have hrun : Run (sessionLocks true) steadyEntry (.init {}) P :=
    Run.of_run (fun _ _ => trivial) (fun _ _ _ _ _ hc => LockAct.steady_of_isSteady hc) hP
  exact ⟨P, hrun, hguards, session_lock_sound hrun⟩

/-- A coroutine that is cancelled while it polls Redis leaves the local lock held and its entry in the
table: nobody is in or entering, and nobody gets in any more. -/
theorem session_lock_leaked : ∃ P, Run (sessionLocks true) .free (.init {}) P ∧
    P.threads.all (fun th => th.prog.finished) = true ∧ P.shared.Idle "chat" ∧
    ¬ SessionLockSound P.shared := by
  have hplay : ((sessionLocks true).run (fun _ _ _ _ _ => true) (.init {}) Sample.struckPoll).map
      (fun P => (P.threads.all fun th => th.prog.finished, P.shared.guards,
        P.shared.localLocks.lookup "chat")) =
        some (true, [⟨"chat", 0, true, .struck⟩], some 0) := by
    decide +kernel
  obtain ⟨P, hP, hend⟩ := Option.map_eq_some_iff.1 hplay
  obtain ⟨hdone, hrest⟩ := Prod.mk.inj hend
  obtain ⟨hguards, hentry⟩ := Prod.mk.inj hrest
  have hidle : P.shared.Idle "chat" := by
    intro r hr _
    rw [hguards] at hr
    rw [List.mem_singleton.1 hr]
    exact ⟨GuardPhase.noConfusion, GuardPhase.noConfusion⟩
  refine ⟨P, Run.of_run (fun _ _ => trivial) (fun _ _ _ _ _ _ => trivial) hP, hdone, hidle, ?_⟩
  intro hsound
  rw [(hsound.evicted "chat" hidle).1] at hentry
  cases hentry

end Backplane
