import Backplane.Suite.SessionLock

/-!
# Why the session lock excludes

* `LockInv` : the counts count, a session's guards use one lock, and its holder is one of them.
* `lockWork` : what a guard's coroutine may do next.
* `LockInv.exec` : one step keeps the invariant.
* `Unstruck` : without cancellations of entries no guard is left behind.
-/

namespace Backplane

open Concur Prog

/-! ### Counts -/

namespace LockTable

variable (s : LockTable)

/-- Guards of a session that count as its users. -/
def users (sid : SessionId) : ℕ :=
  s.guards.countP fun r => decide (r.sid = sid) && decide (r.phase ≠ .left)

/-- Guards that hold a lock. -/
def holders (n : ℕ) : ℕ := s.guards.countP fun r => decide (r.lock = n) && r.holds

variable {s} {n m g : ℕ} {l : AsyncLock} {x : LocalLock} {r r' : LockGuard} {sid : SessionId}
  {f : LockGuard → LockGuard}

theorem lockAt_eq (h : s.locks[n]? = some x) : s.lockAt n = x.lock := by
  rw [lockAt, h]
  rfl

theorem locks_setLock (s : LockTable) (n m : ℕ) (l : AsyncLock) : (s.setLock n l).locks[m]? =
    if n = m then s.locks[m]?.map fun x => { x with lock := l } else s.locks[m]? := by
  rw [setLock, List.getElem?_modify]
  split_ifs <;> cases s.locks[m]? <;> rfl

theorem guards_mark (s : LockTable) (g g' : ℕ) (f : LockGuard → LockGuard) :
    (s.mark g f).guards[g']? = if g = g' then s.guards[g']?.map f else s.guards[g']? := by
  rw [mark, List.getElem?_modify]
  split_ifs <;> cases s.guards[g']? <;> rfl

theorem countP_mark (p : LockGuard → Bool) (h : s.guards[g]? = some r) :
    (s.mark g f).guards.countP p + (if p r then 1 else 0) =
      s.guards.countP p + if p (f r) then 1 else 0 := by
  obtain ⟨hlt, hr⟩ := List.getElem?_eq_some_iff.1 h
  have hset : (s.mark g f).guards = s.guards.set g (f r) := by
    refine List.ext_getElem? fun i => ?_
    rw [guards_mark, List.getElem?_set]
    by_cases hi : g = i
    · subst hi
      rw [if_pos rfl, if_pos rfl, if_pos hlt, h, Option.map_some]
    · rw [if_neg hi, if_neg hi]
  have hpos : (if p r then 1 else 0) ≤ s.guards.countP p := by
    split
    · rename_i hp
      exact List.countP_pos_iff.2 ⟨r, List.mem_of_getElem? h, hp⟩
    · exact Nat.zero_le _
  rw [hset, List.countP_set hlt, hr]
  omega

theorem users_mark (h : s.guards[g]? = some r) (hs : (f r).sid = r.sid)
    (hp : (f r).phase = .left ↔ r.phase = .left) (sid : SessionId) :
    (s.mark g f).users sid = s.users sid := by
  have hc := countP_mark (f := f) (fun r => decide (r.sid = sid) && decide (r.phase ≠ .left)) h
  have heq : (decide ((f r).sid = sid) && decide ((f r).phase ≠ .left)) =
      (decide (r.sid = sid) && decide (r.phase ≠ .left)) := by
    rw [hs, decide_eq_decide.2 (not_congr hp)]
  rw [heq] at hc
  unfold users
  omega

theorem users_ne_zero (h : s.guards[g]? = some r) (hp : r.phase ≠ .left) : s.users r.sid ≠ 0 :=
  Nat.ne_of_gt (List.countP_pos_iff.2 ⟨r, List.mem_of_getElem? h, by simp [hp]⟩)

end LockTable

/-! ### The invariant -/

/-- What is true of a guard. -/
structure LockGuard.Good (s : LockTable) (r : LockGuard) : Prop where
  /-- Its lock was made for its session. -/
  placed : ∃ x, s.locks[r.lock]? = some x ∧ x.sid = r.sid
  /-- Until it is left its lock is the one of the session. -/
  current : r.phase ≠ .left → s.localLocks.lookup r.sid = some r.lock
  /-- One that is left does not hold the lock. -/
  live : r.holds = true → r.phase ≠ .left
  /-- Whoever is inside holds it. -/
  inside : r.phase = .inside → r.holds = true

/-- What is true of a lock. -/
structure LocalLock.Good (s : LockTable) (n : ℕ) (x : LocalLock) : Prop where
  /-- Nobody overtakes the one that was woken. -/
  orderly : x.lock.Orderly
  /-- It is held by one guard, or free. -/
  held : s.holders n = if x.lock.locked then 1 else 0
  /-- Those in its queue are being entered, and do not hold it. -/
  waiting : ∀ w ∈ x.lock.queue, ∃ r, s.guards[w]? = some r ∧ r.lock = n ∧ r.phase = .entering ∧
    r.holds = false

/-- The counts count, a session's guards use one lock, and its holder is one of them. -/
structure LockInv (s : LockTable) : Prop where
  guards : ∀ (g : ℕ) (r : LockGuard), s.guards[g]? = some r → r.Good s
  locks : ∀ (n : ℕ) (x : LocalLock), s.locks[n]? = some x → x.Good s n
  /-- A session that has a lock has users. -/
  mapped : ∀ sid n, s.localLocks.lookup sid = some n → s.users sid ≠ 0
  /-- The references are the users. -/
  counted : ∀ sid, s.localRefs.lookup sid = if s.users sid = 0 then none else some (s.users sid)

section

variable {s s' : LockTable} {n g : ℕ} {l : AsyncLock} {x : LocalLock} {r : LockGuard}
  {sid : SessionId} {f : LockGuard → LockGuard}

theorem LockInv.init : LockInv {} where
  guards _ _ h := absurd h (by simp)
  locks _ _ h := absurd h (by simp)
  mapped _ _ h := absurd h (by simp)
  counted _ := rfl

/-- **The holder of a lock is alone.** -/
theorem LockInv.alone (h : LockInv s) {g g' : ℕ} {r r' : LockGuard} (hg : s.guards[g]? = some r)
    (hg' : s.guards[g']? = some r') (hh : r.holds = true) (hh' : r'.holds = true)
    (hl : r.lock = r'.lock) : g = g' := by
  by_contra hne
  obtain ⟨x, hx, -⟩ := (h.guards g r hg).placed
  have hheld := (h.locks _ x hx).held
  -- Taking the one off the list leaves the other to be counted.
  have hc := LockTable.countP_mark (f := fun r => { r with holds := false })
    (fun y => decide (y.lock = r.lock) && y.holds) hg
  have hpos : 0 < (s.mark g fun r => { r with holds := false }).guards.countP
      fun y => decide (y.lock = r.lock) && y.holds := by
    refine List.countP_pos_iff.2 ⟨r', List.mem_of_getElem? (i := g') ?_, by simp [hl, hh']⟩
    rw [LockTable.guards_mark, if_neg hne, hg']
  unfold LockTable.holders at hheld
  simp [hh] at hc
  split at hheld <;> omega

/-- **The guards exclude each other.** -/
theorem LockInv.exclusive (h : LockInv s) : s.Exclusive := by
  intro g g' r r' hg hg' hs hp hp'
  have hr := h.guards g r hg
  have hr' := h.guards g' r' hg'
  have hcur := hr.current (by rw [hp]; decide)
  have hcur' := hr'.current (by rw [hp']; decide)
  rw [hs, hcur'] at hcur
  exact h.alone hg hg' (hr.inside hp) (hr'.inside hp') (Option.some.inj hcur).symm

/-- A lock that is held is held by a guard that is not left. -/
theorem LockInv.holder (h : LockInv s) (hx : s.locks[n]? = some x) (hl : x.lock.locked = true) :
    ∃ (g : ℕ) (r : LockGuard), s.guards[g]? = some r ∧ r.lock = n ∧ r.sid = x.sid ∧
      r.phase ≠ .left := by
  have hheld := (h.locks n x hx).held
  rw [hl, if_pos rfl] at hheld
  obtain ⟨r, hr, hp⟩ := List.countP_pos_iff.1 (show 0 < s.holders n by omega)
  obtain ⟨g, hg⟩ := List.getElem?_of_mem hr
  simp only [Bool.and_eq_true, decide_eq_true_eq] at hp
  have hgood := h.guards g r hg
  obtain ⟨x', hx', hs⟩ := hgood.placed
  rw [hp.1, hx] at hx'
  exact ⟨g, r, hg, hp.1, by rw [Option.some.inj hx', hs], hgood.live hp.2⟩

/-- What a step does to one guard and its lock. -/
structure LockStep (s s' : LockTable) (g : ℕ) (r : LockGuard) (x : LocalLock)
    (f : LockGuard → LockGuard) (l : AsyncLock) : Prop where
  guard : s.guards[g]? = some r
  lock : s.locks[r.lock]? = some x
  /-- Only the guard changes. -/
  guards : s'.guards = (s.mark g f).guards
  /-- Only its lock changes. -/
  locks : s'.locks = (s.setLock r.lock l).locks
  /-- Its session is the same. -/
  sid : (f r).sid = r.sid
  /-- Its lock is the same. -/
  place : (f r).lock = r.lock
  /-- One that is left does not hold the lock. -/
  live : (f r).holds = true → (f r).phase ≠ .left
  /-- Whoever is inside holds it. -/
  inside : (f r).phase = .inside → (f r).holds = true
  /-- Nobody overtakes the one that was woken. -/
  orderly : l.Orderly
  /-- The lock changes hands with the guard. -/
  balance : (if l.locked then 1 else 0) + (if r.holds then 1 else 0) =
    (if x.lock.locked then 1 else 0) + if (f r).holds then 1 else 0
  /-- Nobody joins the queue. -/
  queue : ∀ w ∈ l.queue, w ∈ x.lock.queue
  /-- The guard stays in it only while it waits. -/
  stays : g ∈ l.queue → (f r).phase = .entering ∧ (f r).holds = false

/-- A lock that changes is still its session's. -/
theorem LockTable.placed_setLock (hlocks : s'.locks = (s.setLock n l).locks)
    (h : ∃ y, s.locks[r.lock]? = some y ∧ y.sid = r.sid) :
    ∃ y, s'.locks[r.lock]? = some y ∧ y.sid = r.sid := by
  obtain ⟨y, hy, hys⟩ := h
  rw [hlocks, LockTable.locks_setLock]
  split
  · exact ⟨{ y with lock := l }, by rw [hy]; rfl, hys⟩
  · exact ⟨y, hy, hys⟩

theorem LockStep.locks_good (h : LockInv s) (hs : LockStep s s' g r x f l) {n : ℕ} {y : LocalLock}
    (hy : s'.locks[n]? = some y) : y.Good s' n := by
  have hget (w) : s'.guards[w]? = if g = w then s.guards[w]?.map f else s.guards[w]? := by
    rw [hs.guards, LockTable.guards_mark]
  have hcount := LockTable.countP_mark (f := f) (fun r => decide (r.lock = n) && r.holds) hs.guard
  rw [hs.place] at hcount
  rw [hs.locks, LockTable.locks_setLock] at hy
  by_cases hn : r.lock = n
  · subst hn
    rw [if_pos rfl, hs.lock] at hy
    obtain rfl := Option.some.inj hy
    have hgood := h.locks _ x hs.lock
    refine ⟨hs.orderly, ?_, fun w hw => ?_⟩
    · have hheld := hgood.held
      have hbal := hs.balance
      unfold LockTable.holders at hheld ⊢
      rw [hs.guards]
      simp only [decide_true, Bool.true_and] at hcount
      show List.countP _ _ = if l.locked = true then 1 else 0
      omega
    · rw [hget]
      obtain ⟨r', hw', hl, hp, hh⟩ := hgood.waiting w (hs.queue w hw)
      split
      · rename_i heq
        subst heq
        obtain ⟨hp', hh'⟩ := hs.stays hw
        exact ⟨f r, by rw [hs.guard]; rfl, hs.place, hp', hh'⟩
      · exact ⟨r', hw', hl, hp, hh⟩
  · rw [if_neg hn] at hy
    have hgood := h.locks _ y hy
    refine ⟨hgood.orderly, ?_, fun w hw => ?_⟩
    · have hheld := hgood.held
      unfold LockTable.holders at hheld ⊢
      rw [hs.guards]
      simp only [hn, decide_false, Bool.false_and] at hcount
      omega
    · obtain ⟨r', hw', hl, hp, hh⟩ := hgood.waiting w hw
      rw [hget]
      split
      · rename_i heq
        subst heq
        rw [hs.guard] at hw'
        obtain rfl := Option.some.inj hw'
        exact absurd hl hn
      · exact ⟨r', hw', hl, hp, hh⟩

/-- A guard that is not left by the step keeps the invariant. -/
theorem LockStep.inv (h : LockInv s) (hs : LockStep s s' g r x f l)
    (hp : (f r).phase = .left ↔ r.phase = .left) (hl : s'.localLocks = s.localLocks)
    (hr : s'.localRefs = s.localRefs) : LockInv s' := by
  have hu (sid) : s'.users sid = s.users sid := by
    have := LockTable.users_mark (f := f) hs.guard hs.sid hp sid
    unfold LockTable.users at this ⊢
    rw [hs.guards, this]
  refine ⟨fun g' r' hg' => ?_, fun n y hy => hs.locks_good h hy, fun sid n hm => ?_, fun sid => ?_⟩
  · rw [hs.guards, LockTable.guards_mark] at hg'
    split at hg'
    · rename_i heq
      subst heq
      rw [hs.guard] at hg'
      obtain rfl := Option.some.inj hg'
      have hgood := h.guards _ r hs.guard
      refine ⟨?_, fun hne => ?_, hs.live, hs.inside⟩
      · rw [hs.place, hs.sid]
        exact LockTable.placed_setLock hs.locks hgood.placed
      · rw [hl, hs.sid, hs.place]
        exact hgood.current (mt hp.2 hne)
    · have hgood := h.guards g' r' hg'
      exact ⟨LockTable.placed_setLock hs.locks hgood.placed,
        fun hne => by rw [hl]; exact hgood.current hne, hgood.live, hgood.inside⟩
  · rw [hu]
    exact h.mapped sid n (hl ▸ hm)
  · rw [hu, hr]
    exact h.counted sid

/-! ### Steps -/

theorem LockTable.locks_setLock_self (hx : s.locks[n]? = some x) :
    (s.setLock n x.lock).locks = s.locks := by
  refine List.ext_getElem? fun m => ?_
  rw [LockTable.locks_setLock]
  split
  · rename_i heq
    subst heq
    rw [hx]
    rfl
  · rfl

/-- A guard that holds its lock goes on to another phase. -/
theorem LockInv.rephase (h : LockInv s) (hg : s.guards[g]? = some r) (hh : r.holds = true)
    {p : GuardPhase} (hp : p ≠ .left) : LockInv (s.mark g fun r => { r with phase := p }) := by
  have hgood := h.guards g r hg
  obtain ⟨x, hx, -⟩ := hgood.placed
  have hlock := h.locks _ x hx
  refine LockStep.inv (s := s) (f := fun r => { r with phase := p }) h
    ⟨hg, hx, rfl, (LockTable.locks_setLock_self hx).symm, rfl, rfl, fun _ => hp, fun _ => hh,
      hlock.orderly, rfl, fun _ hw => hw, fun hw => ?_⟩ (by simp [hp, hgood.live hh]) rfl rfl
  -- The guard is not in the queue: those who wait do not hold the lock.
  obtain ⟨r', hr', -, -, hf⟩ := hlock.waiting g hw
  rw [hg] at hr'
  rw [Option.some.inj hr', hf] at hh
  cases hh

theorem LockInv.resumed (h : LockInv s) (hg : s.guards[g]? = some r) (hh : r.holds = false)
    (hp : r.phase = .entering) (hr : (s.lockAt r.lock).resume g = some (l, true)) :
    LockInv ((s.setLock r.lock l).mark g fun r => { r with holds := true }) := by
  obtain ⟨x, hx, -⟩ := (h.guards g r hg).placed
  have hlock := h.locks _ x hx
  rw [LockTable.lockAt_eq hx] at hr
  obtain ⟨hfree, hheld, horderly⟩ := AsyncLock.resume_true hlock.orderly hr
  have hqueue := AsyncLock.queue_resume hr
  refine LockStep.inv (s := s) (f := fun r => { r with holds := true }) h
    ⟨hg, hx, rfl, rfl, rfl, rfl, fun _ => by simp [hp], fun _ => rfl, horderly, ?_, fun w hw => ?_,
      fun hw => ?_⟩ Iff.rfl rfl rfl
  · simp [hfree, hheld, hh]
  · rw [hqueue] at hw
    exact List.mem_of_mem_filter hw
  · rw [hqueue] at hw
    exact absurd (List.mem_filter.1 hw).2 (by simp)

theorem LockInv.struckWaiting (h : LockInv s) (hg : s.guards[g]? = some r) (hh : r.holds = false)
    (hp : r.phase = .entering) (hr : (s.lockAt r.lock).resume g = some (l, false)) :
    LockInv ((s.setLock r.lock l).mark g fun r => { r with phase := .struck }) := by
  obtain ⟨x, hx, -⟩ := (h.guards g r hg).placed
  have hlock := h.locks _ x hx
  rw [LockTable.lockAt_eq hx] at hr
  obtain ⟨hsame, horderly⟩ := AsyncLock.resume_false hlock.orderly hr
  have hqueue := AsyncLock.queue_resume hr
  refine LockStep.inv (s := s) (f := fun r => { r with phase := .struck }) h
    ⟨hg, hx, rfl, rfl, rfl, rfl, fun _ => by simp, fun hi => by simp at hi, horderly, ?_,
      fun w hw => ?_, fun hw => ?_⟩ (by simp [hp]) rfl rfl
  · simp [hsame]
  · rw [hqueue] at hw
    exact List.mem_of_mem_filter hw
  · rw [hqueue] at hw
    exact absurd (List.mem_filter.1 hw).2 (by simp)

theorem LockInv.cancelled (h : LockInv s) (hg : s.guards[g]? = some r) :
    LockInv (s.setLock r.lock ((s.lockAt r.lock).cancel g)) := by
  have hgood := h.guards g r hg
  obtain ⟨x, hx, -⟩ := hgood.placed
  have hlock := h.locks _ x hx
  have hid : (s.mark g id).guards = s.guards := by
    refine List.ext_getElem? fun m => ?_
    rw [LockTable.guards_mark]
    split <;> simp
  rw [LockTable.lockAt_eq hx]
  refine LockStep.inv (s := s) (f := id) h
    ⟨hg, hx, hid.symm, rfl, rfl, rfl, hgood.live, hgood.inside, hlock.orderly.cancel g, rfl,
      fun w hw => ?_, fun hw => ?_⟩ Iff.rfl rfl rfl
  · rwa [AsyncLock.queue_cancel] at hw
  · rw [AsyncLock.queue_cancel] at hw
    obtain ⟨r', hr', -, hp, hf⟩ := hlock.waiting g hw
    rw [hg] at hr'
    obtain rfl := Option.some.inj hr'
    exact ⟨hp, hf⟩

theorem LockTable.releaseLocal_guards (sid : SessionId) :
    (s.releaseLocal sid).guards = s.guards := by
  unfold LockTable.releaseLocal
  dsimp only
  split <;> rfl

theorem LockTable.releaseLocal_locks (sid : SessionId) :
    (s.releaseLocal sid).locks = s.locks := by
  unfold LockTable.releaseLocal
  dsimp only
  split <;> rfl

/-- With the last reference goes the entry. -/
theorem LockTable.releaseLocal_lookup {k : ℕ} (hk : s.localRefs.lookup sid = some (k + 1))
    (sid' : SessionId) :
    (s.releaseLocal sid).localLocks.lookup sid' =
      (if sid' = sid ∧ k = 0 then none else s.localLocks.lookup sid') ∧
    (s.releaseLocal sid).localRefs.lookup sid' =
      if sid' = sid then if k = 0 then none else some k else s.localRefs.lookup sid' := by
  simp only [LockTable.releaseLocal, hk, Option.getD_some, Nat.add_sub_cancel]
  by_cases h0 : k = 0
  · rw [if_pos h0]
    by_cases hs : sid' = sid
    · subst hs
      simp [h0]
    · simp [hs, AList.lookup_erase_ne hs]
  · rw [if_neg h0]
    by_cases hs : sid' = sid
    · subst hs
      simp [h0]
    · simp [h0, hs, AList.lookup_insert_ne hs]

theorem LockInv.released (h : LockInv s) (hg : s.guards[g]? = some r) (hh : r.holds = true)
    (hr : (s.lockAt r.lock).release = some l) :
    LockInv (((s.setLock r.lock l).releaseLocal r.sid).mark g fun r =>
      { r with holds := false, phase := .left }) := by
  have hgood := h.guards g r hg
  obtain ⟨x, hx, -⟩ := hgood.placed
  have hlock := h.locks _ x hx
  have hlive := hgood.live hh
  rw [LockTable.lockAt_eq hx] at hr
  obtain ⟨hheld, hfree, horderly⟩ := AsyncLock.release_eq_some hlock.orderly hr
  have hqueue := AsyncLock.queue_release hr
  generalize hf : (fun r : LockGuard => { r with holds := false, phase := .left }) = f
  generalize hs' : ((s.setLock r.lock l).releaseLocal r.sid).mark g f = s'
  have hguards : s'.guards = (s.mark g f).guards := by
    rw [← hs', LockTable.mark, LockTable.releaseLocal_guards]
    rfl
  have hstep : LockStep s s' g r x f l := by
    refine ⟨hg, hx, hguards, ?_, ?_, ?_, ?_, ?_, horderly, ?_, fun w hw => hqueue ▸ hw,
      fun hw => ?_⟩
    · rw [← hs', LockTable.mark, LockTable.releaseLocal_locks]
    · rw [← hf]
    · rw [← hf]
    · simp [← hf]
    · simp [← hf]
    · simp [← hf, hheld, hfree, hh]
    · rw [hqueue] at hw
      obtain ⟨r', hr', -, -, hno⟩ := hlock.waiting g hw
      rw [hg] at hr'
      rw [Option.some.inj hr', hno] at hh
      cases hh
  -- The session has one user less.
  have hu (sid) : s'.users sid + (if r.sid = sid then 1 else 0) = s.users sid := by
    have hc := LockTable.countP_mark (f := f)
      (fun r => decide (r.sid = sid) && decide (r.phase ≠ .left)) hg
    rw [← hguards] at hc
    simpa [← hf, hlive, LockTable.users] using hc
  have hself := hu r.sid
  rw [if_pos rfl] at hself
  have hrefs : (s.setLock r.lock l).localRefs.lookup r.sid = some (s'.users r.sid + 1) := by
    show s.localRefs.lookup r.sid = _
    rw [h.counted, if_neg (by omega), hself]
  have hlookup (sid') := LockTable.releaseLocal_lookup hrefs sid'
  have hlocal (sid') : s'.localLocks.lookup sid' =
      if sid' = r.sid ∧ s'.users r.sid = 0 then none else s.localLocks.lookup sid' := by
    have := (hlookup sid').1
    rw [← hs'] at this ⊢
    exact this
  refine ⟨fun g' r' hg' => ?_, fun n y hy => hstep.locks_good h hy, fun sid n hm => ?_,
    fun sid => ?_⟩
  · have hplaced (r' : LockGuard) (hpl : ∃ y, s.locks[r'.lock]? = some y ∧ y.sid = r'.sid) :
        ∃ y, s'.locks[r'.lock]? = some y ∧ y.sid = r'.sid := by
      obtain ⟨y, hy, hys⟩ := hpl
      rw [hstep.locks, LockTable.locks_setLock]
      split
      · exact ⟨{ y with lock := l }, by rw [hy]; rfl, hys⟩
      · exact ⟨y, hy, hys⟩
    have hg'' := hg'
    rw [hguards, LockTable.guards_mark] at hg'
    split at hg'
    · rename_i heq
      subst heq
      rw [hg] at hg'
      obtain rfl := Option.some.inj hg'
      subst hf
      exact ⟨LockTable.placed_setLock hstep.locks hgood.placed, fun hne => absurd rfl hne,
        fun hc => absurd hc (by simp), fun hc => absurd hc (by simp)⟩
    · have hgood' := h.guards g' r' hg'
      refine ⟨LockTable.placed_setLock hstep.locks hgood'.placed, fun hne => ?_, hgood'.live,
        hgood'.inside⟩
      have hmany := LockTable.users_ne_zero hg'' hne
      rw [hlocal, if_neg, hgood'.current hne]
      rintro ⟨hsid, hzero⟩
      rw [hsid] at hmany
      exact hmany hzero
  · rw [hlocal] at hm
    split at hm
    · cases hm
    · rename_i hcase
      by_cases hsid : sid = r.sid
      · subst hsid
        exact fun hzero => hcase ⟨rfl, hzero⟩
      · have hsame := hu sid
        rw [if_neg (Ne.symm hsid), Nat.add_zero] at hsame
        rw [hsame]
        exact h.mapped sid n hm
  · have hrefs' := (hlookup sid).2
    rw [← hs']
    show ((s.setLock r.lock l).releaseLocal r.sid).localRefs.lookup sid = _
    rw [hrefs', hs']
    split
    · rename_i hsid
      rw [hsid]
    · rename_i hsid
      have hsame := hu sid
      rw [if_neg (Ne.symm hsid), Nat.add_zero] at hsame
      rw [hsame]
      exact h.counted sid

/-- What `_acquire_local` yields. -/
structure AcquiredLocal (s s₁ : LockTable) (sid : SessionId) (n : ℕ) (x : LocalLock) : Prop where
  /-- No guard changes. -/
  guards : s₁.guards = s.guards
  lock : s₁.locks[n]? = some x
  made : x.sid = sid
  good : x.Good s n
  /-- The others are what they were. -/
  locks : ∀ m, m ≠ n → s₁.locks[m]? = s.locks[m]?
  /-- Where it was there it is the same. -/
  same : ∀ y, s.locks[n]? = some y → y = x
  /-- Else it is new. -/
  fresh : s.locks[n]? = some x ∨ x.lock = {}
  /-- The session's lock is this one. -/
  entry : ∀ sid', s₁.localLocks.lookup sid' =
    if sid' = sid then some n else s.localLocks.lookup sid'
  /-- If it had one before that is it. -/
  kept : ∀ m, s.localLocks.lookup sid = some m → m = n
  /-- One more reference. -/
  refs : ∀ sid', s₁.localRefs.lookup sid' =
    if sid' = sid then some (s.users sid + 1) else s.localRefs.lookup sid'

theorem LockInv.acquireLocal (h : LockInv s) (sid : SessionId) :
    ∃ x, AcquiredLocal s (s.acquireLocal sid).1 sid (s.acquireLocal sid).2 x := by
  have hrefs : (s.localRefs.lookup sid).getD 0 = s.users sid := by
    rw [h.counted]
    split
    · rename_i h0
      exact h0.symm
    · rfl
  unfold LockTable.acquireLocal
  cases hl : s.localLocks.lookup sid with
  | some n =>
    -- Somebody uses it, so there is a lock, and it is the session's.
    have hpos := Nat.pos_of_ne_zero (h.mapped sid n hl)
    obtain ⟨r, hr, hp⟩ := List.countP_pos_iff.1 hpos
    simp only [Bool.and_eq_true, decide_eq_true_eq] at hp
    obtain ⟨g, hg⟩ := List.getElem?_of_mem hr
    have hgood := h.guards g r hg
    obtain rfl := hp.1
    obtain rfl := Option.some.inj ((hgood.current hp.2).symm.trans hl)
    obtain ⟨x, hx, hxs⟩ := hgood.placed
    refine ⟨x, rfl, hx, hxs, h.locks _ x hx, fun _ _ => rfl,
      fun y hy => Option.some.inj (hy.symm.trans hx), .inl hx, fun sid' => ?_,
      fun m hm => Option.some.inj (hm.symm.trans hl), fun sid' => ?_⟩
    · show AList.lookup sid' s.localLocks = if sid' = r.sid then some r.lock else _
      split
      · rename_i heq
        rw [heq]
        exact hl
      · rfl
    · show AList.lookup sid' (s.localRefs.insert r.sid _) = _
      rw [Table.lookup_insert, hrefs]
  | none =>
    refine ⟨{ sid := sid }, rfl, by simp, rfl, ⟨AsyncLock.Orderly.init, ?_, by simp [AsyncLock.queue]⟩,
      fun m hm => ?_, fun y hy => by simp at hy, .inr rfl, fun sid' => ?_, by simp [hl],
      fun sid' => ?_⟩
    · -- Every guard has its lock among those made before.
      show s.holders s.locks.length = 0
      refine List.countP_eq_zero.2 fun r hr => ?_
      obtain ⟨g, hg⟩ := List.getElem?_of_mem hr
      obtain ⟨x, hx, -⟩ := (h.guards g r hg).placed
      have hlt := (List.getElem?_eq_some_iff.1 hx).1
      simp [show r.lock ≠ s.locks.length by omega]
    · show (s.locks ++ [_])[m]? = _
      rcases Nat.lt_or_ge m s.locks.length with hlt | hge
      · exact List.getElem?_append_left hlt
      · rw [List.getElem?_eq_none hge, List.getElem?_eq_none]
        rw [List.length_append, List.length_singleton]
        have hm' : m ≠ s.locks.length := hm
        omega
    · show AList.lookup sid' (s.localLocks.insert sid _) = _
      rw [Table.lookup_insert]
    · show AList.lookup sid' (s.localRefs.insert sid _) = _
      rw [Table.lookup_insert, hrefs]

/-- Acquiring the lock changes no other. -/
theorem AcquiredLocal.locks_setLock {s₁ : LockTable} (ha : AcquiredLocal s s₁ sid n x)
    (l : AsyncLock) (m : ℕ) : (s₁.setLock n l).locks[m]? =
      if n = m then some { x with lock := l } else s.locks[m]? := by
  rw [LockTable.locks_setLock]
  split
  · rename_i heq
    subst heq
    rw [ha.lock]
    rfl
  · rename_i hne
    exact ha.locks m (Ne.symm hne)

theorem LockInv.entered (h : LockInv s) {sid : SessionId} {e : LockEnv} {p : ℕ × Bool}
    (he : (LockAct.enter sid).exec e s = some (s', p)) : LockInv s' := by
  obtain ⟨x, ha⟩ := h.acquireLocal sid
  revert he
  simp only [LockAct.exec]
  generalize s.acquireLocal sid = q at ha ⊢
  obtain ⟨s₁, n⟩ := q
  dsimp only at ha ⊢
  rw [LockTable.lockAt_eq ha.lock, ha.guards]
  rcases hacq : x.lock.acquire s.guards.length with ⟨l, acquired⟩
  intro he
  obtain ⟨rfl, -⟩ := Prod.mk.inj (Option.some.inj he)
  generalize hr : (⟨sid, n, acquired, .entering⟩ : LockGuard) = r
  generalize hs' : ({ s₁.setLock n l with guards := s.guards ++ [r] } : LockTable) = s'
  have hguards : s'.guards = s.guards ++ [r] := by rw [← hs']
  have hget (g : ℕ) (r' : LockGuard) (hg : s.guards[g]? = some r') : s'.guards[g]? = some r' := by
    rw [hguards, List.getElem?_append_left (List.getElem?_eq_some_iff.1 hg).1, hg]
  have hlocks (m : ℕ) : s'.locks[m]? =
      if n = m then some { x with lock := l } else s.locks[m]? := by
    rw [← ha.locks_setLock, ← hs']
  have hlocal (sid') : s'.localLocks.lookup sid' =
      if sid' = sid then some n else s.localLocks.lookup sid' := by
    rw [← ha.entry, ← hs']
    rfl
  have hu (sid') : s'.users sid' = s.users sid' + if sid' = sid then 1 else 0 := by
    rw [LockTable.users, hguards, List.countP_append, List.countP_singleton]
    by_cases hsid : sid' = sid
    · simp [← hr, hsid, LockTable.users]
    · simp [← hr, hsid, Ne.symm hsid, LockTable.users]
  have hh (m) : s'.holders m = s.holders m + if n = m ∧ acquired = true then 1 else 0 := by
    rw [LockTable.holders, hguards, List.countP_append, List.countP_singleton]
    simp [← hr, LockTable.holders]
  refine ⟨fun g r' hg => ?_, fun m y hy => ?_, fun sid' m hm => ?_, fun sid' => ?_⟩
  · rw [hguards] at hg
    rcases Nat.lt_trichotomy g s.guards.length with hlt | heq | hgt
    · -- A guard that was there.
      rw [List.getElem?_append_left hlt] at hg
      have hgood := h.guards g r' hg
      obtain ⟨y, hy, hys⟩ := hgood.placed
      refine ⟨?_, fun hne => ?_, hgood.live, hgood.inside⟩
      · rw [hlocks]
        split
        · rename_i hn
          rw [← hn] at hy
          exact ⟨_, rfl, by rw [← ha.same y hy] at *; exact hys⟩
        · exact ⟨y, hy, hys⟩
      · have hcur := hgood.current hne
        rw [hlocal]
        split
        · rename_i hsid
          rw [hsid] at hcur
          rw [ha.kept _ hcur]
        · exact hcur
    · -- The new one.
      subst heq
      rw [List.getElem?_append_right le_rfl, Nat.sub_self] at hg
      obtain rfl := Option.some.inj hg
      subst hr
      refine ⟨⟨{ x with lock := l }, ?_, ha.made⟩, fun _ => ?_, fun _ => by simp, fun hc => by simp at hc⟩
      · rw [hlocks, if_pos rfl]
      · rw [hlocal, if_pos rfl]
    · have hlen : (s.guards ++ [r]).length ≤ g := by simp; omega
      rw [List.getElem?_eq_none hlen] at hg
      cases hg
  · rw [hlocks] at hy
    split at hy
    · rename_i hn
      subst hn
      obtain rfl := Option.some.inj hy
      have hgood := ha.good
      refine ⟨hgood.orderly.acquire hacq, ?_, fun w hw => ?_⟩
      · rw [hh, hgood.held]
        cases acquired with
        | true =>
          obtain ⟨hfree, rfl, -⟩ := AsyncLock.acquire_true hacq
          simp [hfree]
        | false =>
          obtain rfl := AsyncLock.acquire_false hacq
          simp
      · have hold (hw : w ∈ x.lock.queue) : ∃ r', s'.guards[w]? = some r' ∧ r'.lock = n ∧
            r'.phase = .entering ∧ r'.holds = false := by
          obtain ⟨r', hr', hrest⟩ := hgood.waiting w hw
          exact ⟨r', hget w r' hr', hrest⟩
        cases acquired with
        | true =>
          obtain ⟨-, rfl, -⟩ := AsyncLock.acquire_true hacq
          exact hold hw
        | false =>
          obtain rfl := AsyncLock.acquire_false hacq
          simp only [AsyncLock.queue, List.map_append, List.mem_append, List.map_cons, List.map_nil,
            List.mem_singleton] at hw
          obtain hw | rfl := hw
          · exact hold hw
          · refine ⟨r, by rw [hguards, List.getElem?_append_right le_rfl, Nat.sub_self]; rfl, ?_⟩
            simp [← hr]
    · rename_i hn
      have hgood := h.locks m y hy
      refine ⟨hgood.orderly, ?_, fun w hw => ?_⟩
      · rw [hh, if_neg (fun hc => hn hc.1), Nat.add_zero, hgood.held]
      · obtain ⟨r', hr', hrest⟩ := hgood.waiting w hw
        exact ⟨r', hget w r' hr', hrest⟩
  · rw [hu]
    rw [hlocal] at hm
    split at hm
    · rename_i hsid
      rw [if_pos hsid]
      omega
    · rename_i hsid
      rw [if_neg hsid]
      exact h.mapped sid' m hm
  · have hrefs := ha.refs sid'
    have hsame : s'.localRefs = s₁.localRefs := by rw [← hs']; rfl
    rw [hsame, hrefs, hu]
    split
    · rename_i hsid
      rw [if_neg (by omega), hsid]
    · exact h.counted sid'

end

end Backplane
