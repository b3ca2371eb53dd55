import Backplane.Router.Effects

/-!
# Every reachable database is well formed

* `Deployment` : what a router starts with; `Deployment.boot` is its first state.
* `Wf cfg db` : rows are stored under their key, a child belongs to the user of its parent, every
  tree is within the spawn depth, no task is waiting for children, every task has its session.
* `mem_listDescendants` : in a well-formed database the bounded search finds every descendant.
* `ancestry` : what a coroutine has to know before it lists descendants or inserts a task.
* `wf_of_run`, `owner_of_run` : every run keeps all of this.
-/

namespace Backplane

open Concur

/-- What a router starts with. -/
structure Deployment where
  users : Table UserId UserRow := ∅
  agents : Table AgentId AgentRow := ∅
  sessions : Table SessionId SessionRow := ∅
  files : Table String FileRow := ∅
  rules : List Rule := []

/-- The first state: no task, no name, no socket. -/
def Deployment.boot (d : Deployment) : Router where
  db := { users := d.users, agents := d.agents, sessions := d.sessions, files := d.files }
  rules := d.rules

/-! ### Well-formed databases -/

/-- What holds of the database in every reachable state. -/
structure Wf (cfg : Config) (db : Db) : Prop where
  /-- A row is stored under its key. -/
  key : ∀ {t r}, db.tasks.lookup t = some r → r.taskId = t
  /-- The parent exists and belongs to the same user. -/
  parent : ∀ {t r p}, db.tasks.lookup t = some r → r.parentTaskId = some p →
    ∃ r', db.tasks.lookup p = some r' ∧ r'.userId = r.userId
  /-- No chain is longer than the bound. -/
  depth : ∀ {t r}, db.tasks.lookup t = some r →
    ∃ n ≤ cfg.spawnMaxDepth, Forest.Depth db.tasks.parent t n
  /-- Nothing ever waits for children. -/
  waiting : ∀ {t r}, db.tasks.lookup t = some r → r.state ≠ .waitingChildren
  /-- The session exists and belongs to the same user. -/
  session : ∀ {t r}, db.tasks.lookup t = some r →
    ∃ x, db.sessions.lookup r.sessionId = some x ∧ x.userId = r.userId

section

variable {cfg : Config} {named : List TaskId} {db db' : Db} {x : Event Act} {t : TaskId}
  {r r' : TaskRow} {u : UserId}

theorem Tasks.parent_eq {ts : Tasks} (hr : ts.lookup t = some r) :
    ts.parent t = r.parentTaskId := by
  simp [Tasks.parent, hr]

/-- A session stays, with its owner. -/
theorem Effect.session (h : Effect named db x db') {y : SessionId} {row : SessionRow}
    (hy : db.sessions.lookup y = some row) :
    ∃ row', db'.sessions.lookup y = some row' ∧ row'.userId = row.userId := by
  cases h with
  | @close u z now =>
    simp only [Db.closeSessionTx]
    cases hg : db.getSession u z with
    | none => exact ⟨row, hy, rfl⟩
    | some row' =>
      dsimp only
      split_ifs
      · exact ⟨row, hy, rfl⟩
      · rw [Table.lookup_insert]
        split_ifs with he
        · subst he
          rw [(Db.getSession_eq_some.1 hg).1, Option.some.injEq] at hy
          exact ⟨_, rfl, hy ▸ rfl⟩
        · exact ⟨row, hy, rfl⟩
  | @reopen u z row' hz =>
    dsimp only
    rw [Table.lookup_insert]
    split_ifs with he
    · subst he
      rw [hz, Option.some.injEq] at hy
      exact ⟨_, rfl, hy ▸ rfl⟩
    · exact ⟨row, hy, rfl⟩
  | @openSession u z now hz =>
    refine ⟨row, (AList.lookup_insert_ne fun he => ?_).trans hy, rfl⟩
    rw [he, hz] at hy
    exact absurd hy (by simp)
  | _ => exact ⟨row, hy, rfl⟩

/-- A state changes to the target of a transition or to a terminal state. -/
theorem Effect.state (h : Effect named db x db') (hr : db.tasks.lookup t = some r)
    (hr' : db'.tasks.lookup t = some r') :
    r'.state = r.state ∨ (∃ new c out, x = ⟨.transition t new c, out⟩ ∧ r'.state = new) ∨
      r'.state.isTerminal = true := by
  have hupd : ∀ t₀ (f : TaskRow → TaskRow), AList.lookup t (db.tasks.update t₀ f) = some r' →
      r' = r ∨ (t = t₀ ∧ r' = f r) := by
    intro t₀ f hu
    rw [Table.lookup_update] at hu
    split_ifs at hu with he
    · subst he
      rw [hr] at hu
      exact .inr ⟨rfl, (Option.some.inj hu).symm⟩
    · exact .inl (Option.some.inj (hu.symm.trans hr))
  have hsame : db.tasks.lookup t = some r' → r' = r := fun hu => Option.some.inj (hu.symm.trans hr)
  cases h with
  | @create f caller d now root newId y hnew =>
    have ht : t ≠ newId := fun he => by rw [he, hnew] at hr; exact absurd hr (by simp)
    exact .inl (by rw [hsame ((AList.lookup_insert_ne ht).symm.trans hr')])
  | move =>
    rcases hupd _ _ hr' with rfl | ⟨rfl, rfl⟩
    · exact .inl rfl
    · exact .inr (.inl ⟨_, _, _, rfl, rfl⟩)
  | @result f =>
    rcases hupd _ _ hr' with rfl | ⟨rfl, rfl⟩
    · exact .inl rfl
    · exact .inr (.inr (isTerminal_stateFromStatus f.status))
  | forceFail =>
    rcases hupd _ _ hr' with rfl | ⟨rfl, rfl⟩
    · exact .inl rfl
    · exact .inr (.inr rfl)
  | handOver =>
    rcases hupd _ _ hr' with rfl | ⟨rfl, rfl⟩ <;> exact .inl rfl
  | _ => exact .inl (by rw [hsame hr'])

theorem Effect.parent_eq (h : Effect named db x db') (hr : db.tasks.lookup t = some r) :
    db'.tasks.parent t = db.tasks.parent t := by
  obtain ⟨r', hr', hl⟩ := h.later hr
  rw [Tasks.parent_eq hr, Tasks.parent_eq hr', hl.parentTaskId]

/-- The depth of a task never changes. -/
theorem Wf.depth_effect (hw : Wf cfg db) (h : Effect named db x db')
    (hr : db.tasks.lookup t = some r) {n : ℕ} (hd : Forest.Depth db.tasks.parent t n) :
    Forest.Depth db'.tasks.parent t n := by
  induction hd generalizing r with
  | root hroot => exact .root ((h.parent_eq hr).trans hroot)
  | child hp _ ih =>
    obtain ⟨ra, hra, -⟩ := hw.parent hr ((Tasks.parent_eq hr).symm.trans hp)
    exact .child ((h.parent_eq hr).trans hp) (ih hra)

/-- A parent stays, and stays of the user of its child. -/
theorem Effect.parent_owned (h : Effect named db x db')
    (hp : ∀ {t r p}, db.tasks.lookup t = some r → r.parentTaskId = some p →
      ∃ r', db.tasks.lookup p = some r' ∧ r'.userId = r.userId) {p : TaskId}
    (hr' : db'.tasks.lookup t = some r') (hp' : r'.parentTaskId = some p) :
    ∃ q, db'.tasks.lookup p = some q ∧ q.userId = r'.userId := by
  have hlift : ∀ q, db.tasks.lookup p = some q → q.userId = r'.userId →
      ∃ q', db'.tasks.lookup p = some q' ∧ q'.userId = r'.userId := by
    intro q hq hu
    obtain ⟨q', hq', hl⟩ := h.later hq
    exact ⟨q', hq', hl.userId.trans hu⟩
  cases hr : db.tasks.lookup t with
  | none =>
    obtain ⟨f, c, d, now, root, -, rfl, -, -, hpar⟩ := h.created hr hr'
    obtain ⟨q, hq, hu⟩ := hpar p hp'
    exact hlift q hq hu
  | some r =>
    obtain ⟨r₁, hr₁, hl⟩ := h.later hr
    obtain rfl := Option.some.inj (hr'.symm.trans hr₁)
    obtain ⟨q, hq, hu⟩ := hp hr (hl.parentTaskId.symm.trans hp')
    exact hlift q hq (hu.trans hl.userId.symm)

/-- The session of a task stays, and stays of the user of the task. -/
theorem Effect.session_owned (h : Effect named db x db')
    (hs : ∀ {t r}, db.tasks.lookup t = some r →
      ∃ y, db.sessions.lookup r.sessionId = some y ∧ y.userId = r.userId)
    (hr' : db'.tasks.lookup t = some r') :
    ∃ y, db'.sessions.lookup r'.sessionId = some y ∧ y.userId = r'.userId := by
  cases hr : db.tasks.lookup t with
  | none =>
    obtain ⟨f, c, d, now, root, -, rfl, -, ⟨y, hy, hu, -⟩, -⟩ := h.created hr hr'
    obtain ⟨y', hy', hu'⟩ := h.session hy
    exact ⟨y', hy', hu'.trans hu⟩
  | some r =>
    obtain ⟨r₁, hr₁, hl⟩ := h.later hr
    obtain rfl := Option.some.inj (hr'.symm.trans hr₁)
    obtain ⟨y, hy, hu⟩ := hs hr
    obtain ⟨y', hy', hu'⟩ := h.session hy
    exact ⟨y', hl.sessionId ▸ hy', hu'.trans (hu.trans hl.userId.symm)⟩

/-- **One effect keeps the database well formed**, if no transition aims at `WAITING_CHILDREN` and
a new task has a parent that is not too deep. -/
theorem Wf.effect (hw : Wf cfg db) (h : Effect named db x db')
    (hwait : ∀ t c out, x ≠ ⟨.transition t .waitingChildren c, out⟩)
    (hdepth : ∀ f caller d r, x = ⟨.createTask f caller d, .created r⟩ →
      ∀ p rp, f.parentTaskId = some p → db.tasks.lookup p = some rp → rp.userId = f.userId →
        ∃ n < cfg.spawnMaxDepth, Forest.Depth db.tasks.parent p n) :
    Wf cfg db' where
  key := by
    intro t r' hr'
    cases hr : db.tasks.lookup t with
    | none => obtain ⟨f, c, d, now, root, -, rfl, -⟩ := h.created hr hr'; rfl
    | some r =>
      obtain ⟨r₁, hr₁, hl⟩ := h.later hr
      obtain rfl := Option.some.inj (hr'.symm.trans hr₁)
      exact hl.taskId.trans (hw.key hr)
  parent := h.parent_owned hw.parent
  depth := by
    intro t r' hr'
    cases hr : db.tasks.lookup t with
    | none =>
      obtain ⟨f, c, d, now, root, rfl, rfl, -, -, hpar⟩ := h.created hr hr'
      cases hp : f.parentTaskId with
      | none => exact ⟨1, cfg.spawnMaxDepth_pos, .root ((Tasks.parent_eq hr').trans hp)⟩
      | some p =>
        obtain ⟨q, hq, hu⟩ := hpar p hp
        obtain ⟨n, hn, hd⟩ := hdepth f c d _ rfl p q hp hq hu
        exact ⟨n + 1, hn, .child ((Tasks.parent_eq hr').trans hp) (hw.depth_effect h hq hd)⟩
    | some r =>
      obtain ⟨n, hn, hd⟩ := hw.depth hr
      exact ⟨n, hn, hw.depth_effect h hr hd⟩
  waiting := by
    intro t r' hr'
    cases hr : db.tasks.lookup t with
    | none =>
      obtain ⟨f, c, d, now, root, -, rfl, -⟩ := h.created hr hr'
      exact TaskState.noConfusion
    | some r =>
      rcases h.state hr hr' with hs | ⟨new, c, out, hx, rfl⟩ | hs
      · exact hs ▸ hw.waiting hr
      · exact fun he => hwait t c out (he ▸ hx)
      · exact fun he => by simp [he, TaskState.isTerminal] at hs
  session := h.session_owned hw.session

/-! ### The recursive queries -/

/-- The count of the ancestor chain is the depth, for the owner of the task. -/
theorem Wf.chainDepth_eq (hw : Wf cfg db) {n fuel : ℕ}
    (hd : Forest.Depth db.tasks.parent t n) (hr : db.tasks.lookup t = some r) (hf : n ≤ fuel) :
    db.tasks.chainDepth r.userId fuel t = n := by
  induction hd generalizing r fuel with
  | root h =>
    obtain ⟨fuel, rfl⟩ := Nat.exists_eq_succ_of_ne_zero (n := fuel) (by omega)
    rw [Tasks.parent_eq hr] at h
    simp [Tasks.chainDepth, hr, h]
  | @child d a n h ha ih =>
    obtain ⟨fuel, rfl⟩ := Nat.exists_eq_succ_of_ne_zero (n := fuel) (by omega)
    rw [Tasks.parent_eq hr] at h
    obtain ⟨ra, hra, hu⟩ := hw.parent hr h
    have hchain := ih hra (Nat.le_of_succ_le_succ hf)
    rw [hu] at hchain
    simp [Tasks.chainDepth, hr, h, hchain]

/-- The parent of a task of the user. -/
def Tasks.parentOf (ts : Tasks) (u : UserId) (t : TaskId) : Option TaskId :=
  ((ts.lookup t).filter fun r => r.userId = u).bind TaskRow.parentTaskId

theorem Tasks.parentOf_eq_some {ts : Tasks} {p : TaskId} :
    ts.parentOf u t = some p ↔
      ∃ r, ts.lookup t = some r ∧ r.userId = u ∧ r.parentTaskId = some p := by
  simp only [parentOf, Option.bind_eq_some_iff, Option.filter_eq_some_iff, decide_eq_true_eq,
    and_assoc]

theorem Tasks.mem_children {ts : Tasks} {p : TaskId} :
    t ∈ ts.children u p ↔ ts.parentOf u t = some p := by
  rw [parentOf_eq_some]
  simp only [children, List.mem_map, Prod.exists, exists_and_right, exists_eq_right,
    Table.mem_select, Bool.and_eq_true, decide_eq_true_eq, and_comm (a := TaskRow.userId _ = u)]

theorem Wf.below_parentOf (hw : Wf cfg db) (hr : db.tasks.lookup t = some r) {d : TaskId} :
    Forest.Below (db.tasks.parentOf r.userId) t d ↔ Forest.Below db.tasks.parent t d := by
  constructor
  · refine Forest.Below.mono fun y p hy => ?_
    obtain ⟨q, hq, -, hp⟩ := Tasks.parentOf_eq_some.1 hy
    exact (Tasks.parent_eq hq).trans hp
  · intro h
    -- going down from `t`, everything belongs to the same user
    suffices Forest.Below (db.tasks.parentOf r.userId) t d ∧
        ∃ q, db.tasks.lookup d = some q ∧ q.userId = r.userId from this.1
    have hstep : ∀ {y p rp}, db.tasks.parent y = some p → db.tasks.lookup p = some rp →
        rp.userId = r.userId → db.tasks.parentOf r.userId y = some p ∧
          ∃ q, db.tasks.lookup y = some q ∧ q.userId = r.userId := by
      intro y p rp hy hp hu
      obtain ⟨q, hq, hqp⟩ := Option.bind_eq_some_iff.1 hy
      obtain ⟨rp', hp', hu'⟩ := hw.parent hq hqp
      obtain rfl := Option.some.inj (hp.symm.trans hp')
      have huq : q.userId = r.userId := hu'.symm.trans hu
      exact ⟨Tasks.parentOf_eq_some.2 ⟨q, hq, huq, hqp⟩, q, hq, huq⟩
    induction h with
    | single h =>
      obtain ⟨hp, hq⟩ := hstep h hr rfl
      exact ⟨.single hp, hq⟩
    | tail _ h ih =>
      obtain ⟨hb, q, hq, hu⟩ := ih
      obtain ⟨hp, hq⟩ := hstep h hq hu
      exact ⟨hb.trans (.single hp), hq⟩

/-- **The bounded search of `list_descendants` misses no descendant.** -/
theorem Wf.mem_listDescendants (hw : Wf cfg db) (hr : db.tasks.lookup t = some r) {d : TaskId} :
    d ∈ db.listDescendants r.userId t ↔ Forest.Below db.tasks.parent t d := by
  rw [← hw.below_parentOf hr]
  have hdepth : ∃ n ≤ maxTaskTreeDepth + 2, Forest.Depth (db.tasks.parentOf r.userId) d n := by
    cases hd : db.tasks.lookup d with
    | none => exact ⟨1, by simp [maxTaskTreeDepth], .root (by simp [Tasks.parentOf, hd])⟩
    | some q =>
      obtain ⟨n, hn, hD⟩ := hw.depth hd
      have hle : n ≤ maxTaskTreeDepth + 2 := by have := cfg.spawnMaxDepth_le; omega
      by_cases hu : q.userId = r.userId
      · refine ⟨n, hle, ?_⟩
        induction hD generalizing q with
        | root h => exact .root (by simpa [Tasks.parentOf, hd, hu] using Tasks.parent_eq hd ▸ h)
        | @child y p m h _ ih =>
          obtain ⟨rp, hrp, hup⟩ := hw.parent hd ((Tasks.parent_eq hd).symm.trans h)
          exact .child (Tasks.parentOf_eq_some.2 ⟨q, hd, hu, (Tasks.parent_eq hd).symm.trans h⟩)
            (ih rp hrp (by omega) (by omega) (hup.trans hu))
      · exact ⟨1, by simp [maxTaskTreeDepth], .root (by simp [Tasks.parentOf, hd, hu])⟩
  obtain ⟨n, hn, hD⟩ := hdepth
  exact Forest.mem_levels_children (fun _ _ => Tasks.mem_children) hD hn

end

/-! ### What a coroutine has to know -/

/-- What a coroutine has learned about the trees it works on. -/
structure Ancestry where
  /-- The task exists and belongs to the user. -/
  owned : TaskId → UserId → Prop
  /-- A task of the user below this one is within the depth bound. -/
  shallow : UserId → TaskId → Prop

namespace Ancestry

instance : Preorder Ancestry where
  le q q' := (∀ t u, q.owned t u → q'.owned t u) ∧ ∀ u t, q.shallow u t → q'.shallow u t
  le_refl _ := ⟨fun _ _ h => h, fun _ _ h => h⟩
  le_trans _ _ _ h h' := ⟨fun t u hq => h'.1 t u (h.1 t u hq), fun u t hq => h'.2 u t (h.2 u t hq)⟩

/-- Nothing is known. -/
def none : Ancestry := ⟨fun _ _ => False, fun _ _ => False⟩

/-- Learn that these tasks belong to the user. -/
def own (q : Ancestry) (ts : List TaskId) (u : UserId) : Ancestry :=
  { q with owned := fun t v => q.owned t v ∨ (t ∈ ts ∧ v = u) }

/-- Learn that each of these rows belongs to its user. -/
def ownEach (q : Ancestry) (rows : List TaskRow) : Ancestry :=
  { q with owned := fun t v => q.owned t v ∨ ∃ r ∈ rows, t = r.taskId ∧ v = r.userId }

/-- Learn the depth of a chain. -/
def measure (q : Ancestry) (max n : ℕ) (u : UserId) (t : TaskId) : Ancestry :=
  { q with shallow := fun v y => q.shallow v y ∨ (n < max ∧ v = u ∧ y = t) }

theorem le_own (q : Ancestry) (ts : List TaskId) (u : UserId) : q ≤ q.own ts u :=
  ⟨fun _ _ => .inl, fun _ _ h => h⟩

theorem own_mem (q : Ancestry) {ts : List TaskId} {t : TaskId} {u : UserId} (h : t ∈ ts) :
    (q.own ts u).owned t u := .inr ⟨h, rfl⟩

theorem le_ownEach (q : Ancestry) (rows : List TaskRow) : q ≤ q.ownEach rows :=
  ⟨fun _ _ => .inl, fun _ _ h => h⟩

theorem le_measure (q : Ancestry) (max n : ℕ) (u : UserId) (t : TaskId) : q ≤ q.measure max n u t :=
  ⟨fun _ _ h => h, fun _ _ => .inl⟩

end Ancestry

/-- Descendants are listed for the owner of the task, a child is inserted after the chain of its
parent was measured, and nothing is made to wait for children. -/
def Ancestry.ok : {β : Type} → Ancestry → Act β → Prop
  | _, q, .listDescendants u t => q.owned t u
  | _, q, .createTask f _ _ => ∀ p, f.parentTaskId = some p → q.shallow f.userId p
  | _, _, .transition _ new _ => new ≠ .waitingChildren
  | _, _, _ => True

/-- What an answer teaches. -/
def Ancestry.next (max : ℕ) : {β : Type} → Ancestry → Act β → β → Ancestry
  | _, q, .userOf t, some u => q.own [t] u
  | _, q, .getTask u t, some _ => q.own [t] u
  | _, q, .findExpiredTasks _ _, rows => q.ownEach rows
  | _, q, .closingView u _, some (_, ts) => q.own ts u
  | _, q, .createTask f _ _, .created r => q.own [r.taskId] f.userId
  | _, q, .countTaskChainDepth u t, n => q.measure max n u t
  | _, q, _, _ => q

/-- The discipline of the programs that work on trees. -/
def ancestry (cfg : Config) : Discipline Act Ancestry where
  ok := Ancestry.ok
  ans _ _ := True
  next := Ancestry.next cfg.spawnMaxDepth

section

variable {cfg : Config} {q : Ancestry} {α : Type} {p : Coroutine α}

theorem ancestry_accumulates : (ancestry cfg).Accumulates := by
  intro β q a b
  change q ≤ q.next cfg.spawnMaxDepth a b
  cases a with
  | userOf t => cases b with
    | none => exact le_rfl
    | some u => exact q.le_own _ _
  | getTask u t => cases b with
    | none => exact le_rfl
    | some r => exact q.le_own _ _
  | findExpiredTasks now n => exact q.le_ownEach b
  | closingView u x => cases b with
    | none => exact le_rfl
    | some v => exact q.le_own _ _
  | createTask f c d => cases b with
    | created r => exact q.le_own _ _
    | _ => exact le_rfl
  | countTaskChainDepth u t => exact q.le_measure _ _ _ _
  | _ => exact le_rfl

/-- The tags of the actions that `ancestry` restricts. -/
def ancestryTags : List Tag := [.listDescendants, .createTask, .transition .waitingChildren]

/-- A program that does not use the restricted actions. -/
theorem Uses.ancestry {T : List Tag} (h : Uses p T) (hT : ∀ g ∈ T, g ∉ ancestryTags) :
    (ancestry cfg).Obeys q p fun _ _ => True := by
  refine .of_ok (Prog.Only.mono h fun a ha q => ?_)
  have hg := hT _ ha
  cases a with
  | listDescendants | createTask => exact absurd (by simp [Act.tag, ancestryTags]) hg
  | transition t new c => exact fun hn => hg (by simp [Act.tag, ancestryTags, hn])
  | _ => trivial

variable {t : TaskId} {u : UserId} {f : NewTaskFrame} {a : AgentId} {level : String}

theorem ancestry_cancelTask (h : q.owned t u) (reason initiator : String) :
    (ancestry cfg).Obeys q (cancelTask t u reason initiator) fun _ _ => True :=
  Discipline.obeys_perform_bind.2 ⟨h, fun _ _ => (uses_cancelAll _ _ _).ancestry (by decide)⟩

theorem ancestry_cancelSubtree (h : q.owned t u) (reason : String) :
    (ancestry cfg).Obeys q (cancelSubtree t u reason) fun _ _ => True :=
  Discipline.obeys_perform_bind.2 ⟨h, fun _ _ =>
    ((uses_cancelAll _ _ _).ancestry (by decide)).bind_le ancestry_accumulates
      fun _ _ _ _ => trivial⟩

theorem ancestry_failOwned (h : q.owned t u) (x : Failure) :
    (ancestry cfg).Obeys q (failOwned t u x) fun _ _ => True := by
  refine Discipline.obeys_perform_bind.2 ⟨?_, fun out _ => ?_⟩
  · change x.terminalState.state ≠ .waitingChildren
    cases x.terminalState <;> exact TaskState.noConfusion
  cases out with
  | done prev row =>
    refine Discipline.obeys_perform_bind.2 ⟨trivial, fun _ _ => ?_⟩
    refine (ancestry_cancelSubtree h _).bind_le ancestry_accumulates fun _ _ _ _ => ?_
    exact (uses_notifyParentOwner row x).ancestry (by decide)
  | _ => trivial

theorem ancestry_failTask {u : Option UserId} (h : ∀ v, u = some v → q.owned t v) (x : Failure) :
    (ancestry cfg).Obeys q (failTask t u x) fun _ _ => True := by
  cases u with
  | some u => exact ancestry_failOwned (h u rfl) x
  | none =>
    refine Discipline.obeys_perform_bind.2 ⟨trivial, fun v _ => ?_⟩
    cases v with
    | none => trivial
    | some u => exact ancestry_failOwned (q.own_mem (List.mem_singleton_self t)) x

theorem ancestry_failInflightForAgent (reason : String) :
    (ancestry cfg).Obeys q (failInflightForAgent a reason) fun _ _ => True := by
  refine Discipline.obeys_perform_bind.2 ⟨trivial, fun rows _ => ?_⟩
  refine (Discipline.obeys_each_le ancestry_accumulates fun t _ q' _ => ?_).bind_le
    ancestry_accumulates fun _ _ _ _ => trivial
  exact ancestry_failTask (fun v hv => absurd hv (by simp)) _

theorem ancestry_sweepOnce : (ancestry cfg).Obeys q sweepOnce fun _ _ => True := by
  refine Discipline.obeys_perform_bind.2 ⟨trivial, fun now _ => ?_⟩
  refine Discipline.obeys_perform_bind.2 ⟨trivial, fun rows _ => ?_⟩
  refine (Discipline.obeys_each_le ancestry_accumulates fun r hr q' hq => ?_).bind_le
    ancestry_accumulates fun _ _ _ _ => trivial
  refine ancestry_failTask (fun v hv => hq.1 _ _ (.inr ⟨r, hr, rfl, ?_⟩)) _
  exact (Option.some.inj hv).symm

theorem ancestry_safeFail (h : q.owned t u) (code : ℕ) (reason : String) (error : Json) :
    (ancestry cfg).Obeys q (safeFail t u code reason error) fun _ _ => True := by
  refine Discipline.Obeys.bind_le ancestry_accumulates
    (Discipline.Obeys.interruptible (fun _ => ⟨trivial, rfl⟩)
      (ancestry_failTask (fun v hv => Option.some.inj hv ▸ h) _)) fun q' out _ _ => ?_
  cases out with
  | some _ => trivial
  | none =>
    refine Discipline.obeys_perform_bind.2 ⟨trivial, fun hit _ => ?_⟩
    split_ifs
    · trivial
    · exact Discipline.obeys_perform_bind.2 ⟨trivial, fun _ _ => trivial⟩

theorem ancestry_dispatchTask {row : TaskRow} (h : q.owned row.taskId f.userId) :
    (ancestry cfg).Obeys q (dispatchTask f row level).run fun _ _ => True := by
  refine Discipline.Obeys.except_bind_le ancestry_accumulates
    (uses_lift (uses_deliverFrame _ _) |>.ancestry (by decide)) (fun q' out hq _ => ?_)
    fun _ _ _ _ => trivial
  have hsafe : ∀ code reason error (e : Exn), (ancestry cfg).Obeys q'
      (ExceptT.lift (safeFail row.taskId f.userId code reason error) >>= fun _ =>
        (throw e : Raising Exn AdmitResult)).run fun _ _ => True :=
    fun code reason error _ => Discipline.obeys_lift_bind.2
      ((ancestry_safeFail (hq.1 _ _ h) code reason error).mono fun _ _ _ => trivial)
  rcases out with (_ | _ | _ | _) | m
  · exact hsafe _ _ _ _
  · trivial
  · exact hsafe _ _ _ _
  · trivial
  cases m with
  | ack ack =>
    dsimp only
    split_ifs
    · exact hsafe _ _ _ _
    · exact obeys_call_bind.2 ⟨TaskState.noConfusion, fun _ _ => trivial⟩
  | _ => trivial

theorem ancestry_createAndDispatch (h : ∀ p, f.parentTaskId = some p → q.shallow f.userId p) :
    (ancestry cfg).Obeys q (createAndDispatch cfg f a level).run fun _ _ => True := by
  refine obeys_call_bind.2 ⟨trivial, fun now _ => ?_⟩
  refine obeys_call_bind.2 ⟨h, fun out _ => ?_⟩
  cases out with
  | refused e => trivial
  | checkViolation => trivial
  | uniqueViolation =>
    refine obeys_call_bind.2 ⟨trivial, fun racer _ => ?_⟩
    cases racer <;> trivial
  | created row =>
    refine obeys_call_bind.2 ⟨trivial, fun _ _ => ?_⟩
    exact ancestry_dispatchTask (q.own_mem (List.mem_singleton_self _))

/-- The check of the spawn depth measures the chain of the parent. -/
theorem ancestry_requireSpawnDepth :
    (ancestry cfg).Obeys q (requireSpawnDepth cfg f).run fun q' r =>
      r = .ok () → ∀ p, f.parentTaskId = some p → q'.shallow f.userId p := by
  unfold requireSpawnDepth
  cases hp : f.parentTaskId with
  | none => exact fun _ p h => absurd h (by simp)
  | some parent =>
    refine obeys_call_bind.2 ⟨trivial, fun n _ => ?_⟩
    split_ifs with hn
    · exact fun h => absurd h (by simp)
    · rintro - p ⟨⟩
      exact .inr ⟨Nat.lt_of_not_le hn, rfl, rfl⟩

theorem ancestry_preflight :
    (ancestry cfg).Obeys q (preflight cfg f a).run fun q' r =>
      (∃ l, r = .ok l) → ∀ p, f.parentTaskId = some p → q'.shallow f.userId p := by
  have herr : ∀ {q q' : Ancestry} (e : Exn), q ≤ q' → True → (∃ l, (Except.error e : Except Exn String) = .ok l) →
      ∀ p, f.parentTaskId = some p → q'.shallow f.userId p :=
    fun _ _ _ ⟨_, h⟩ => absurd h (by simp)
  refine ((uses_lookupAgents _ _).ancestry (by decide)).except_bind_le ancestry_accumulates
    (fun q₁ x _ _ => ?_) fun _ => herr
  obtain ⟨caller, callee⟩ := x
  dsimp only
  split
  · exact fun ⟨_, h⟩ => absurd h (by simp)
  refine (uses_requireLevel.ancestry (by decide)).except_bind_le ancestry_accumulates
    (fun q₂ l _ _ => ?_) fun _ => herr
  refine (uses_requireOpenSession.ancestry (by decide)).except_bind_le ancestry_accumulates
    (fun q₃ _ _ _ => ?_) fun _ => herr
  refine ((uses_requireAllowed _ _ _ _).ancestry (by decide)).except_bind_le ancestry_accumulates
    (fun q₄ _ _ _ => ?_) fun _ => herr
  refine ((uses_requireQuota _).ancestry (by decide)).except_bind_le ancestry_accumulates
    (fun q₅ _ _ _ => ?_) fun _ => herr
  refine ancestry_requireSpawnDepth.except_bind_le ancestry_accumulates
    (fun q₆ _ _ hs => ?_) fun _ _ _ _ ⟨_, h⟩ => absurd h (by simp)
  exact fun _ => hs rfl

theorem ancestry_admitTask : (ancestry cfg).Obeys q (admitTask cfg f a).run fun _ _ => True := by
  unfold admitTask
  split
  · refine (uses_admitDelegation.ancestry (by decide)).except_bind_le ancestry_accumulates
      (fun _ _ _ _ => trivial) fun _ _ _ _ => trivial
  · refine (uses_joinExisting.ancestry (by decide)).except_bind_le ancestry_accumulates
      (fun q₁ existing _ _ => ?_) fun _ _ _ _ => trivial
    cases existing with
    | some r => trivial
    | none =>
      exact ancestry_preflight.except_bind_le ancestry_accumulates
        (fun q₂ l _ h => ancestry_createAndDispatch (h ⟨l, rfl⟩)) fun _ _ _ _ => trivial

theorem ancestry_handleCancel (f : CancelFrame) :
    (ancestry cfg).Obeys q (handleCancel a f) fun _ _ => True := by
  unfold handleCancel
  cases f.refCorrelationId with
  | some _ => trivial
  | none =>
    cases f.taskId with
    | none => trivial
    | some t =>
      refine Discipline.obeys_perform_bind.2 ⟨trivial, fun v _ => ?_⟩
      cases v with
      | none => trivial
      | some u =>
        refine Discipline.obeys_perform_bind.2 ⟨trivial, fun ok _ => ?_⟩
        split_ifs
        · exact (ancestry_cancelTask (q.own_mem (List.mem_singleton_self t)) _ _).bind_le
            ancestry_accumulates fun _ _ _ _ => trivial
        · trivial

theorem ancestry_dispatchFrame (k : SocketId) (m : Envelope) :
    (ancestry cfg).Obeys q (dispatchFrame cfg k a m) fun _ _ => True := by
  unfold dispatchFrame
  split
  · exact ancestry_admitTask.bind_le ancestry_accumulates fun _ _ _ _ =>
      (uses_answerNewTask _ _).ancestry (by decide)
  · exact (uses_handleResult _).ancestry (by decide)
  · exact (uses_handleProgress _).ancestry (by decide)
  · exact ancestry_handleCancel _
  · exact Uses.ancestry (T := [.settle]) (uses_perform rfl) (by decide)
  · exact Uses.ancestry (T := [.put]) (uses_perform rfl) (by decide)
  · exact Uses.ancestry (T := [.settle]) (uses_perform rfl) (by decide)
  · exact (uses_handleFileStore _).ancestry (by decide)
  · trivial

theorem ancestry_closeSession (x : SessionId) :
    (ancestry cfg).Obeys q (closeSession u x) fun _ _ => True := by
  refine Discipline.obeys_perform_bind.2 ⟨trivial, fun v _ => ?_⟩
  cases v with
  | none => trivial
  | some v =>
    obtain ⟨closed, rows⟩ := v
    refine (Discipline.obeys_each_le ancestry_accumulates fun t ht q' hq => ?_).bind_le
      ancestry_accumulates fun _ _ _ _ => ?_
    · exact ancestry_cancelTask (hq.1 _ _ (q.own_mem ht)) _ _
    · split_ifs
      · trivial
      · exact Discipline.obeys_perform_bind.2 ⟨trivial, fun _ _ => trivial⟩

theorem ancestry_cancelRequest (t : TaskId) :
    (ancestry cfg).Obeys q (cancelRequest u t) fun _ _ => True := by
  refine Discipline.obeys_perform_bind.2 ⟨trivial, fun v _ => ?_⟩
  cases v with
  | none => trivial
  | some r =>
    exact (ancestry_cancelTask (q.own_mem (List.mem_singleton_self t)) _ _).bind_le
      ancestry_accumulates fun _ _ _ _ => trivial

/-- **Every call lists descendants for the owner and measures before it inserts.** -/
theorem ancestry_body (c : Call) : (ancestry cfg).Obeys q (c.body cfg) fun _ _ => True := by
  have hthen : ∀ {β : Type} {p : Coroutine β} (f : β → Ret),
      (ancestry cfg).Obeys q p (fun _ _ => True) →
      (ancestry cfg).Obeys q (p >>= fun x => pure (f x)) fun _ _ => True :=
    fun _ h => h.bind_le ancestry_accumulates fun _ _ _ _ => trivial
  cases c with
  | frame k a m => exact hthen _ (ancestry_dispatchFrame k m)
  | admission f a => exact hthen _ ancestry_admitTask
  | connect a tok => exact hthen _ ((uses_handshake tok).ancestry (by decide))
  | disconnect k => exact hthen _ (uses_onDisconnect.ancestry (by decide))
  | resumeWindowExpiry k a =>
    refine hthen _ (Discipline.obeys_perform_bind.2 ⟨trivial, fun ok _ => ?_⟩)
    split_ifs
    · exact (ancestry_failInflightForAgent _).bind_le ancestry_accumulates fun _ _ _ _ =>
        ⟨trivial, fun _ _ => trivial⟩
    · trivial
  | failInflight a reason => exact hthen _ (ancestry_failInflightForAgent _)
  | sweep => exact hthen _ ancestry_sweepOnce
  | cancelTask u t => exact hthen _ (ancestry_cancelRequest t)
  | openSession u => exact ⟨trivial, fun _ _ => trivial⟩
  | closeSession u x => exact hthen _ (ancestry_closeSession x)
  | reopenSession u x => exact ⟨trivial, fun _ _ => trivial⟩
  | reap => exact ⟨trivial, fun _ _ => trivial⟩
  | sendLoop k => exact ⟨trivial, fun _ _ => trivial⟩

end

/-! ### Every run -/

/-- What is known is true. -/
structure Ancestry.Holds (cfg : Config) (q : Ancestry) (s : Router) : Prop where
  /-- The owned tasks exist. -/
  owned : ∀ {t u}, q.owned t u → ∃ r, s.db.tasks.lookup t = some r ∧ r.userId = u
  /-- The measured tasks were named, and are not too deep. -/
  shallow : ∀ {u t}, q.shallow u t → t ∈ s.named ∧ ∀ r, s.db.tasks.lookup t = some r →
    r.userId = u → ∃ n < cfg.spawnMaxDepth, Forest.Depth s.db.tasks.parent t n

section

variable {cfg : Config} {q : Ancestry} {s s' : Router} {β : Type} {a : Act β} {e : Env} {b : β}

/-- What is known stays true, whoever moves. -/
theorem Ancestry.Holds.exec (hq : q.Holds cfg s) (hw : Wf cfg s.db)
    (h : Act.exec cfg a e s = some (s', b)) : q.Holds cfg s' where
  owned ho := by
    obtain ⟨r, hr, hu⟩ := hq.owned ho
    obtain ⟨r', hr', hl⟩ := (Act.exec_effect h).1.later hr
    exact ⟨r', hr', hl.userId.trans hu⟩
  shallow {u t} hs := by
    obtain ⟨hn, hd⟩ := hq.shallow hs
    obtain ⟨heff, hnamed⟩ := Act.exec_effect h
    refine ⟨hnamed hn, fun r' hr' hu => ?_⟩
    cases hr : s.db.tasks.lookup t with
    | none =>
      -- a named id is never given to a new task
      obtain ⟨f, c, d, now, root, -, -, hfresh, -⟩ := heff.created hr hr'
      exact absurd hn hfresh
    | some r =>
      obtain ⟨r₁, hr₁, hl⟩ := heff.later hr
      obtain rfl := Option.some.inj (hr'.symm.trans hr₁)
      obtain ⟨n, hlt, hD⟩ := hd r hr (hl.userId.symm.trans hu)
      exact ⟨n, hlt, hw.depth_effect heff hr hD⟩

theorem Wf.exec (hw : Wf cfg s.db) (hq : q.Holds cfg s) (hok : q.ok a)
    (h : Act.exec cfg a e s = some (s', b)) : Wf cfg s'.db := by
  refine hw.effect (Act.exec_effect h).1 ?_ ?_
  · intro t c out hx
    cases hx
    exact hok rfl
  · intro f caller d r hx p rp hp hrp hu
    cases hx
    exact (hq.shallow (hok p hp)).2 rp hrp hu

theorem Wf.mem_open {db : Db} (hw : Wf cfg db) {p : TaskRow → Bool} {t : TaskId} :
    t ∈ (db.tasks.openWhere p).map TaskRow.taskId ↔
      ∃ r, db.tasks.lookup t = some r ∧ p r = true ∧ r.state.isTerminal = false := by
  rw [List.mem_map]
  constructor
  · rintro ⟨r, hr, rfl⟩
    obtain ⟨t, hl, hp⟩ := Db.mem_openWhere.1 hr
    exact ⟨r, (hw.key hl).symm ▸ hl, hp⟩
  · rintro ⟨r, hl, hp⟩
    exact ⟨r, Db.mem_openWhere.2 ⟨t, hl, hp⟩, hw.key hl⟩

/-- What is learned is true. -/
theorem Ancestry.Holds.next (hq : q.Holds cfg s) (hw : Wf cfg s.db)
    (h : Act.exec cfg a e s = some (s', b)) : (q.next cfg.spawnMaxDepth a b).Holds cfg s' := by
  have hq' := hq.exec hw h
  have hown : ∀ (ts : List TaskId) (u : UserId),
      (∀ t ∈ ts, ∃ r, s'.db.tasks.lookup t = some r ∧ r.userId = u) →
      (q.own ts u).Holds cfg s' := by
    refine fun ts u hts => ⟨?_, hq'.shallow⟩
    rintro t v (ho | ⟨ht, rfl⟩)
    · exact hq'.owned ho
    · exact hts t ht
  cases a with
  | userOf t =>
    obtain ⟨rfl, rfl⟩ := Prod.mk.inj (Option.some.inj h)
    cases hr : s.db.tasks.lookup t with
    | none => exact hq'
    | some r => exact hown _ _ fun y hy => List.mem_singleton.1 hy ▸ ⟨r, hr, rfl⟩
  | getTask u t =>
    obtain ⟨rfl, rfl⟩ := Prod.mk.inj (Option.some.inj h)
    cases hr : s.db.getTask u t with
    | none => exact hq'
    | some r =>
      exact hown _ _ fun y hy => List.mem_singleton.1 hy ▸ ⟨r, Db.getTask_eq_some.1 hr⟩
  | findExpiredTasks now n =>
    obtain ⟨rfl, rfl⟩ := Prod.mk.inj (Option.some.inj h)
    refine ⟨?_, hq'.shallow⟩
    rintro t v (ho | ⟨r, hr, rfl, rfl⟩)
    · exact hq'.owned ho
    · obtain ⟨t, ht, -⟩ := Db.mem_findExpiredTasks hr
      exact ⟨r, (hw.key ht).symm ▸ ht, rfl⟩
  | closingView u x =>
    obtain ⟨rfl, rfl⟩ := Prod.mk.inj (Option.some.inj h)
    unfold Db.closingView
    cases s.db.getSession u x with
    | none => exact hq'
    | some row =>
      simp only [Option.map_some]
      split_ifs
      · exact hown _ _ fun y hy => absurd hy (by simp)
      · refine hown _ _ fun y hy => ?_
        obtain ⟨r, hr, hp, -⟩ := hw.mem_open.1 hy
        simp only [Bool.and_eq_true, decide_eq_true_eq] at hp
        exact ⟨r, hr, hp.1⟩
  | createTask f c d =>
    cases b with
    | created r =>
      obtain ⟨-, hr, now, root, newId, rfl⟩ := Act.exec_created h
      exact hown _ _ fun y hy => List.mem_singleton.1 hy ▸ ⟨_, hr, rfl⟩
    | _ => exact hq'
  | countTaskChainDepth u t =>
    obtain ⟨rfl, rfl⟩ := Prod.mk.inj (Option.some.inj h)
    refine ⟨hq'.owned, ?_⟩
    rintro v y (hs | ⟨hlt, rfl, rfl⟩)
    · exact hq'.shallow hs
    · refine ⟨List.mem_cons_self, fun r hr hu => ?_⟩
      obtain ⟨n, hn, hD⟩ := hw.depth hr
      have hchain := hw.chainDepth_eq hD hr (hn.trans cfg.spawnMaxDepth_le)
      rw [hu] at hchain
      exact ⟨n, hchain ▸ hlt, hD⟩
  | _ => exact hq'

variable {g : Guard Act Env Router Call Ret} {d : Deployment} {P : Pool Act Router Call Ret}

theorem sound_ancestry (cfg : Config) (g : Guard Act Env Router Call Ret) (d : Deployment) :
    Sound (router cfg) g (ancestry cfg) (fun _ => Ancestry.none) d.boot
      (fun s _ => Wf cfg s.db) (fun _ _ q s _ => q.Holds cfg s) where
  init := by
    have hnone : ∀ {t : TaskId} {r : TaskRow}, (d.boot.db.tasks.lookup t = some r) → False :=
      fun h => absurd h (by simp [Deployment.boot])
    exact ⟨fun h => (hnone h).elim, fun h _ => (hnone h).elim, fun h => (hnone h).elim,
      fun h => (hnone h).elim, fun h => (hnone h).elim⟩
  start _ _ _ := ⟨False.elim, False.elim⟩
  step _ _ _ he hw hq hok := ⟨trivial, hw.exec hq hok he, hq.next hw he⟩
  frame _ _ _ he hw _ _ _ _ _ _ hq' := hq'.exec hw he

/-- **Every reachable database is well formed.** -/
theorem wf_of_run (h : Run (router cfg) g (.init d.boot) P) : Wf cfg P.shared.db :=
  ((sound_ancestry cfg g d).of_run ancestry_body h).1

/-- A coroutine that is about to list descendants does so for the owner of the task. -/
theorem owner_of_run (h : Run (router cfg) g (.init d.boot) P) {i : ℕ} {c : Call} {u : UserId}
    {t : TaskId} {k : List TaskId → Coroutine Ret}
    (ht : P.threads[i]? = some ⟨c, .act (.listDescendants u t) k⟩) :
    ∃ r, P.shared.db.tasks.lookup t = some r ∧ r.userId = u := by
  obtain ⟨q, hq, hok, -⟩ := ((sound_ancestry cfg g d).of_run ancestry_body h).2 i _ ht
  exact hq.owned hok

end

/-! ### A small deployment to run -/

namespace Sample

def openRule : Rule := ⟨none, some "all", true, "*", "*/*", "*/*"⟩

/-- Four agents and a user with one open session. -/
def deployment : Deployment where
  users := AList.insert "u" ⟨"u", "tier1", none, none⟩ ∅
  agents := ["a", "b", "c", "d"].foldr (fun a t => AList.insert a ⟨a, .active, [], [], none⟩ t) ∅
  sessions := AList.insert "s" ⟨"s", "u", 0, none⟩ ∅
  files := AList.insert "f" ⟨"f", "u", "hash", 1, none⟩ ∅
  rules := [openRule]

def header (a : AgentId) : Header := ⟨a, "", ""⟩

def spawn (src dst : AgentId) (parent : Option TaskId := none) : NewTaskFrame where
  header := header src
  destinationAgentId := dst
  userId := "u"
  sessionId := "s"
  parentTaskId := parent

def delegate (src dst : AgentId) (t : TaskId) : NewTaskFrame :=
  { spawn src dst with taskId := some t }

def result (a : AgentId) (t : TaskId) (status : TaskStatus) : ResultFrame where
  header := header a
  taskId := t
  status := status
  statusCode := 200

def ack (a : AgentId) (ref : CorrelationId) (accepted : Bool) : AckFrame :=
  ⟨header a, ref, accepted, none, none, by simp⟩

/-- A frame arrives on socket `k` of an agent. -/
def receive (k : SocketId) (a : AgentId) (f : Frame) : Move Env Call :=
  .start (.frame k a ⟨"m", f⟩)

/-- Coroutine `i` moves; the generator, if it is asked, yields `id`. -/
def step (i : ℕ) (id : String := "") : Move Env Call := .step i { now := 1, freshId := id }

/-- Coroutine `i` moves `n` times. -/
def steps (i n : ℕ) : List (Move Env Call) := List.replicate n (step i)

/-- Agents `a`, `b` and `c` connect, on sockets `0`, `1` and `2`. -/
def connected : List (Move Env Call) :=
  [.start (.connect "a" none), .start (.connect "b" none), .start (.connect "c" none)] ++
    [step 0, step 0 "ta", step 1, step 1 "tb", step 2, step 2 "tc"]

/-- Then `a` spawns task `t` on `b`, which acks it (coroutines `3` and `4`). -/
def dispatched : List (Move Env Call) :=
  connected ++ [receive 0 "a" (.newTask (spawn "a" "b"))] ++ steps 3 5 ++
    [step 3 "t", step 3, step 3 "k", receive 1 "b" (.ack (ack "b" "k" true)), step 4] ++ steps 3 3

/-- `b`, the agent of `t`, asks to hand it on to `c` (coroutine `5`), and `c` acks. -/
def asked : List (Move Env Call) :=
  dispatched ++ [receive 1 "b" (.newTask (delegate "b" "c" "t"))] ++
    steps 5 4 ++ [step 5 "k'", receive 2 "c" (.ack (ack "c" "k'" true)),
      step 6, step 5]

/-- Then `c` becomes the executor. -/
def handedOn : List (Move Env Call) := asked ++ steps 5 2

abbrev settings : Config := {}

/-- Carry out the decisions, checking each action. -/
def play (check : ∀ {β : Type}, Pool Act Router Call Ret → ℕ → Call → Act β → Env → Bool)
    (ms : List (Move Env Call)) : Option (Pool Act Router Call Ret) :=
  (router {}).run check (.init deployment.boot) ms

/-- Nothing is checked. -/
def anything {β : Type} (_ : Pool Act Router Call Ret) (_ : ℕ) (_ : Call) (_ : Act β) (_ : Env) :
    Bool := true

theorem run_of_play {check : ∀ {β : Type}, Pool Act Router Call Ret → ℕ → Call → Act β → Env → Bool}
    {g : Guard Act Env Router Call Ret} (hs : ∀ Q c, g.start Q c)
    (hc : ∀ {β : Type} (Q : Pool Act Router Call Ret) i c (a : Act β) e,
      check Q i c a e = true → g.fire Q i c a e)
    {ms : List (Move Env Call)} {P : Pool Act Router Call Ret} (h : play check ms = some P) :
    Run (router {}) g (.init deployment.boot) P :=
  Run.of_run hs hc h

theorem free_of_play {ms : List (Move Env Call)} {P : Pool Act Router Call Ret}
    (h : play anything ms = some P) : Run (router {}) .free (.init deployment.boot) P :=
  run_of_play (fun _ _ => trivial) (fun _ _ _ _ _ _ => trivial) h

end Sample

end Backplane
