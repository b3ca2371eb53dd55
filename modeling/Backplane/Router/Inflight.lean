import Backplane.Router.Reachable

/-!
# Failing the tasks of an agent

`fail_inflight_for_agent` run on its own: which tasks does it end?

* `Grew` : from one state to another just the tasks of a set have been ended.
* `grew_cancelAll`, `grew_failTask` : what the programs on one task end.
* `failInflight_ended` : the open tasks that were admitted for the agent, with what is below them.
* `failInflight_iff` : these are the tasks the agent executes, with what is below them, just when the
  two agree (`Db.SameInflight`).
-/

namespace Backplane

open Concur Prog

/-- From `s` to `s'` just the tasks in `X` have been ended, and none was created. -/
structure Grew (cfg : Config) (s s' : Router) (X : TaskId → Prop) : Prop where
  /-- The database is well formed. -/
  wf : Wf cfg s'.db
  /-- Rows only get later. -/
  later : ∀ {t r}, s.db.tasks.lookup t = some r →
    ∃ r', s'.db.tasks.lookup t = some r' ∧ r.Later r'
  /-- There are no new ones. -/
  absent : ∀ {t}, s.db.tasks.lookup t = none → s'.db.tasks.lookup t = none
  ended : ∀ t, s'.db.Ended t ↔ s.db.Ended t ∨ X t

section

variable {cfg : Config} {s s₁ s' : Router} {X Y : TaskId → Prop} {α : Type} {p : Coroutine α}
  {t : TaskId} {r : TaskRow} {x : α}

theorem Grew.of_db (hw : Wf cfg s.db) (h : s'.db = s.db) : Grew cfg s s' fun _ => False := by
  refine ⟨h ▸ hw, fun {t r} hr => ⟨r, by rw [h]; exact hr, .refl r⟩, fun hr => by rw [h]; exact hr,
    fun t => ?_⟩
  rw [h, or_false]

theorem Grew.trans (h : Grew cfg s s₁ X) (h' : Grew cfg s₁ s' Y) :
    Grew cfg s s' fun t => X t ∨ Y t where
  wf := h'.wf
  later hr := by
    obtain ⟨r₁, hr₁, hl₁⟩ := h.later hr
    obtain ⟨r₂, hr₂, hl₂⟩ := h'.later hr₁
    exact ⟨r₂, hr₂, hl₁.trans hl₂⟩
  absent hr := h'.absent (h.absent hr)
  ended t := by rw [h'.ended, h.ended, or_assoc]

/-- Tasks that had ended already do not count. -/
theorem Grew.congr (h : Grew cfg s s' X) (hXY : ∀ t, ¬ s.db.Ended t → (X t ↔ Y t)) :
    Grew cfg s s' Y where
  wf := h.wf
  later := h.later
  absent := h.absent
  ended t := by
    rw [h.ended]
    by_cases he : s.db.Ended t
    · simp only [he, true_or]
    · rw [hXY t he]

theorem Grew.then_silent (h : Grew cfg s s₁ X) (hs : s'.db = s₁.db) : Grew cfg s s' X :=
  (h.trans (.of_db h.wf hs)).congr fun _ _ => or_iff_left id

/-- Nobody gets another parent. -/
theorem Grew.parent (h : Grew cfg s s' X) : s'.db.tasks.parent = s.db.tasks.parent := by
  funext t
  cases hr : s.db.tasks.lookup t with
  | none => simp only [Tasks.parent, hr, h.absent hr]
  | some r =>
    obtain ⟨r', hr', hl⟩ := h.later hr
    rw [Tasks.parent_eq hr, Tasks.parent_eq hr', hl.parentTaskId]

theorem Grew.exists (h : Grew cfg s s' X) (t : TaskId) :
    (s'.db.tasks.lookup t).isSome = (s.db.tasks.lookup t).isSome := by
  cases hr : s.db.tasks.lookup t with
  | none => rw [h.absent hr]
  | some r =>
    obtain ⟨r', hr', -⟩ := h.later hr
    rw [hr']
    rfl

/-- A program without write transactions leaves the database alone. -/
theorem db_of_silent {T : List Tag} (hp : Uses p T) (hT : ∀ g ∈ T, g ∉ writeTags)
    (h : Solo (router cfg) p s x s') : s'.db = s.db := by
  have honly := hp.writes hT
  clear hp hT
  induction h with
  | ret a s => rfl
  | act he _ ih => exact (ih (honly.2 _)).trans (Act.exec_inMemory he honly.1).1

theorem exec_of_solo {a : Act α} (h : Solo (router cfg) (perform a) s x s') :
    ∃ e, Act.exec cfg a e s = some (s', x) := Solo.perform_iff.1 h

theorem Db.ended_iff {db : Db} (hr : db.tasks.lookup t = some r) :
    db.Ended t ↔ r.state.isTerminal = true := by
  constructor
  · rintro ⟨r', hr', he⟩
    obtain rfl := Option.some.inj (hr.symm.trans hr')
    exact he
  · exact fun he => ⟨r, hr, he⟩

/-! ### One transition -/

/-- A failure or a cancellation ends the task; if it is refused, the task had ended. -/
theorem grew_transition (hw : Wf cfg s.db) {new : TaskState} {c : Cause} {e : Env}
    {out : Transitioned} (hnew : new.isTerminal = true) (hns : new ≠ .succeeded)
    (he : Act.exec cfg (.transition t new c) e s = some (s', out)) :
    Grew cfg s s' (fun y => y = t ∧ (s.db.tasks.lookup t).isSome) ∧
      ((∀ prev row, out ≠ .done prev row) → s' = s ∧ ((s.db.tasks.lookup t).isSome →
        s.db.Ended t)) := by
  have heff := (Act.exec_effect he).1
  have hcreate : ∀ f caller d r', (⟨.transition t new c, out⟩ : Event Act) ≠
      ⟨.createTask f caller d, .created r'⟩ := by
    intro f caller d r' hx
    exact absurd (congrArg (fun x : Event Act => x.act.tag) hx) (by simp [Act.tag])
  have hwf : Wf cfg s'.db := by
    refine hw.effect heff (fun t' c' out' hx => ?_) fun f caller d r' hx => ?_
    · cases hx
      simp [TaskState.isTerminal] at hnew
    · exact absurd hx (hcreate f caller d r')
  have habsent : ∀ {y}, s.db.tasks.lookup y = none → s'.db.tasks.lookup y = none := by
    intro y hy
    cases hy' : s'.db.tasks.lookup y with
    | none => rfl
    | some r' =>
      obtain ⟨f, caller, d, now, root, hx, -⟩ := heff.created hy hy'
      exact absurd hx (hcreate f caller d r')
  -- what an update of the row of `t` to the terminal state does to the others
  have hgrew : ∀ {r r'}, s.db.tasks.lookup t = some r →
      (∀ y, s'.db.tasks.lookup y = if y = t then some r' else s.db.tasks.lookup y) →
      r'.state.isTerminal = true →
      Grew cfg s s' fun y => y = t ∧ (s.db.tasks.lookup t).isSome := by
    intro r r' hr hupd hr'
    refine ⟨hwf, fun hy => heff.later hy, habsent, fun y => ?_⟩
    by_cases hy : y = t
    · subst hy
      have hend : s'.db.Ended y := ⟨r', by rw [hupd, if_pos rfl], hr'⟩
      simp only [hend, hr, Option.isSome_some, and_self, or_true]
    · have hsame : s'.db.Ended y ↔ s.db.Ended y := by rw [Db.Ended, Db.Ended, hupd, if_neg hy]
      simp only [hsame, hy, false_and, or_false]
  simp only [Act.exec] at he
  rcases s.db.transitionTx_cases t new c with
    ⟨hn, htx⟩ | ⟨r, hr, hne, hal, htx⟩ | ⟨r, hr, hs, htx⟩ | ⟨r, hr, hal, htx⟩ <;>
    rw [htx] at he <;> obtain ⟨rfl, rfl⟩ := Prod.mk.inj (Option.some.inj he)
  · refine ⟨(Grew.of_db hw rfl).congr fun y _ => ?_, fun _ => ⟨rfl, fun h => ?_⟩⟩
    · simp [hn]
    · rw [hn] at h
      exact absurd h (by simp)
  · have hend : s.db.Ended t := by
      refine (Db.ended_iff hr).2 ?_
      by_contra ho
      have hal' := allowed_terminal (by simpa using ho) (fun _ => hns) hnew
      rw [hal] at hal'
      exact absurd hal' (by simp)
    refine ⟨(Grew.of_db hw rfl).congr fun y hy => ?_, fun _ => ⟨rfl, fun _ => hend⟩⟩
    simp only [false_iff, not_and]
    rintro rfl
    exact absurd hend hy
  · refine ⟨hgrew hr (fun y => ?_) (hs ▸ hnew), fun hd => absurd rfl (hd _ _)⟩
    split_ifs with hy
    · subst hy
      exact hr
    · rfl
  · have hmoved : (r.moved new c).state.isTerminal = true := hnew
    refine ⟨hgrew hr (fun y => ?_) hmoved, fun hd => absurd rfl (hd _ _)⟩
    refine (Table.lookup_update _ _ _ _).trans ?_
    rw [hr]
    rfl

/-! ### Cancelling a list -/

theorem grew_cancelOne (hw : Wf cfg s.db) {reason initiator : String} {out : Option TaskRow}
    (h : Solo (router cfg) (cancelOne reason initiator t) s out s') :
    Grew cfg s s' fun y => y = t ∧ (s.db.tasks.lookup t).isSome := by
  obtain ⟨tr, s₁, h₁, h₂⟩ := Solo.bind_iff.1 h
  obtain ⟨e, he⟩ := exec_of_solo h₁
  obtain ⟨hgrew, -⟩ := grew_transition hw rfl (by decide) he
  refine hgrew.then_silent (db_of_silent (T := [.notifyTaskTerminal]) ?_ (by decide) h₂)
  cases tr with
  | done prev row => exact (uses_perform rfl).bind fun _ => trivial
  | _ => trivial

theorem grew_cancelEach (hw : Wf cfg s.db) {reason initiator : String} {ts : List TaskId}
    {plan : List TaskRow} (h : Solo (router cfg) (collect (cancelOne reason initiator) ts) s plan s') :
    Grew cfg s s' fun y => y ∈ ts ∧ (s.db.tasks.lookup y).isSome := by
  induction ts generalizing s s' plan with
  | nil =>
    cases h
    exact (Grew.of_db hw rfl).congr fun y _ => by simp
  | cons t ts ih =>
    obtain ⟨row, s₁, h₁, h₂⟩ := Solo.bind_iff.1 h
    obtain ⟨rows, s₂, h₂, h₃⟩ := Solo.bind_iff.1 h₂
    have hfirst := grew_cancelOne hw h₁
    have hrest := ih hfirst.wf h₂
    refine ((hfirst.trans hrest).then_silent ?_).congr fun y _ => ?_
    · cases h₃
      rfl
    · rw [hfirst.exists, List.mem_cons]
      constructor
      · rintro (⟨rfl, hy⟩ | ⟨hmem, hy⟩)
        · exact ⟨.inl rfl, hy⟩
        · exact ⟨.inr hmem, hy⟩
      · rintro ⟨rfl | hmem, hy⟩
        · exact .inl ⟨rfl, hy⟩
        · exact .inr ⟨hmem, hy⟩

theorem grew_cancelAll (hw : Wf cfg s.db) {reason initiator : String} {ts : List TaskId} {n : ℕ}
    (h : Solo (router cfg) (cancelAll reason initiator ts) s n s') :
    Grew cfg s s' fun y => y ∈ ts ∧ (s.db.tasks.lookup y).isSome := by
  obtain ⟨plan, s₁, h₁, h₂⟩ := Solo.bind_iff.1 h
  refine (grew_cancelEach hw h₁).then_silent (db_of_silent (T := [.deliver]) ?_ (by decide) h₂)
  refine Uses.bind (only_each (fun row => ?_) plan) fun _ => trivial
  exact (uses_deliverQuietly _ _).bind fun _ => uses_deliverQuietly _ _

/-- The descendants of an existing task are cancelled, all of them. -/
theorem grew_cancelSubtree (hw : Wf cfg s.db) (hr : s.db.tasks.lookup t = some r) {reason : String}
    {u : Unit} (h : Solo (router cfg) (cancelSubtree t r.userId reason) s u s') :
    Grew cfg s s' (Forest.Below s.db.tasks.parent t) := by
  obtain ⟨ds, s₁, h₁, h₂⟩ := Solo.bind_iff.1 h
  obtain ⟨e, he⟩ := exec_of_solo h₁
  obtain ⟨rfl, rfl⟩ := Prod.mk.inj (Option.some.inj he)
  obtain ⟨n, s₂, h₂, h₃⟩ := Solo.bind_iff.1 h₂
  refine ((grew_cancelAll hw h₂).then_silent (by cases h₃; rfl)).congr fun y _ => ?_
  rw [hw.mem_listDescendants hr]
  refine and_iff_left_of_imp fun hy => ?_
  obtain ⟨p, hp, -⟩ := hy.cases_tail
  obtain ⟨ry, hry, -⟩ := Option.bind_eq_some_iff.1 hp
  rw [hry]
  rfl

/-! ### Failing a list -/

/-- Failing a task ends it with its descendants, provided that the descendants had ended if the task
itself had. -/
theorem grew_failTask (hw : Wf cfg s.db) (hr : s.db.tasks.lookup t = some r)
    (hclosed : s.db.Ended t → ∀ y, Forest.Below s.db.tasks.parent t y → s.db.Ended y)
    {a : Failure} {u : Unit} (h : Solo (router cfg) (failTask t none a) s u s') :
    Grew cfg s s' fun y => y = t ∨ Forest.Below s.db.tasks.parent t y := by
  obtain ⟨owner, s₀, h₀, h₁⟩ := Solo.bind_iff.1 h
  obtain ⟨e₀, he₀⟩ := exec_of_solo h₀
  obtain ⟨rfl, rfl⟩ := Prod.mk.inj (Option.some.inj he₀)
  rw [hr, Option.map_some] at h₁
  obtain ⟨out, s₁, h₁, h₂⟩ := Solo.bind_iff.1 h₁
  obtain ⟨e, he⟩ := exec_of_solo h₁
  have hterm : a.terminalState.state.isTerminal = true := by cases a.terminalState <;> rfl
  have hfail : a.terminalState.state ≠ .succeeded := by
    cases a.terminalState <;> exact TaskState.noConfusion
  obtain ⟨hmove, hrefused⟩ := grew_transition hw hterm hfail he
  have hsome : (s.db.tasks.lookup t).isSome := by rw [hr]; rfl
  -- the task was refused: it had ended, and so had everything below it
  have hnothing : (∀ prev row, out ≠ .done prev row) → s' = s₁ →
      Grew cfg s s' fun y => y = t ∨ Forest.Below s.db.tasks.parent t y := by
    intro hout hs'
    obtain ⟨hs₁, hend⟩ := hrefused hout
    refine (Grew.of_db hw (by rw [hs', hs₁])).congr fun y hy => ?_
    simp only [false_iff, not_or]
    exact ⟨fun hyt => hy (hyt ▸ hend hsome), fun hb => hy (hclosed (hend hsome) y hb)⟩
  cases out with
  | notFound => exact hnothing (by simp) (by cases h₂; rfl)
  | illegal => exact hnothing (by simp) (by cases h₂; rfl)
  | done prev row =>
    have hrest : Solo (router cfg) (perform (.notifyTaskTerminal t) >>= fun _ =>
      cancelSubtree t r.userId a.terminalState.cascadeReason >>= fun _ =>
        notifyParentOwner row a) s₁ u s' := h₂
    obtain ⟨_, s₂, h₂, h₃⟩ := Solo.bind_iff.1 hrest
    obtain ⟨_, s₃, h₃, h₄⟩ := Solo.bind_iff.1 h₃
    have hfirst := hmove.then_silent
      (db_of_silent (T := [.notifyTaskTerminal]) (uses_perform rfl) (by decide) h₂)
    obtain ⟨r₂, hr₂, hl⟩ := hfirst.later hr
    rw [← hl.userId] at h₃
    have hsecond := (grew_cancelSubtree hfirst.wf hr₂ h₃).then_silent
      (db_of_silent (uses_notifyParentOwner _ _) (by decide) h₄)
    refine (hfirst.trans hsecond).congr fun y _ => ?_
    rw [hfirst.parent, and_iff_left hsome]

theorem grew_failEach (hw : Wf cfg s.db) {ts : List TaskId}
    (hex : ∀ t ∈ ts, (s.db.tasks.lookup t).isSome)
    (hclosed : ∀ t ∈ ts, s.db.Ended t → ∀ y, Forest.Below s.db.tasks.parent t y → s.db.Ended y)
    {a : Failure} {u : Unit}
    (h : Solo (router cfg) (each (fun t => failTask t none a) ts) s u s') :
    Grew cfg s s' fun y => ∃ t ∈ ts, y = t ∨ Forest.Below s.db.tasks.parent t y := by
  induction ts generalizing s with
  | nil =>
    cases h
    exact (Grew.of_db hw rfl).congr fun y _ => by simp
  | cons t ts ih =>
    obtain ⟨_, s₁, h₁, h₂⟩ := Solo.bind_iff.1 h
    obtain ⟨r, hr⟩ := Option.isSome_iff_exists.1 (hex t List.mem_cons_self)
    have hfirst := grew_failTask hw hr (hclosed t List.mem_cons_self) h₁
    -- what has been ended so far is closed downwards, also below the tasks still to come
    have hclosed' : ∀ x ∈ ts, s₁.db.Ended x →
        ∀ y, Forest.Below s₁.db.tasks.parent x y → s₁.db.Ended y := by
      intro x hx hend y hy
      rw [hfirst.parent] at hy
      rw [hfirst.ended] at hend ⊢
      rcases hend with hend | rfl | hb
      · exact .inl (hclosed x (List.mem_cons_of_mem _ hx) hend y hy)
      · exact .inr (.inr hy)
      · exact .inr (.inr (hb.trans hy))
    have hrest := ih hfirst.wf (fun x hx => by
      rw [hfirst.exists]
      exact hex x (List.mem_cons_of_mem _ hx)) hclosed' h₂
    refine (hfirst.trans hrest).congr fun y _ => ?_
    rw [hfirst.parent]
    simp only [List.mem_cons, exists_eq_or_imp]

/-- A task is one of the open tasks of a kind, or below one. -/
def Db.InSubtrees (db : Db) (p : TaskRow → Prop) (y : TaskId) : Prop :=
  ∃ t r, db.tasks.lookup t = some r ∧ r.state.isTerminal = false ∧ p r ∧
    (y = t ∨ Forest.Below db.tasks.parent t y)

/-- The open tasks that were admitted for the agent are ended, with their descendants. -/
theorem failInflight_ended (hw : Wf cfg s.db) {a : AgentId} {reason : String} {n : ℕ}
    (h : Solo (router cfg) (failInflightForAgent a reason) s n s') (y : TaskId) :
    s'.db.Ended y ↔ s.db.Ended y ∨ s.db.InSubtrees (fun r => r.agentId = a) y := by
  obtain ⟨ts, s₁, h₁, h₂⟩ := Solo.bind_iff.1 h
  obtain ⟨e, he⟩ := exec_of_solo h₁
  obtain ⟨rfl, rfl⟩ := Prod.mk.inj (Option.some.inj he)
  obtain ⟨_, s₂, h₂, h₃⟩ := Solo.bind_iff.1 h₂
  have hrows : ∀ t, t ∈ (s.db.tasks.openWhere fun r => decide (r.agentId = a)).map
      TaskRow.taskId ↔ ∃ r, s.db.tasks.lookup t = some r ∧ r.agentId = a ∧
        r.state.isTerminal = false := by
    intro t
    rw [hw.mem_open]
    simp only [decide_eq_true_eq]
  have hgrew := grew_failEach hw (fun t ht => by
      obtain ⟨r, hr, -⟩ := (hrows t).1 ht
      rw [hr]
      rfl) (fun t ht hend => by
      obtain ⟨r, hr, -, ho⟩ := (hrows t).1 ht
      rw [Db.ended_iff hr, ho] at hend
      exact absurd hend (by simp)) h₂
  have hdone : s' = s₂ := by cases h₃; rfl
  rw [hdone, hgrew.ended]
  refine or_congr_right ⟨?_, ?_⟩
  · rintro ⟨t, ht, hy⟩
    obtain ⟨r, hr, ha, ho⟩ := (hrows t).1 ht
    exact ⟨t, r, hr, ho, ha, hy⟩
  · rintro ⟨t, r, hr, ho, ha, hy⟩
    exact ⟨t, (hrows t).2 ⟨r, hr, ha, ho⟩, hy⟩

/-- Failing an agent's tasks never waits. -/
theorem failInflight_total (cfg : Config) (a : AgentId) (reason : String) (s : Router) :
    ∃ n s', Solo (router cfg) (failInflightForAgent a reason) s n s' := by
  refine Solo.total (Only.mono (uses_failInflightForAgent a reason) fun x hx e s => ?_) s
  change (Act.exec cfg x e s).isSome = true
  cases x <;>
    first
      | rfl
      | exact absurd hx (by simp [Act.tag, failTags, cancelTags, fanOutTags])

/-! ### The tasks the agent executes -/

/-- Every open task that was admitted for the agent is one that it executes or below one, and every
open task that it executes is one that was admitted for it or below one. -/
def Db.SameInflight (db : Db) (a : AgentId) : Prop :=
  ∀ t r, db.tasks.lookup t = some r → r.state.isTerminal = false →
    (r.agentId = a → db.InSubtrees (fun r => r.activeAgentId = a) t) ∧
    (r.activeAgentId = a → db.InSubtrees (fun r => r.agentId = a) t)

theorem Db.InSubtrees.self {db : Db} {p : TaskRow → Prop} (hr : db.tasks.lookup t = some r)
    (ho : r.state.isTerminal = false) (hp : p r) : db.InSubtrees p t :=
  ⟨t, r, hr, ho, hp, .inl rfl⟩

/-- What is below a task of a subtree is in the subtree. -/
theorem Db.InSubtrees.below {db : Db} {p : TaskRow → Prop} {y : TaskId} (h : db.InSubtrees p t)
    (hy : Forest.Below db.tasks.parent t y) : db.InSubtrees p y := by
  obtain ⟨x, r, hr, ho, hp, hx⟩ := h
  refine ⟨x, r, hr, ho, hp, .inr ?_⟩
  rcases hx with rfl | hx
  · exact hy
  · exact hx.trans hy

/-- The two kinds of subtrees agree just when each has the roots of the other. -/
theorem Db.sameInflight_iff {db : Db} {a : AgentId} :
    db.SameInflight a ↔ ∀ t r, db.tasks.lookup t = some r → r.state.isTerminal = false →
      (db.InSubtrees (fun r => r.agentId = a) t ↔
        db.InSubtrees (fun r => r.activeAgentId = a) t) := by
  constructor
  · intro h t r _ _
    constructor
    · rintro ⟨x, rx, hx, ho, ha, rfl | hb⟩
      · exact (h _ rx hx ho).1 ha
      · exact ((h _ rx hx ho).1 ha).below hb
    · rintro ⟨x, rx, hx, ho, ha, rfl | hb⟩
      · exact (h _ rx hx ho).2 ha
      · exact ((h _ rx hx ho).2 ha).below hb
  · intro h t r hr ho
    have hiff := h t r hr ho
    exact ⟨fun ha => hiff.1 (.self hr ho ha), fun ha => hiff.2 (.self hr ho ha)⟩

/-- **Failing an agent's tasks always comes to an end, and it ends just the open tasks the agent
executes and what is below them if and only if these are, up to what is below them, the tasks that
were admitted for the agent.** -/
theorem failInflight_iff {d : Deployment} {P : Pool Act Router Call Ret}
    (h : Run (router cfg) .free (.init d.boot) P) (a : AgentId) (reason : String) :
    (∃ n s', Solo (router cfg) (failInflightForAgent a reason) P.shared n s') ∧
    ∀ n s', Solo (router cfg) (failInflightForAgent a reason) P.shared n s' →
      ((∀ t r, P.shared.db.tasks.lookup t = some r → r.state.isTerminal = false →
          (s'.db.Ended t ↔ P.shared.db.InSubtrees (fun r => r.activeAgentId = a) t)) ↔
        P.shared.db.SameInflight a) := by
  refine ⟨failInflight_total cfg a reason P.shared, fun n s' hsolo => ?_⟩
  have hended : ∀ t r, P.shared.db.tasks.lookup t = some r → r.state.isTerminal = false →
      (s'.db.Ended t ↔ P.shared.db.InSubtrees (fun r => r.agentId = a) t) := by
    intro t r hr ho
    rw [failInflight_ended (wf_of_run h) hsolo, or_iff_right]
    rw [Db.ended_iff hr, ho]
    exact Bool.false_ne_true
  rw [Db.sameInflight_iff]
  refine forall₂_congr fun t r => forall₂_congr fun hr ho => ?_
  rw [hended t r hr ho]

/-- When `b` goes away, the task that it was given and still executes is failed. -/
theorem failInflight_iff_dispatched : ∃ P s' n, Sample.play Sample.anything Sample.dispatched =
      some P ∧ Solo (router {}) (failInflightForAgent "b" "agent_disconnected") P.shared n s' ∧
    s'.db.Ended "t" := by
  have hplay : ((Sample.play Sample.anything Sample.dispatched).map fun P =>
      (P.shared.db.tasks.openWhere fun r => decide (r.agentId ≠ r.activeAgentId),
        (P.shared.db.tasks.lookup "t").any fun r =>
          decide (r.activeAgentId = "b") && !r.state.isTerminal)) = some ([], true) := by
    decide +kernel
  obtain ⟨P, hP, h⟩ := Option.map_eq_some_iff.1 hplay
  obtain ⟨hsame, ht⟩ := Prod.mk.inj h
  obtain ⟨r, hr, hb⟩ := (Option.any_eq_true _ _).1 ht
  simp only [Bool.and_eq_true, decide_eq_true_eq, Bool.not_eq_true'] at hb
  obtain ⟨⟨n, s', hsolo⟩, hiff⟩ := failInflight_iff (Sample.free_of_play hP) "b" "agent_disconnected"
  refine ⟨P, s', n, hP, hsolo, ?_⟩
  refine ((hiff n s' hsolo).2 (fun y ry hy ho => ?_) "t" r hr hb.2).2 (.self hr hb.2 hb.1)
  -- no open task has changed hands
  have heq : ry.agentId = ry.activeAgentId := by
    by_contra hne
    have hmem : ry ∈ P.shared.db.tasks.openWhere fun r => decide (r.agentId ≠ r.activeAgentId) :=
      Db.mem_openWhere.2 ⟨y, hy, decide_eq_true hne, ho⟩
    rw [hsame] at hmem
    exact absurd hmem (by simp)
  exact ⟨fun ha => .self hy ho (heq ▸ ha), fun ha => .self hy ho (heq.trans ha)⟩

/-- `b` has handed its task on to `c`; when `b` goes away the task is failed all the same. -/
theorem failInflight_handedOn : ¬ ∀ (cfg : Config) (d : Deployment) (P : Pool Act Router Call Ret),
    Run (router cfg) .free (.init d.boot) P → ∀ (a : AgentId) (reason : String) (n : ℕ)
      (s' : Router), Solo (router cfg) (failInflightForAgent a reason) P.shared n s' →
      ∀ t r, P.shared.db.tasks.lookup t = some r → r.state.isTerminal = false →
        (s'.db.Ended t ↔ P.shared.db.InSubtrees (fun r => r.activeAgentId = a) t) := by
  intro hall
  have hplay : ((Sample.play Sample.anything Sample.handedOn).map fun P =>
      (P.shared.db.tasks.openWhere fun r => decide (r.activeAgentId = "b"),
        (P.shared.db.tasks.lookup "t").any fun r =>
          decide (r.agentId = "b") && !r.state.isTerminal)) = some ([], true) := by
    decide +kernel
  obtain ⟨P, hP, h⟩ := Option.map_eq_some_iff.1 hplay
  obtain ⟨hnone, ht⟩ := Prod.mk.inj h
  obtain ⟨r, hr, hb⟩ := (Option.any_eq_true _ _).1 ht
  simp only [Bool.and_eq_true, decide_eq_true_eq, Bool.not_eq_true'] at hb
  have hrun := Sample.free_of_play hP
  obtain ⟨n, s', hsolo⟩ := failInflight_total {} "b" "agent_disconnected" P.shared
  have hend : s'.db.Ended "t" :=
    (failInflight_ended (wf_of_run hrun) hsolo "t").2 (.inr (.self hr hb.2 hb.1))
  obtain ⟨y, ry, hy, ho, ha, -⟩ :=
    (hall {} Sample.deployment P hrun "b" _ n s' hsolo "t" r hr hb.2).1 hend
  have hmem : ry ∈ P.shared.db.tasks.openWhere fun r => decide (r.activeAgentId = "b") :=
    Db.mem_openWhere.2 ⟨y, hy, decide_eq_true ha, ho⟩
  rw [hnone] at hmem
  exact absurd hmem (by simp)

end

end Backplane
