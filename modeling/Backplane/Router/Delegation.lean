import Backplane.Router.Reachable

/-!
# Handing a task on

A delegation is vetted under one row lock (phase A), asked for (phase B), and carried out under
another (phase C); anything can happen in between.

* `Db.executors` : the agents a task has passed through, from the row and the event log.
* `Handed` : they are distinct and not too many, and the last one executes the task.
* `handOver` : phase C comes after phase A has let the same hand-over pass.
* `executors_of_run` : every run keeps `Handed`.
* `executor_chain` : an agent that has handed a task on never executes it again, and nothing it
  reports changes the task.
* `delegate_ends` : the Result of a delegate ends the task once phase C has been carried out.
-/

namespace Backplane

open Concur Prog

/-- The agents a task has passed through: the one it was admitted for and those it was handed to. -/
def Db.executors (db : Db) (t : TaskId) (r : TaskRow) : List AgentId :=
  r.agentId :: Db.delegatedTo db.events t

/-- How tasks have been handed on. -/
structure Handed (maxDepth : ℕ) (db : Db) : Prop where
  /-- Every hand-over says to whom. -/
  dest : ∀ e ∈ db.events, e.kind = .delegated → (e.payload.lookup "to").isSome
  /-- Only what exists is handed on. -/
  absent : ∀ {t}, db.tasks.lookup t = none → Db.delegatedTo db.events t = []
  /-- Nobody gets a task twice. -/
  nodup : ∀ {t r}, db.tasks.lookup t = some r → (db.executors t r).Nodup
  /-- The chain is bounded. -/
  length : ∀ {t r}, db.tasks.lookup t = some r → (db.executors t r).length ≤ maxDepth + 1
  /-- The last one executes the task. -/
  last : ∀ {t r}, db.tasks.lookup t = some r → (db.executors t r).getLast? = some r.activeAgentId

/-! ### Chains that grow at the end -/

section

variable {α : Type} {l l' : List α} {a b : α}

theorem eq_of_prefix_of_getLast? (h : l <+: l') (hn : l'.Nodup) (ha : l.getLast? = some a)
    (ha' : l'.getLast? = some a) : l = l' := by
  obtain ⟨s, rfl⟩ := h
  rcases List.eq_nil_or_concat' s with rfl | ⟨s, x, rfl⟩
  · simp
  · rw [← List.append_assoc, List.getLast?_concat, Option.some.injEq] at ha'
    subst ha'
    have hdis := (List.nodup_append.1 hn).2.2
    exact absurd rfl (hdis x (List.mem_of_getLast? ha) x (by simp))

theorem ne_getLast_of_mem_dropLast (h : l <+: l') (hn : l'.Nodup) (ha : a ∈ l.dropLast)
    (hb : l'.getLast? = some b) : b ≠ a := by
  rintro rfl
  obtain ⟨s, rfl⟩ := h
  obtain ⟨m, c, rfl⟩ : ∃ m c, l = m ++ [c] := by
    rcases List.eq_nil_or_concat' l with rfl | hl
    · exact absurd ha (by simp)
    · exact hl
  rw [List.dropLast_concat] at ha
  rw [List.append_assoc] at hn hb
  have hmem : b ∈ [c] ++ s := by
    rw [List.getLast?_append] at hb
    cases hl : ([c] ++ s).getLast? with
    | none => simp at hl
    | some x =>
      rw [hl, Option.some_or, Option.some.injEq] at hb
      exact hb ▸ List.mem_of_getLast? hl
  exact (List.nodup_append.1 hn).2.2 b ha b hmem rfl

end

/-! ### What one transaction does to the chain -/

section

variable {named : List TaskId} {db db' : Db} {x : Event Act} {t : TaskId} {r : TaskRow}

theorem Db.delegatedTo_append (events : List TaskEvent) (e : TaskEvent) (t : TaskId) :
    Db.delegatedTo (events ++ [e]) t = Db.delegatedTo events t ++
      if e.taskId = t ∧ e.kind = .delegated then (e.payload.lookup "to").toList else [] := by
  unfold Db.delegatedTo
  rw [List.filter_append, List.filterMap_append]
  split_ifs with h
  · cases hto : e.payload.lookup "to" <;> simp [h, hto]
  · have hb : (decide (e.taskId = t) && decide (e.kind = .delegated)) = false := by
      simpa using h
    simp [hb]

/-- The chain of a task grows by a hand-over of that task only, which also flips the executor. -/
theorem Effect.delegatedTo (h : Effect named db x db') (t : TaskId) :
    (∃ f r, x = ⟨.delegationPhaseC f t r.activeAgentId, .ok ()⟩ ∧ db.tasks.lookup t = some r ∧
      db'.tasks.lookup t = some { r with activeAgentId := f.destinationAgentId } ∧
      Db.delegatedTo db'.events t = Db.delegatedTo db.events t ++ [f.destinationAgentId]) ∨
    (Db.delegatedTo db'.events t = Db.delegatedTo db.events t ∧
      ∀ r, db.tasks.lookup t = some r →
        ∃ r', db'.tasks.lookup t = some r' ∧ r'.activeAgentId = r.activeAgentId) := by
  have hevent : ∀ (db : Db) (e : TaskEvent), e.kind ≠ .delegated →
      Db.delegatedTo (db.insertEvent e).events t = Db.delegatedTo db.events t := by
    intro db e he
    rw [Db.insertEvent, Db.delegatedTo_append, if_neg fun h => he h.2, List.append_nil]
  have hmoved : ∀ (t₀ : TaskId) (f : TaskRow → TaskRow),
      (∀ r, (f r).activeAgentId = r.activeAgentId) → ∀ r, db.tasks.lookup t = some r →
      ∃ r', AList.lookup t (db.tasks.update t₀ f) = some r' ∧
        r'.activeAgentId = r.activeAgentId := by
    intro t₀ f hf r hr
    rw [Table.lookup_update]
    split_ifs with he
    · subst he
      exact ⟨f r, by rw [hr]; rfl, hf r⟩
    · exact ⟨r, hr, rfl⟩
  cases h with
  | @create f caller d now root newId y hnew =>
    refine .inr ⟨hevent _ _ (by simp [admittedEvent]), fun r hr => ⟨r, ?_, rfl⟩⟩
    exact (AList.lookup_insert_ne fun he => by rw [he, hnew] at hr; exact absurd hr (by simp)).trans
      hr
  | noop => exact .inr ⟨hevent _ _ (by simp [transitionEvent]), fun r hr => ⟨r, hr, rfl⟩⟩
  | repeated => exact .inr ⟨hevent _ _ (by simp [transitionEvent]), fun r hr => ⟨r, hr, rfl⟩⟩
  | move => exact .inr ⟨hevent _ _ (by simp [transitionEvent]), hmoved _ _ fun _ => rfl⟩
  | result => exact .inr ⟨hevent _ _ (by simp [transitionEvent]), hmoved _ _ fun _ => rfl⟩
  | forceFail => exact .inr ⟨rfl, hmoved _ _ fun _ => rfl⟩
  | @handOver f t₀ r hr =>
    by_cases ht : t₀ = t
    · subst ht
      refine .inl ⟨f, r, rfl, hr, ?_, ?_⟩
      · exact (Table.lookup_update _ _ _ _).trans (by rw [if_pos rfl, hr]; rfl)
      · rw [Db.insertEvent, Db.delegatedTo_append, if_pos ⟨rfl, rfl⟩]
        rfl
    · refine .inr ⟨?_, fun r' hr' => ⟨r', ?_, rfl⟩⟩
      · rw [Db.insertEvent, Db.delegatedTo_append, if_neg fun h => ht h.1, List.append_nil]
        rfl
      · exact (Table.lookup_update _ _ _ _).trans (by rw [if_neg (Ne.symm ht), hr'])
  | _ => exact .inr ⟨rfl, fun r hr => ⟨r, hr, rfl⟩⟩

/-- The log is only appended to, and a hand-over that is appended says to whom. -/
theorem Effect.events (h : Effect named db x db') :
    ∀ e ∈ db'.events, e ∈ db.events ∨ (e.kind = .delegated → (e.payload.lookup "to").isSome) := by
  intro e he
  have hinsert : ∀ (db : Db) (e' : TaskEvent), e ∈ (db.insertEvent e').events →
      e ∈ db.events ∨ e = e' := by
    intro db e' he
    simpa [Db.insertEvent] using he
  cases h with
  | create | noop | move | repeated | result =>
    refine (hinsert _ _ he).imp id ?_
    rintro rfl hk
    exact absurd hk (by simp [admittedEvent, transitionEvent])
  | handOver =>
    refine (hinsert _ _ he).imp id ?_
    rintro rfl -
    rfl
  | _ => exact .inl he

/-- The executors so far remain the first ones. -/
theorem Effect.executors_grow (h : Effect named db x db') (hr : db.tasks.lookup t = some r) :
    ∃ r', db'.tasks.lookup t = some r' ∧ db.executors t r <+: db'.executors t r' := by
  obtain ⟨r', hr', hl⟩ := h.later hr
  refine ⟨r', hr', ?_⟩
  rw [Db.executors, Db.executors, hl.agentId]
  rcases h.delegatedTo t with ⟨f, _, -, -, -, hd⟩ | ⟨hd, -⟩
  · exact ⟨[f.destinationAgentId], by rw [hd, List.cons_append]⟩
  · exact ⟨[], by rw [hd, List.append_nil]⟩

/-- The query that a delegation is vetted with sees the whole chain. -/
theorem Handed.listDelegationDestinations {maxDepth : ℕ} (hh : Handed maxDepth db)
    (hr : db.tasks.lookup t = some r) :
    db.listDelegationDestinations r.userId t (maxDepth + 1) = Db.delegatedTo db.events t := by
  have hsome : (db.getTask r.userId t).isSome := by rw [Db.getTask_eq_some.2 ⟨hr, rfl⟩]; rfl
  rw [Db.listDelegationDestinations, if_pos hsome, List.take_of_length_le]
  · rfl
  · have hlen := hh.length hr
    have hall : (Db.delegatedTo db.events t).length = (db.events.filter fun e =>
        decide (e.taskId = t) && decide (e.kind = .delegated)).length := by
      refine List.filterMap_length_eq_length.2 fun e he => ?_
      obtain ⟨hm, hk⟩ := List.mem_filter.1 he
      simp only [Bool.and_eq_true, decide_eq_true_eq] at hk
      exact hh.dest e hm hk.2
    simp only [Db.executors, List.length_cons] at hlen
    omega

end

/-! ### Phase A comes before phase C -/

/-- The hand-overs phase A has let pass: of which task, by whom, to whom. -/
abbrev Vetted := TaskId → AgentId → AgentId → Prop

/-- A hand-over is carried out after it was let pass. -/
def Vetted.ok : {β : Type} → Vetted → Act β → Prop
  | _, q, .delegationPhaseC f t caller => q t caller f.destinationAgentId
  | _, _, _ => True

/-- What an answer teaches. -/
def Vetted.next : {β : Type} → Vetted → Act β → β → Vetted
  | _, q, .delegationPhaseA f _ caller, .ok plan => fun t a b =>
    q t a b ∨ (t = plan.taskId ∧ a = caller ∧ b = f.destinationAgentId)
  | _, q, _, _ => q

/-- The discipline of a delegation. -/
def handOver : Discipline Act Vetted := ⟨Vetted.ok, fun _ _ => True, Vetted.next⟩

section

variable {cfg : Config} {q : Vetted} {α : Type} {p : Coroutine α} {f : NewTaskFrame} {t : TaskId}
  {a : AgentId}

theorem handOver_accumulates : handOver.Accumulates := by
  intro β q a b
  change q ≤ q.next a b
  cases a with
  | delegationPhaseA f t c => cases b with
    | ok plan => exact fun _ _ _ => .inl
    | error e => exact le_rfl
  | _ => exact le_rfl

/-- A program without phase C. -/
theorem Uses.handOver {T : List Tag} (h : Uses p T) (hT : .delegationPhaseC ∉ T) :
    handOver.Obeys q p fun _ _ => True := by
  refine .of_ok (Only.mono h fun a ha q => ?_)
  cases a with
  | delegationPhaseC => exact absurd ha hT
  | _ => trivial

theorem handOver_admitDelegation :
    handOver.Obeys q (admitDelegation f t a).run fun _ _ => True := by
  have herr : ∀ {q q' : Vetted} (e : Exn), q ≤ q' → True → True := fun _ _ _ => trivial
  refine ((uses_lookupAgents _ _).handOver (by decide)).except_bind_le handOver_accumulates
    (fun q₁ x _ _ => ?_) fun _ => herr
  obtain ⟨caller, callee⟩ := x
  refine (uses_requireLevel.handOver (by decide)).except_bind_le handOver_accumulates
    (fun q₂ l _ _ => ?_) fun _ => herr
  refine ((uses_requireAllowed _ _ _ _).handOver (by decide)).except_bind_le handOver_accumulates
    (fun q₃ _ _ _ => ?_) fun _ => herr
  refine obeys_call_bind.2 ⟨trivial, fun plan _ => ?_⟩
  cases plan with
  | error e => trivial
  | ok plan =>
    -- from here on the hand-over of `plan` is vetted
    refine ((uses_lift (uses_deliverFrame _ _)).handOver (by decide)).except_bind_le
      handOver_accumulates (fun q₄ out hle _ => ?_) fun _ => herr
    rcases out with (_ | _ | _ | _) | m
    iterate 4 trivial
    cases m with
    | ack ack =>
      dsimp only
      split_ifs
      · trivial
      · refine obeys_call_bind.2 ⟨hle _ _ _ (.inr ⟨rfl, rfl, rfl⟩), fun out _ => ?_⟩
        cases out <;> trivial
    | _ => trivial

theorem handOver_admitTask : handOver.Obeys q (admitTask cfg f a).run fun _ _ => True := by
  unfold admitTask
  split
  · exact handOver_admitDelegation.except_bind_le handOver_accumulates (fun _ _ _ _ => trivial)
      fun _ _ _ _ => trivial
  · refine (uses_joinExisting.handOver (by decide)).except_bind_le handOver_accumulates
      (fun q₁ existing _ _ => ?_) fun _ _ _ _ => trivial
    cases existing with
    | some r => trivial
    | none =>
      exact (uses_preflight.handOver (by decide)).except_bind_le handOver_accumulates
        (fun q₂ l _ _ => (uses_createAndDispatch l).handOver (by decide)) fun _ _ _ _ => trivial

/-- **Every call carries out only hand-overs that were let pass.** -/
theorem handOver_body (c : Call) : handOver.Obeys q (c.body cfg) fun _ _ => True := by
  have hkeeps : ∀ {β : Type} {p : Coroutine β} {T : List Tag}, Uses p T →
      .delegationPhaseC ∉ T → handOver.Keeps (fun _ => True) p :=
    fun h hT _ _ => h.handOver hT
  refine KeepsTasks.body (I := fun _ => True) ⟨fun x hx q _ => ?_, fun _ _ _ _ =>
    ⟨trivial, fun _ _ => trivial⟩, fun _ _ => hkeeps uses_completeTask (by decide),
    fun _ _ _ _ => hkeeps (uses_cancelTask _ _ _ _) (by decide),
    fun _ _ _ => hkeeps (uses_failTask _ _ _) (by decide), fun _ _ _ _ => handOver_admitTask⟩ c q
    trivial
  cases x with
  | delegationPhaseC => exact absurd hx (by simp [Act.tag, plainTags])
  | _ => exact ⟨trivial, fun _ _ => trivial⟩

end

/-! ### Every run -/

/-- What phase A has found: the caller was the last executor, the destination was none, and there
was room for one more. -/
def Vetted.Holds (maxDepth : ℕ) (q : Vetted) (db : Db) : Prop :=
  ∀ t a b, q t a b → ∃ r, db.tasks.lookup t = some r ∧ ∃ l, l <+: db.executors t r ∧
    l.getLast? = some a ∧ b ∉ l ∧ l.length ≤ maxDepth

section

variable {cfg : Config} {q : Vetted} {s s' : Router} {β : Type} {a : Act β} {e : Env} {b : β}
  {maxDepth : ℕ}

theorem Vetted.Holds.exec (hq : q.Holds maxDepth s.db)
    (he : Act.exec cfg a e s = some (s', b)) : q.Holds maxDepth s'.db := by
  intro t x y h
  obtain ⟨r, hr, l, hl, hl'⟩ := hq t x y h
  obtain ⟨r', hr', hpre⟩ := (Act.exec_effect he).1.executors_grow hr
  exact ⟨r', hr', l, hl.trans hpre, hl'⟩

theorem Vetted.Holds.next (hw : Wf cfg s.db) (hh : Handed cfg.taskDelegationMaxDepth s.db)
    (hq : q.Holds cfg.taskDelegationMaxDepth s.db) (he : Act.exec cfg a e s = some (s', b)) :
    (q.next a b).Holds cfg.taskDelegationMaxDepth s'.db := by
  have hq' := hq.exec he
  cases a with
  | delegationPhaseA f t c =>
    cases b with
    | error e => exact hq'
    | ok plan =>
      obtain ⟨rfl, hout⟩ := Prod.mk.inj (Option.some.inj he)
      rintro t' x y (h | ⟨rfl, rfl, rfl⟩)
      · exact hq' t' x y h
      · obtain ⟨r, hr, hu, -, hact, hlen, hcycle, rfl⟩ := Db.delegationPhaseA_ok hout
        obtain rfl := hw.key hr
        rw [← hu, hh.listDelegationDestinations hr] at hlen hcycle
        exact ⟨r, hr, _, List.prefix_rfl, (hh.last hr).trans (congrArg some hact), hcycle, hlen⟩
  | _ => exact hq'

/-- A vetted hand-over keeps the chains in order; nothing else touches them. -/
theorem Handed.exec (hh : Handed maxDepth s.db) (hq : q.Holds maxDepth s.db) (hok : q.ok a)
    (he : Act.exec cfg a e s = some (s', b)) : Handed maxDepth s'.db := by
  obtain ⟨heff, -⟩ := Act.exec_effect he
  have hnew : ∀ {t r'}, s.db.tasks.lookup t = none → s'.db.tasks.lookup t = some r' →
      s'.db.executors t r' = [r'.activeAgentId] := by
    intro t r' hr hr'
    obtain ⟨f, c, d, now, root, -, rfl, -⟩ := heff.created hr hr'
    have hnone : Db.delegatedTo s'.db.events t = [] := by
      rcases heff.delegatedTo t with ⟨_, r₀, -, hr₀, -⟩ | ⟨hd, -⟩
      · rw [hr] at hr₀
        exact absurd hr₀ (by simp)
      · rw [hd, hh.absent hr]
    rw [Db.executors, hnone]
    rfl
  -- a row that was there is handed over, or its chain stays as it is
  have hold : ∀ {t r r'}, s.db.tasks.lookup t = some r → s'.db.tasks.lookup t = some r' →
      (s'.db.executors t r' = s.db.executors t r ∧ r'.activeAgentId = r.activeAgentId) ∨
      (s'.db.executors t r' = s.db.executors t r ++ [r'.activeAgentId] ∧
        r'.activeAgentId ∉ s.db.executors t r ∧ (s.db.executors t r).length ≤ maxDepth) := by
    intro t r r' hr hr'
    obtain ⟨r₁, hr₁, hl⟩ := heff.later hr
    obtain rfl := Option.some.inj (hr'.symm.trans hr₁)
    rcases heff.delegatedTo t with ⟨f, r₀, hx, hr₀, hnew, hd⟩ | ⟨hd, hact⟩
    · obtain rfl := Option.some.inj (hr.symm.trans hr₀)
      obtain rfl := Option.some.inj (hr'.symm.trans hnew)
      cases hx
      obtain ⟨r₂, hr₂, l, hpre, hlast, hfresh, hlen⟩ := hq _ _ _ hok
      obtain rfl := Option.some.inj (hr.symm.trans hr₂)
      -- the caller still executes the task, so the chain is the one that was vetted
      obtain rfl := eq_of_prefix_of_getLast? hpre (hh.nodup hr) hlast (hh.last hr)
      refine .inr ⟨?_, hfresh, hlen⟩
      simp only [Db.executors, hd, List.cons_append]
    · obtain ⟨r₁, hr₁, hact⟩ := hact r hr
      obtain rfl := Option.some.inj (hr'.symm.trans hr₁)
      exact .inl ⟨by rw [Db.executors, Db.executors, hd, hl.agentId], hact⟩
  refine ⟨fun x hx hk => ?_, fun {t} hr' => ?_, fun {t r'} hr' => ?_, fun {t r'} hr' => ?_,
    fun {t r'} hr' => ?_⟩
  · exact (heff.events x hx).elim (fun h => hh.dest x h hk) fun h => h hk
  · cases hr : s.db.tasks.lookup t with
    | none =>
      rcases heff.delegatedTo t with ⟨_, r₀, -, hr₀, -⟩ | ⟨hd, -⟩
      · rw [hr] at hr₀
        exact absurd hr₀ (by simp)
      · rw [hd, hh.absent hr]
    | some r =>
      obtain ⟨r₁, hr₁, -⟩ := heff.later hr
      rw [hr'] at hr₁
      exact absurd hr₁ (by simp)
  · cases hr : s.db.tasks.lookup t with
    | none => rw [hnew hr hr']; simp
    | some r =>
      rcases hold hr hr' with ⟨hc, -⟩ | ⟨hc, hfresh, -⟩ <;> rw [hc]
      · exact hh.nodup hr
      · rw [List.nodup_append_comm, List.singleton_append, List.nodup_cons]
        exact ⟨hfresh, hh.nodup hr⟩
  · cases hr : s.db.tasks.lookup t with
    | none => rw [hnew hr hr']; simp
    | some r =>
      rcases hold hr hr' with ⟨hc, -⟩ | ⟨hc, -, hlen⟩ <;> rw [hc]
      · exact hh.length hr
      · rw [List.length_append, List.length_singleton]
        omega
  · cases hr : s.db.tasks.lookup t with
    | none => rw [hnew hr hr']; rfl
    | some r =>
      rcases hold hr hr' with ⟨hc, hact⟩ | ⟨hc, -⟩ <;> rw [hc]
      · rw [hh.last hr, hact]
      · exact List.getLast?_concat

variable {g : Guard Act Env Router Call Ret} {d : Deployment} {P Q : Pool Act Router Call Ret}
  {t : TaskId} {r : TaskRow}

theorem sound_handOver (cfg : Config) (g : Guard Act Env Router Call Ret) (d : Deployment) :
    Sound (router cfg) g handOver (fun _ _ _ _ => False) d.boot
      (fun s _ => Handed cfg.taskDelegationMaxDepth s.db)
      (fun _ _ q s _ => q.Holds cfg.taskDelegationMaxDepth s.db) where
  init := by
    have hnone : ∀ {t : TaskId} {r : TaskRow}, (d.boot.db.tasks.lookup t = some r) → False :=
      fun h => absurd h (by simp [Deployment.boot])
    exact ⟨by simp [Deployment.boot], fun _ => rfl, fun h => (hnone h).elim,
      fun h => (hnone h).elim, fun h => (hnone h).elim⟩
  start _ _ _ _ _ _ := False.elim
  step hrun _ _ he hh hq hok := ⟨trivial, hh.exec hq hok he, hq.next (wf_of_run hrun) hh he⟩
  frame _ _ _ he _ _ _ _ _ _ _ hq' := hq'.exec he

/-- In every reachable state the executors of every task form a proper chain. -/
theorem executors_of_run (h : Run (router cfg) g (.init d.boot) P) :
    Handed cfg.taskDelegationMaxDepth P.shared.db :=
  ((sound_handOver cfg g d).of_run handOver_body h).1

theorem executors_grow_of_run (h : Run (router cfg) g P Q)
    (hr : P.shared.db.tasks.lookup t = some r) :
    ∃ r', Q.shared.db.tasks.lookup t = some r' ∧
      P.shared.db.executors t r <+: Q.shared.db.executors t r' := by
  induction h with
  | refl => exact ⟨r, hr, List.prefix_rfl⟩
  | start _ _ _ ih => exact ih
  | step _ _ _ he ih =>
    obtain ⟨r₁, hr₁, h₁⟩ := ih
    obtain ⟨r₂, hr₂, h₂⟩ := (Act.exec_effect he).1.executors_grow hr₁
    exact ⟨r₂, hr₂, h₁.trans h₂⟩

end

/-! ### What an executor reports -/

/-- The action reports this Result of the agent, or writes nothing. -/
def Act.Reports (f : ResultFrame) (a : AgentId) : {β : Type} → Act β → Prop
  | _, complete f' a' => f' = f ∧ a' = a
  | _, x => x.writes = false

/-- The frame is a Result or Progress of the task. -/
def Frame.ReportsOn (t : TaskId) : Frame → Prop
  | .result f => f.taskId = t
  | .progress f => f.taskId = t
  | _ => False

section

variable {cfg : Config} {f : ResultFrame} {a : AgentId}

theorem Act.reports_of_writes {β : Type} (x : Act β) (h : x.writes = false) : x.Reports f a := by
  cases x <;> first | exact h | exact absurd h (by simp [writes])

theorem only_handleResult (k : SocketId) (cid : CorrelationId) :
    (handleResult k a cid f).Only (Act.Reports f a) := by
  have hsilent : ∀ {β : Type} {p : Coroutine β} {T : List Tag}, Uses p T →
      (∀ g ∈ T, g ∉ writeTags) → p.Only (Act.Reports f a) :=
    fun h hT => (h.writes hT).mono Act.reports_of_writes
  refine Only.bind ⟨⟨rfl, rfl⟩, fun out => ?_⟩ fun _ =>
    (hsilent (uses_putAck _ _ _ _) (by decide)).bind fun _ => trivial
  cases out with
  | done prev row =>
    exact (hsilent (T := [.notifyTaskTerminal]) (uses_perform rfl) (by decide)).bind fun _ =>
      hsilent (uses_deliverQuietly _ _) (by decide)
  | _ => trivial

variable {g : Guard Act Env Router Call Ret} {d : Deployment} {Q : Pool Act Router Call Ret}
  {s : Router} {β : Type} {x : Act β} {next : β → Coroutine Ret} {b : β} {e : Env}

/-- A Result or Progress of an agent that does not execute the task leaves the database alone. -/
theorem report_ignored (h : Run (router cfg) g (.init d.boot) Q) {t : TaskId} {r : TaskRow}
    (hr : Q.shared.db.tasks.lookup t = some r) (ha : r.activeAgentId ≠ a) {i : ℕ} {k : SocketId}
    {cid : CorrelationId} {m : Frame} (hm : m.ReportsOn t)
    (hth : Q.threads[i]? = some ⟨.frame k a ⟨cid, m⟩, .act x next⟩)
    (he : Act.exec cfg x e Q.shared = some (s, b)) : s.db = Q.shared.db := by
  have hafter := h.after hth
  cases m with
  | result f =>
    obtain rfl : f.taskId = t := hm
    obtain ⟨-, hx, -⟩ := hafter.only
      (Only.bind (only_handleResult (a := a) (f := f) k cid) fun _ => trivial)
    cases hw : x.writes with
    | false => exact (Act.exec_inMemory he hw).1
    | true =>
      cases x with
      | complete f' a' =>
        obtain ⟨rfl, rfl⟩ := hx
        simp only [Act.exec, Db.completeTx, hr, if_pos (Ne.symm ha)] at he
        obtain ⟨rfl, -⟩ := Prod.mk.inj (Option.some.inj he)
        rfl
      | _ => exact absurd (hw.symm.trans hx) (by simp)
  | progress f =>
    obtain ⟨-, hx, -⟩ := hafter.only
      (Only.bind ((uses_handleProgress f).writes (by decide)) fun _ => trivial)
    exact (Act.exec_inMemory he hx).1
  | _ => exact hm.elim

end

/-! ### Never again -/

/-- **The executors of a task form a chain without repetition, at most one longer than the bound,
which ends in the active one.**  One that has handed the task on never becomes active again, and no
Result or Progress of it, whenever it is handled, writes anything. -/
theorem executor_chain {cfg : Config} {d : Deployment} {P : Pool Act Router Call Ret} {t : TaskId}
    {r : TaskRow} (h : Run (router cfg) .free (.init d.boot) P)
    (hr : P.shared.db.tasks.lookup t = some r) :
    (P.shared.db.executors t r).Nodup ∧
    (P.shared.db.executors t r).length ≤ cfg.taskDelegationMaxDepth + 1 ∧
    (P.shared.db.executors t r).getLast? = some r.activeAgentId ∧
    ∀ a ∈ (P.shared.db.executors t r).dropLast, ∀ Q : Pool Act Router Call Ret,
      Run (router cfg) .free P Q →
      (∀ r', Q.shared.db.tasks.lookup t = some r' → r'.activeAgentId ≠ a) ∧
      ∀ (i : ℕ) k cid (m : Frame) β (x : Act β) next e s b, m.ReportsOn t →
        Q.threads[i]? = some ⟨.frame k a ⟨cid, m⟩, .act x next⟩ →
        Act.exec cfg x e Q.shared = some (s, b) → s.db = Q.shared.db := by
  have hh := executors_of_run h
  refine ⟨hh.nodup hr, hh.length hr, hh.last hr, fun a ha Q hQ => ?_⟩
  obtain ⟨r', hr', hpre⟩ := executors_grow_of_run hQ hr
  have hh' := executors_of_run (h.trans hQ)
  have hne : r'.activeAgentId ≠ a :=
    ne_getLast_of_mem_dropLast hpre (hh'.nodup hr') ha (hh'.last hr')
  refine ⟨fun r'' hr'' => ?_, fun i k cid m β x next e s b hm hth he => ?_⟩
  · obtain rfl := Option.some.inj (hr'.symm.trans hr'')
    exact hne
  · exact report_ignored (h.trans hQ) hr' hne hm hth he

/-- Once `c` executes `t`, `b` never does again. -/
theorem executor_chain_handed : ∃ P r, Sample.play Sample.anything
      Sample.handedOn = some P ∧
    P.shared.db.tasks.lookup "t" = some r ∧ P.shared.db.executors "t" r = ["b", "c"] ∧
    (P.shared.db.executors "t" r).Nodup ∧ r.activeAgentId = "c" ∧
    ∀ Q r', Run (router {}) .free P Q → Q.shared.db.tasks.lookup "t" = some r' →
      r'.activeAgentId ≠ "b" := by
  have hplay : ((Sample.play Sample.anything Sample.handedOn).bind fun P =>
      (P.shared.db.tasks.lookup "t").map fun r =>
        (P.shared.db.executors "t" r, r.activeAgentId)) = some (["b", "c"], "c") := by
    decide +kernel
  obtain ⟨P, hP, h⟩ := Option.bind_eq_some_iff.1 hplay
  obtain ⟨r, hr, h⟩ := Option.map_eq_some_iff.1 h
  obtain ⟨hc, ha⟩ := Prod.mk.inj h
  obtain ⟨hnodup, -, -, hnever⟩ := executor_chain (Sample.free_of_play hP) hr
  exact ⟨P, r, hP, hr, hc, hnodup, ha, fun Q r' hQ hr' =>
    (hnever "b" (by rw [hc]; simp) Q hQ).1 r' hr'⟩

/-! ### The Result of a delegate -/

/-- The ticket under which a task was offered to a delegate. -/
def offerOf (dst : AgentId) (t : TaskId) : Event Act → Option Ticket
  | ⟨.deliverAwait dst' (.newTask f), .ok ticket⟩ =>
    if dst' = dst ∧ f.taskId = some t ∧ f.delegatingAgentId.isSome then some ticket else none
  | _ => none

/-- The router has received an accepting Ack for an offer of the task to the delegate. -/
def acknowledged (P : Pool Act Router Call Ret) (dst : AgentId) (t : TaskId) : Bool :=
  P.log.any fun x => (offerOf dst t x.2).any fun ticket =>
    match P.shared.correlation.settled.lookup ticket.correlationId with
    | some (.frame (.ack ack)) => ack.accepted
    | _ => false

/-- The task has ended, or its last hand-over that was carried out is the one to this agent. -/
def flipCommitted (db : Db) (t : TaskId) (dst : AgentId) : Bool :=
  ((db.tasks.lookup t).any fun r => r.state.isTerminal) ||
    decide ((Db.delegatedTo db.events t).getLast? = some dst)

/-- A Result is not processed between the delegate's Ack and phase C. -/
def afterFlip (P : Pool Act Router Call Ret) : {β : Type} → Act β → Bool
  | _, .complete f dst =>
    !acknowledged P dst f.taskId || flipCommitted P.shared.db f.taskId dst
  | _, _ => true

/-- Results of delegates wait for phase C. -/
def flipFirst : Guard Act Env Router Call Ret :=
  ⟨fun _ _ => True, fun P _ _ a _ => afterFlip P a = true⟩

section

variable {cfg : Config} {d : Deployment} {P Q : Pool Act Router Call Ret} {j : ℕ} {c : Call}
  {f : ResultFrame} {dst : AgentId} {e : Env} {s : Router} {out : Completed}

/-- What the executor reports about an open task ends it. -/
theorem complete_of_executor (hw : Wf cfg P.shared.db) {r : TaskRow}
    (hr : P.shared.db.tasks.lookup f.taskId = some r) (ha : r.activeAgentId = dst)
    (he : Act.exec cfg (.complete f dst) e P.shared = some (s, out)) :
    s.db.Ended f.taskId ∧ (P.shared.db.Ended f.taskId ∨ ∃ prev r, out = .done prev r) := by
  cases out with
  | done prev r' =>
    obtain ⟨hr', -, -, -, -, -, -, hs⟩ := Act.exec_complete_done he
    exact ⟨⟨r', hr', hs ▸ isTerminal_stateFromStatus f.status⟩, .inr ⟨prev, r', rfl⟩⟩
  | duplicate =>
    have hend : P.shared.db.Ended f.taskId := by
      refine ⟨r, hr, ?_⟩
      by_contra ho
      have hal := allowed_terminal (by simpa using ho) (fun hwait => absurd hwait (hw.waiting hr))
        (isTerminal_stateFromStatus f.status)
      rcases P.shared.db.completeTx_cases f dst with
        ⟨hn, -⟩ | ⟨r', hr', hne, -⟩ | ⟨r', hr', -, -, hnot, -⟩ | ⟨_, -, -, -, htx⟩ |
          ⟨_, -, -, -, htx⟩
      · exact absurd (hr.symm.trans hn) (by simp)
      · obtain rfl := Option.some.inj (hr.symm.trans hr')
        exact hne ha.symm
      · obtain rfl := Option.some.inj (hr.symm.trans hr')
        rw [hal] at hnot
        exact absurd hnot (by simp)
      all_goals
        simp only [Act.exec, htx] at he
        exact absurd (congrArg Prod.snd (Option.some.inj he)) (by simp [Router.commit])
    exact ⟨(Act.exec_effect he).1.ended hend, .inl hend⟩
  | unknownTask | wrongAgent =>
    rcases P.shared.db.completeTx_cases f dst with
      ⟨hn, -⟩ | ⟨r', hr', hne, -⟩ | ⟨_, -, -, -, -, htx⟩ | ⟨_, -, -, -, htx⟩ | ⟨_, -, -, -, htx⟩
    · exact absurd (hr.symm.trans hn) (by simp)
    · obtain rfl := Option.some.inj (hr.symm.trans hr')
      exact absurd ha.symm hne
    all_goals
      simp only [Act.exec, htx] at he
      exact absurd (congrArg Prod.snd (Option.some.inj he)) (by simp [Router.commit])

/-- **A delegate that has acknowledged a task ends it with its Result**: from then on the task has
ended in every state, and unless it had ended before, the Result was accepted.  No Result is
processed before phase C has been carried out. -/
theorem delegate_ends {k : Completed → Coroutine Ret}
    (h : Run (router cfg) flipFirst (.init d.boot) P)
    (hack : acknowledged P dst f.taskId = true)
    (hg : flipFirst.fire P j c (.complete f dst) e)
    (he : Act.exec cfg (.complete f dst) e P.shared = some (s, out))
    (hQ : Run (router cfg) flipFirst (P.fired j c (.complete f dst) k s out) Q) :
    Q.shared.db.Ended f.taskId ∧ (P.shared.db.Ended f.taskId ∨ ∃ prev r, out = .done prev r) := by
  have hflip : flipCommitted P.shared.db f.taskId dst = true := by
    simpa [flipFirst, afterFlip, hack] using hg
  simp only [flipCommitted, Bool.or_eq_true, decide_eq_true_eq] at hflip
  rcases hflip with hend | hlast
  · obtain ⟨r, hr, hterm⟩ := (Option.any_eq_true _ _).1 hend
    have hP : P.shared.db.Ended f.taskId := ⟨r, hr, hterm⟩
    exact ⟨ended_of_run hQ ((Act.exec_effect he).1.ended hP), .inl hP⟩
  · have hh := executors_of_run h
    cases hr : P.shared.db.tasks.lookup f.taskId with
    | none =>
      rw [hh.absent hr] at hlast
      exact absurd hlast (by simp)
    | some r =>
      -- the last one the task was handed to executes it
      have hact := hh.last hr
      rw [Db.executors, List.getLast?_cons, hlast, Option.getD_some, Option.some.injEq] at hact
      obtain ⟨hend, hout⟩ := complete_of_executor (wf_of_run h) hr hact.symm he
      exact ⟨ended_of_run hQ hend, hout⟩

end

/-- The Result a coroutine is about to process. -/
def reporting : Coroutine Ret → Option (ResultFrame × AgentId)
  | .act (.complete f dst) _ => some (f, dst)
  | _ => none

theorem reporting_eq_some {p : Coroutine Ret} {f : ResultFrame} {dst : AgentId}
    (h : reporting p = some (f, dst)) : ∃ k, p = .act (.complete f dst) k := by
  unfold reporting at h
  split at h
  · obtain ⟨rfl, rfl⟩ := Prod.mk.inj (Option.some.inj h)
    exact ⟨_, rfl⟩
  · exact absurd h (by simp)

/-- `c` sends its Result (coroutine `7`) after phase C. -/
theorem delegate_ends_flipped : ∃ P Q : Pool Act Router Call Ret,
    Sample.play (fun P _ _ a _ => afterFlip P a) (Sample.handedOn ++
      [Sample.receive 2 "c" (.result (Sample.result "c" "t" .succeeded))]) = some P ∧
    acknowledged P "c" "t" = true ∧ Run (router {}) flipFirst P Q ∧ Q.shared.db.Ended "t" := by
  have hplay : ((Sample.play (fun P _ _ a _ => afterFlip P a) (Sample.handedOn ++
      [Sample.receive 2 "c" (.result (Sample.result "c" "t" .succeeded))])).bind fun P =>
        P.threads[7]?.map fun th => (reporting th.prog, acknowledged P "c" "t",
          flipCommitted P.shared.db "t" "c")) =
      some (some (Sample.result "c" "t" .succeeded, "c"), true, true) := by
    decide +kernel
  obtain ⟨P, hP, h⟩ := Option.bind_eq_some_iff.1 hplay
  obtain ⟨⟨c, p⟩, hth, h⟩ := Option.map_eq_some_iff.1 h
  obtain ⟨hrep, h⟩ := Prod.mk.inj h
  obtain ⟨hack, hflip⟩ := Prod.mk.inj h
  obtain ⟨k, rfl⟩ := reporting_eq_some hrep
  have hrun : Run (router {}) flipFirst (.init Sample.deployment.boot) P :=
    Sample.run_of_play (fun _ _ => trivial) (fun _ _ _ _ _ hc => hc) hP
  have hfire : flipFirst.fire P 7 c (.complete (Sample.result "c" "t" .succeeded) "c") {} := by
    simp [flipFirst, afterFlip, Sample.result, hflip]
  have hstep := (Run.refl P).step hth hfire (M := router {}) (e := {}) rfl
  exact ⟨P, _, hP, hack, hstep, (delegate_ends hrun hack hfire rfl (.refl _)).1⟩

/-- When `c` sends its Result before phase C, the Result is dropped and the task goes on. -/
theorem delegate_dropped : ¬ ∀ (cfg : Config) (d : Deployment) (P Q : Pool Act Router Call Ret)
    (j : ℕ) (c : Call) (f : ResultFrame) (dst : AgentId) (k : Completed → Coroutine Ret) (e : Env)
    (s : Router) (out : Completed),
    Run (router cfg) .free (.init d.boot) P →
    P.threads[j]? = some ⟨c, .act (.complete f dst) k⟩ →
    acknowledged P dst f.taskId = true →
    Act.exec cfg (.complete f dst) e P.shared = some (s, out) →
    Run (router cfg) .free (P.fired j c (.complete f dst) k s out) Q →
    Q.shared.db.Ended f.taskId ∧
      (P.shared.db.Ended f.taskId ∨ ∃ prev r, out = .done prev r) := by
  intro hall
  have hplay : ((Sample.play Sample.anything (Sample.asked ++
      [Sample.receive 2 "c" (.result (Sample.result "c" "t" .succeeded))])).bind fun P =>
        P.threads[7]?.map fun th => (reporting th.prog, acknowledged P "c" "t",
          ((P.shared.db.completeTx (Sample.result "c" "t" .succeeded) "c").1.tasks.lookup "t").any
            fun r => r.state.isTerminal)) =
      some (some (Sample.result "c" "t" .succeeded, "c"), true, false) := by
    decide +kernel
  obtain ⟨P, hP, h⟩ := Option.bind_eq_some_iff.1 hplay
  obtain ⟨⟨c, p⟩, hth, h⟩ := Option.map_eq_some_iff.1 h
  obtain ⟨hrep, h⟩ := Prod.mk.inj h
  obtain ⟨hack, hopen⟩ := Prod.mk.inj h
  obtain ⟨k, rfl⟩ := reporting_eq_some hrep
  obtain ⟨⟨r, hr, hend⟩, -⟩ := hall {} Sample.deployment P _ 7 c _ "c" k {} _ _
    (Sample.free_of_play hP) hth hack rfl (.refl _)
  have hany : (((P.shared.db.completeTx (Sample.result "c" "t" .succeeded) "c").1.tasks.lookup
      "t").any fun r => r.state.isTerminal) = true := (Option.any_eq_true _ _).2 ⟨r, hr, hend⟩
  exact absurd (hany.symm.trans hopen) (by simp)

end Backplane
