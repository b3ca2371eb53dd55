import Backplane.Router.Absorption

/-!
# Executors are told to stop

When the router ends a running task, the agent that executes it should receive a Cancel.  A
cancellation, of the task itself or in a cascade, sends one; a failure sends none for the task that
failed.

* `Stops`, `stopping` : the cancelled rows a coroutine still has to announce to their executors.
* `stopping_body` : every program announces what it cancels.
* `Router.CanReceive` : the agent is connected with room in its outbox.
* `informing` : the router fails a running task only while its executor cannot receive, does not
  cancel again what the executor itself has reported as cancelled, and the database does not fail
  before the announcements.
* `executor_notified` : then the executor of each running task that the router ends is sent a
  Cancel, and no Cancel is sent for a task that ended with a Result.
-/

namespace Backplane

open Concur Prog

/-! ### The duty to announce -/

/-- The cancelled rows a coroutine knows of. -/
structure Stops where
  /-- It has cancelled the row. -/
  mine : TaskRow → Prop
  /-- The executor was not told yet. -/
  owes : TaskRow → Prop

namespace Stops

/-- Nothing cancelled. -/
def none : Stops := ⟨fun _ => False, fun _ => False⟩

/-- A Cancel is sent for a row that was cancelled, to its executor. -/
def ok : {β : Type} → Stops → Act β → Prop
  | _, q, .deliver dst (.cancel f) => ∃ r, q.mine r ∧ some r.taskId = f.taskId ∧
      r.activeAgentId = dst
  | _, _, _ => True

/-- A transaction answers the row it was asked about. -/
def ans : {β : Type} → Act β → β → Prop
  | _, .transition t _ _, .done _ r => r.taskId = t
  | _, _, _ => True

/-- What an answer teaches.  After a database failure nothing is owed any more. -/
def next : {β : Type} → Stops → Act β → β → Stops
  | _, q, .transition _ .cancelled _, .done _ r =>
    ⟨fun r' => q.mine r' ∨ r' = r, fun r' => q.owes r' ∨ r' = r⟩
  | _, q, .deliver dst (.cancel f), _ =>
    { q with owes := fun r => q.owes r ∧ ¬ (some r.taskId = f.taskId ∧ r.activeAgentId = dst) }
  | _, q, .fault, true => { q with owes := fun _ => False }
  | _, q, _, _ => q

/-- Every executor was told. -/
def Clear (q : Stops) : Prop := ∀ r, ¬ q.owes r

end Stops

/-- The discipline of announcing. -/
def stopping : Discipline Act Stops := ⟨Stops.ok, Stops.ans, Stops.next⟩

section

variable {q : Stops} {α : Type} {p : Coroutine α} {t : TaskId} {u : UserId} {a : AgentId}

/-- The tags of the actions that have to do with announcing. -/
def stoppingTagsSpecial : List Tag := [.transition .cancelled, .deliver, .fault]

/-- A program that cancels nothing and tells nobody. -/
theorem Uses.stopping {T : List Tag} (h : Uses p T) (hT : ∀ g ∈ T, g ∉ stoppingTagsSpecial) :
    stopping.Obeys q p fun q' _ => q' = q := by
  refine .of_only (Only.mono h fun a ha q => ?_) fun _ => rfl
  have hg := hT _ ha
  cases a with
  | deliver | fault => exact absurd (by simp [Act.tag, stoppingTagsSpecial]) hg
  | transition t new c =>
    refine ⟨trivial, fun b _ => ?_⟩
    cases new <;> first
      | (cases b <;> rfl)
      | exact absurd (by simp [Act.tag, stoppingTagsSpecial]) hg
  | _ => exact ⟨trivial, fun _ _ => rfl⟩

/-- A frame that is no Cancel. -/
theorem stopping_deliverOther {dst : AgentId} {f : Frame} (hf : ∀ c, f ≠ .cancel c) :
    stopping.Obeys q (deliverQuietly dst f) fun q' _ => q' = q := by
  cases f with
  | cancel c => exact absurd rfl (hf c)
  | _ => exact Discipline.obeys_perform_bind.2 ⟨trivial, fun _ _ => rfl⟩

theorem stopping_cancelOne (reason initiator : String) :
    stopping.Obeys q (cancelOne reason initiator t) fun q' b =>
      (∀ r, q.mine r ∨ b = some r → q'.mine r) ∧ ∀ r, q'.owes r → q.owes r ∨ b = some r := by
  refine Discipline.obeys_perform_bind.2 ⟨trivial, fun out _ => ?_⟩
  cases out with
  | done prev row =>
    refine Discipline.obeys_perform_bind.2 ⟨trivial, fun _ _ => ⟨?_, ?_⟩⟩
    · exact fun r => Or.imp_right fun h => (Option.some.inj h).symm
    · exact fun r => Or.imp_right fun h => congrArg some h.symm
  | _ => exact ⟨fun r => Or.rec id (by simp), fun r => .inl⟩

theorem stopping_fanOutCancelled {row : TaskRow} (hm : q.mine row) (reason : String) :
    stopping.Obeys q (fanOutCancelled reason row) fun q' _ =>
      (∀ r, q.mine r → q'.mine r) ∧ ∀ r, q'.owes r → q.owes r ∧ r ≠ row := by
  refine Discipline.obeys_bind.2 ((stopping_deliverOther (by simp)).mono fun q₁ _ he => ?_)
  subst he
  refine Discipline.obeys_perform_bind.2 ⟨⟨row, hm, rfl, rfl⟩, fun _ _ => ⟨fun r h => h, ?_⟩⟩
  rintro r ⟨ho, hne⟩
  exact ⟨ho, fun he => hne ⟨by rw [he], by rw [he]⟩⟩

/-- Cancelling a list of tasks: what the first loop cancels the second one announces. -/
theorem stopping_cancelAll (reason initiator : String) (ts : List TaskId) :
    stopping.Obeys q (cancelAll reason initiator ts) fun q' _ => ∀ r, q'.owes r → q.owes r := by
  refine Discipline.obeys_bind.2 ((Discipline.obeys_collect (fun _ bs q' =>
    (∀ r ∈ bs, q'.mine r) ∧ ∀ r, q'.owes r → q.owes r ∨ r ∈ bs) ?_ []
    ⟨by simp, fun r => .inl⟩).mono fun q₁ plan h => ?_)
  · rintro x _ bs q₁ ⟨hm, ho⟩
    refine (stopping_cancelOne reason initiator).mono fun q₂ b h => ⟨fun r hr => ?_, fun r hr => ?_⟩
    · rcases List.mem_append.1 hr with hr | hr
      · exact h.1 r (.inl (hm r hr))
      · exact h.1 r (.inr (Option.mem_toList.1 hr))
    · rcases h.2 r hr with hr | hr
      · exact (ho r hr).imp_right (List.mem_append_left _)
      · exact .inr (List.mem_append_right _ (Option.mem_toList.2 hr))
  · rw [List.nil_append] at h
    refine Discipline.obeys_bind.2 ((Discipline.obeys_each (fun rows q' =>
      (∀ r ∈ rows, q'.mine r) ∧ ∀ r, q'.owes r → q.owes r ∨ r ∈ rows) ?_ h).mono
        fun q₂ _ h₂ r hr => (h₂.2 r hr).resolve_right (by simp))
    rintro row rows q₂ ⟨hm, ho⟩
    refine (stopping_fanOutCancelled (hm row List.mem_cons_self) reason).mono
      fun q₃ _ h₃ => ⟨fun r hr => h₃.1 r (hm r (List.mem_cons_of_mem _ hr)), fun r hr => ?_⟩
    obtain ⟨hr, hne⟩ := h₃.2 r hr
    exact (ho r hr).imp_right fun hmem => (List.mem_cons.1 hmem).resolve_left hne

/-- A program that announces what it cancels. -/
abbrev Announces (p : Coroutine α) : Prop := stopping.Keeps Stops.Clear p

theorem Uses.announces {T : List Tag} (h : Uses p T) (hT : ∀ g ∈ T, g ∉ stoppingTagsSpecial) :
    Announces p := fun _ hq => (h.stopping hT).mono fun _ _ he => he ▸ hq

theorem announces_cancelTask (t : TaskId) (u : UserId) (reason initiator : String) :
    Announces (cancelTask t u reason initiator) := fun _ hq =>
  Discipline.obeys_perform_bind.2 ⟨trivial, fun _ _ =>
    (stopping_cancelAll reason initiator _).mono fun _ _ h r hr => hq r (h r hr)⟩

theorem announces_notifyParentOwner (row : TaskRow) (x : Failure) :
    Announces (notifyParentOwner row x) := by
  unfold notifyParentOwner
  cases row.parentTaskId with
  | none => exact Discipline.keeps_pure _
  | some p =>
    refine fun q hq => Discipline.obeys_perform_bind.2 ⟨trivial, fun b _ => ?_⟩
    cases b with
    | none => exact hq
    | some owner => exact (stopping_deliverOther (by simp)).mono fun _ _ he => he ▸ hq

theorem announces_failOwned (t : TaskId) (u : UserId) (x : Failure) :
    Announces (failOwned t u x) := by
  intro q hq
  have hsame : ∀ out, stopping.next q (.transition t x.terminalState.state x.cause) out = q := by
    intro out
    cases x.terminalState <;> cases out <;> rfl
  refine Discipline.obeys_perform_bind.2 ⟨trivial, fun out _ => ?_⟩
  rw [hsame]
  cases out with
  | done prev row =>
    refine Discipline.obeys_perform_bind.2 ⟨trivial, fun _ _ => ?_⟩
    refine Discipline.obeys_bind.2 (Discipline.obeys_perform_bind.2 ⟨trivial, fun _ _ =>
      Discipline.obeys_bind.2 ((stopping_cancelAll _ "router" _).mono fun q₁ _ h => ?_)⟩)
    exact announces_notifyParentOwner row x q₁ fun r hr => hq r (h r hr)
  | _ => exact hq

theorem announces_safeFail (t : TaskId) (u : UserId) (code : ℕ) (reason : String) (error : Json) :
    Announces (safeFail t u code reason error) := by
  intro q hq
  refine Discipline.obeys_bind.2 ((Discipline.Obeys.interruptible (fun _ => ⟨trivial, rfl⟩)
    (announces_failOwned t u _ q hq)).mono fun q₁ out h => ?_)
  cases out with
  | some _ => exact h.1 () rfl
  | none =>
    obtain ⟨q₂, rfl⟩ := h.2 rfl
    refine Discipline.obeys_perform_bind.2 ⟨trivial, fun hit _ => ?_⟩
    cases hit with
    | true => exact fun _ h => h
    | false => exact ⟨trivial, fun b _ => by cases b <;> exact fun _ h => h⟩

theorem announces_completeTask (f : ResultFrame) : Announces (completeTask f a) := by
  refine fun q hq => Discipline.obeys_perform_bind.2 ⟨trivial, fun out _ => ?_⟩
  cases out with
  | done prev row =>
    exact Discipline.obeys_perform_bind.2 ⟨trivial, fun _ _ =>
      (stopping_deliverOther (by simp)).mono fun _ _ he => he ▸ hq⟩
  | _ => exact hq

theorem announces_keeps (cfg : Config) : KeepsTasks cfg stopping Stops.Clear where
  plain _ hx := Uses.announces (T := plainTags) (only_perform.2 hx) (by decide)
  progress _ _ _ hq := ⟨trivial, fun _ _ => hq⟩
  complete f _ := announces_completeTask f
  cancel := announces_cancelTask
  fail := keeps_failTask (fun _ _ hq => ⟨trivial, fun _ _ => hq⟩) announces_failOwned
  admission f _ := keeps_admitTask f
    (fun _ hx => Uses.announces (T := admissionTags) (only_perform.2 hx) (by decide))
    (fun _ _ => (uses_deliverFrame _ _).announces (by decide)) announces_safeFail

/-- **Every call announces what it cancels, and cancels what it announces.** -/
theorem stopping_body (cfg : Config) (c : Call) :
    stopping.Obeys .none (c.body cfg) fun q _ => q.Clear :=
  (announces_keeps cfg).body c _ fun _ h => h

end

/-! ### The run in which executors are told -/

/-- The agent is connected with room in its outbox. -/
def Router.CanReceive (s : Router) (cap : ℕ) (a : AgentId) : Prop :=
  ∃ ch, s.liveChannel a = some ch ∧ (s.channel ch).outbox.length < cap

/-- A coroutine cancelled the task, or found it cancelled. -/
def CancelledIn (log : Log Act) (t : TaskId) : Prop :=
  ∃ i c prev r, (i, ⟨.transition t .cancelled c, .done prev r⟩) ∈ log

/-- The executor ended the task with a Result of its own. -/
def Reported (log : Log Act) (t : TaskId) : Prop :=
  ∃ y ∈ log, y.2.act.tag = .complete ∧ ∃ new, movesTo t y.2 = some new

/-- Coroutine `i` has handed over a Cancel for the task to the agent. -/
def Notified (log : Log Act) (i : ℕ) (t : TaskId) (a : AgentId) : Prop :=
  ∃ f out, (i, ⟨.deliver a (.cancel f), out⟩) ∈ log ∧ f.taskId = some t

/-- The task is running, and its executor can receive. -/
def Router.RunsReachably (s : Router) (cap : ℕ) (t : TaskId) : Prop :=
  ∃ r, s.db.tasks.lookup t = some r ∧ r.state = .running ∧ s.CanReceive cap r.activeAgentId

/-- The action keeps executors informed: a task is failed, timed out or completed by the router only
while it does not run on an executor that can receive; what the executor has reported as cancelled
is not cancelled again; and the database fails only after the announcements. -/
def InformingAct (cap : ℕ) (P : Pool Act Router Call Ret) (i : ℕ) :
    {β : Type} → Act β → Env → Prop
  | _, .transition t .cancelled _, _ =>
    P.shared.db.stateOf t = some .cancelled → ¬ Reported P.log t
  | _, .transition t new _, _ => new.isTerminal = true → ¬ P.shared.RunsReachably cap t
  | _, .forceFailTask _ t _ _, _ => ¬ P.shared.RunsReachably cap t
  | _, .fault, e => e.fault = true → ∀ l t c r l',
      P.log = l ++ (i, ⟨.transition t .cancelled c, .done .running r⟩) :: l' →
      Notified l' i t r.activeAgentId
  | _, _, _ => True

/-- Every action keeps executors informed. -/
def informing (cfg : Config) : Guard Act Env Router Call Ret :=
  ⟨fun _ _ => True, fun P i _ a e => InformingAct cfg.perSocketOutboxMax P i a e⟩

section

variable {cfg : Config} {q : Stops} {s s' : Router} {β : Type} {a : Act β} {e : Env} {b : β}
  {t : TaskId} {r : TaskRow} {d : Deployment} {P Q : Pool Act Router Call Ret} {i j : ℕ}
  {log : Log Act} {x : Event Act} {named : List TaskId} {db db' : Db} {cap : ℕ} {dst : AgentId}

theorem Router.deliver_eq_sent {m : Envelope} :
    (s.deliver cap dst m).2 = .sent ↔ s.CanReceive cap dst := by
  unfold deliver CanReceive
  cases hch : s.liveChannel dst with
  | none => simp
  | some ch =>
    by_cases hroom : (s.channel ch).outbox.length < cap
    · simp [putNowait, hroom]
    · simp [putNowait, hroom]

theorem CancelledIn.mono {l : Log Act} (h : CancelledIn log t) : CancelledIn (log ++ l) t := by
  obtain ⟨i, c, prev, r, hm⟩ := h
  exact ⟨i, c, prev, r, List.mem_append_left _ hm⟩

theorem CancelledIn.snoc (h : CancelledIn (log ++ [(i, x)]) t) :
    CancelledIn log t ∨ ∃ c prev r, x = ⟨.transition t .cancelled c, .done prev r⟩ := by
  obtain ⟨j, c, prev, r, hm⟩ := h
  rcases List.mem_append.1 hm with hm | hm
  · exact .inl ⟨j, c, prev, r, hm⟩
  · exact .inr ⟨c, prev, r, (Prod.mk.inj (List.mem_singleton.1 hm)).2.symm⟩

theorem Reported.snoc (h : Reported (log ++ [(i, x)]) t) :
    Reported log t ∨ (x.act.tag = .complete ∧ ∃ new, movesTo t x = some new) := by
  obtain ⟨y, hm, htag, hmove⟩ := h
  rcases List.mem_append.1 hm with hm | hm
  · exact .inl ⟨y, hm, htag, hmove⟩
  · obtain rfl := List.mem_singleton.1 hm
    exact .inr ⟨htag, hmove⟩

theorem Notified.mono {l : Log Act} (h : Notified log i t dst) : Notified (log ++ l) i t dst := by
  obtain ⟨f, out, hm, hf⟩ := h
  exact ⟨f, out, List.mem_append_left _ hm, hf⟩

/-- Nothing moves a task that has ended. -/
theorem Effect.not_ended_of_moves {new : TaskState} (h : Effect named db x db')
    (hm : movesTo t x = some new) : ¬ db.Ended t := by
  rintro ⟨r, hr, hend⟩
  have ha : allowed r.state new = true :=
    ((h.moves t).2 new hm).2.2 r.state (by simp [Db.stateOf, hr])
  rw [not_allowed_of_isTerminal hend] at ha
  exact absurd ha (by simp)

/-- A transition does not change the executor. -/
theorem Effect.transition_row {new prev : TaskState} {c : Cause}
    (h : Effect named db x db') (hx : x = ⟨.transition t new c, .done prev r⟩) :
    ∃ r₀, db.tasks.lookup t = some r₀ ∧ r₀.state = prev ∧ r.activeAgentId = r₀.activeAgentId := by
  cases h with
  | silent hs => exact (hx ▸ hs : Silent ⟨.transition t new c, .done prev r⟩).elim
  | noop hr => cases hx; exact ⟨_, hr, rfl, rfl⟩
  | move hr _ => cases hx; exact ⟨_, hr, rfl, rfl⟩
  | _ => exact absurd hx (ne_of_tag Tag.noConfusion)

/-! ### What a run says about Cancels and Results -/

/-- What has been cancelled or reported has ended, and nothing was both; every Cancel that the
router has sent is for a task that it has cancelled. -/
structure CancelsApart (s : Router) (log : Log Act) : Prop where
  /-- What was cancelled has ended. -/
  cancelled : ∀ t, CancelledIn log t → s.db.Ended t
  /-- What was reported has ended. -/
  reported : ∀ t, Reported log t → s.db.Ended t
  /-- Nothing was both. -/
  apart : ∀ t, CancelledIn log t → ¬ Reported log t
  /-- Cancels are for cancelled tasks. -/
  sent : ∀ i dst f out, (i, ⟨.deliver dst (.cancel f), out⟩) ∈ log →
    ∃ t, f.taskId = some t ∧ CancelledIn log t

theorem CancelsApart.step (h : CancelsApart P.shared P.log) (hg : InformingAct cap P i a e)
    (he : Act.exec cfg a e P.shared = some (s', b))
    (hsent : ∀ dst f out, (⟨a, b⟩ : Event Act) = ⟨.deliver dst (.cancel f), out⟩ →
      ∃ t, f.taskId = some t ∧ CancelledIn P.log t) :
    CancelsApart s' (P.log ++ [(i, ⟨a, b⟩)]) := by
  have heff := (Act.exec_effect he).1
  constructor
  · intro t ht
    rcases ht.snoc with ht | ⟨c, prev, r, hx⟩
    · exact heff.ended (h.cancelled t ht)
    · cases hx
      obtain ⟨hr, -, -, -, -, -, hst⟩ := Act.exec_transition_done he
      exact ⟨r, hr, by rw [hst]; rfl⟩
  · intro t ht
    rcases ht.snoc with ht | ⟨htag, new, hmove⟩
    · exact heff.ended (h.reported t ht)
    · obtain ⟨hst, -⟩ := (heff.moves t).2 new hmove
      obtain ⟨r, hr, hs⟩ := Option.map_eq_some_iff.1 hst
      refine ⟨r, hr, ?_⟩
      cases a with
      | complete f reporter =>
        cases b with
        | done prev row =>
          simp only [movesTo, Option.ite_none_right_eq_some, Option.some.injEq] at hmove
          rw [hs, ← hmove.2]
          cases f.status <;> rfl
        | _ => exact absurd hmove (by simp [movesTo])
      | _ => exact absurd htag (by simp [Act.tag])
  · intro t hc hr
    rcases hc.snoc with hc | ⟨c, prev, r, hx⟩
    · rcases hr.snoc with hr | ⟨-, new, hmove⟩
      · exact h.apart t hc hr
      · exact heff.not_ended_of_moves hmove (h.cancelled t hc)
    · cases hx
      have hold : Reported P.log t := hr.snoc.resolve_right fun h => absurd h.1 (by simp [Act.tag])
      obtain ⟨r₀, hr₀, hprev, -⟩ := heff.transition_row rfl
      by_cases hp : prev = .cancelled
      · exact hg (by rw [Db.stateOf, hr₀, Option.map_some, hprev, hp]) hold
      · have hmove : movesTo t ⟨.transition t .cancelled c, .done prev r⟩ = some .cancelled := by
          simp [movesTo, hp]
        exact heff.not_ended_of_moves hmove (h.reported t hold)
  · intro j dst f out hm
    rcases List.mem_append.1 hm with hm | hm
    · obtain ⟨t, hf, ht⟩ := h.sent j dst f out hm
      exact ⟨t, hf, ht.mono⟩
    · obtain ⟨-, hx⟩ := Prod.mk.inj (List.mem_singleton.1 hm)
      obtain ⟨t, hf, ht⟩ := hsent dst f out hx.symm
      exact ⟨t, hf, ht.mono⟩

/-! ### What a coroutine knows of what it has cancelled -/

/-- What coroutine `i` has cancelled it owes an announcement, or has announced. -/
structure Stops.Holds (q : Stops) (i : ℕ) (log : Log Act) : Prop where
  /-- What it knows to be cancelled. -/
  mine : ∀ r, q.mine r → CancelledIn log r.taskId
  /-- What it has cancelled while it ran. -/
  due : ∀ l t c r l', log = l ++ (i, ⟨.transition t .cancelled c, .done .running r⟩) :: l' →
    r.taskId = t ∧ (q.owes r ∨ Notified l' i t r.activeAgentId)

theorem Stops.mine_next (h : (q.next a b).mine r) : q.mine r ∨
    ∃ t c prev, (⟨a, b⟩ : Event Act) = ⟨.transition t .cancelled c, .done prev r⟩ := by
  cases a with
  | transition t new c =>
    cases new with
    | cancelled =>
      cases b with
      | done prev row =>
        rcases h with h | rfl
        · exact .inl h
        · exact .inr ⟨t, c, prev, rfl⟩
      | _ => exact .inl h
    | _ => exact .inl (by cases b <;> exact h)
  | deliver dst f => exact .inl (by cases f <;> exact h)
  | fault => exact .inl (by cases b <;> exact h)
  | _ => exact .inl h

theorem Stops.owes_next (h : q.owes r) : (q.next a b).owes r ∨
    (⟨a, b⟩ : Event Act) = ⟨.fault, true⟩ ∨ ∃ f out, some r.taskId = f.taskId ∧
      (⟨a, b⟩ : Event Act) = ⟨.deliver r.activeAgentId (.cancel f), out⟩ := by
  cases a with
  | transition t new c =>
    refine .inl ?_
    cases new <;> cases b <;> first | exact h | exact Or.inl h
  | fault => cases b with
    | true => exact .inr (.inl rfl)
    | false => exact .inl h
  | deliver dst f =>
    cases f with
    | cancel f =>
      by_cases hf : some r.taskId = f.taskId ∧ r.activeAgentId = dst
      · exact .inr (.inr ⟨f, b, hf.1, by rw [hf.2]⟩)
      · exact .inl ⟨h, hf⟩
    | _ => exact .inl h
  | _ => exact .inl h

theorem Stops.Holds.step (h : q.Holds i P.log) (hg : InformingAct cap P i a e)
    (he : Act.exec cfg a e P.shared = some (s', b)) (hans : Stops.ans a b) :
    (q.next a b).Holds i (P.log ++ [(i, ⟨a, b⟩)]) := by
  constructor
  · intro r hr
    rcases Stops.mine_next hr with hr | ⟨t, c, prev, hx⟩
    · exact (h.mine r hr).mono
    · cases hx
      have ht : r.taskId = t := hans
      exact ⟨i, c, prev, r, by rw [ht]; simp⟩
  · intro l t c r l' hlog
    rcases List.eq_nil_or_concat' l' with rfl | ⟨l', z, rfl⟩
    · -- it cancels the task now
      obtain ⟨-, hx⟩ := List.append_inj' hlog rfl
      cases (Prod.mk.inj (List.singleton_inj.1 hx)).2
      exact ⟨hans, .inl (.inr rfl)⟩
    · rw [← List.cons_append, ← List.append_assoc] at hlog
      obtain ⟨hold, hz⟩ := List.append_inj' hlog rfl
      obtain ⟨htask, hor⟩ := h.due l t c r l' hold
      refine ⟨htask, ?_⟩
      rcases hor with ho | hn
      · rcases Stops.owes_next ho with ho | hx | ⟨f, out, hf, hx⟩
        · exact .inl ho
        · cases hx
          obtain ⟨-, hfault⟩ := Prod.mk.inj (Option.some.inj he)
          exact .inr (hg hfault l t c r l' hold).mono
        · refine .inr ⟨f, out, ?_, by rw [← hf, htask]⟩
          rw [← List.singleton_inj.1 hz, hx]
          simp
      · exact .inr hn.mono

theorem Stops.Holds.frame (h : q.Holds i log) (hj : i ≠ j) :
    q.Holds i (log ++ [(j, x)]) where
  mine r hr := (h.mine r hr).mono
  due l t c r l' hlog := by
    rcases List.eq_nil_or_concat' l' with rfl | ⟨l', z, rfl⟩
    · obtain ⟨-, hx⟩ := List.append_inj' hlog rfl
      exact absurd (Prod.mk.inj (List.singleton_inj.1 hx)).1.symm hj
    · rw [← List.cons_append, ← List.append_assoc] at hlog
      obtain ⟨htask, hor⟩ := h.due l t c r l' (List.append_inj' hlog rfl).1
      exact ⟨htask, hor.imp_right Notified.mono⟩

theorem sound_stopping (cfg : Config) (d : Deployment) :
    Sound (router cfg) (informing cfg) stopping (fun _ => Stops.none) d.boot CancelsApart
      (fun i _ q _ log => q.Holds i log) where
  init := by
    constructor
    · rintro t ⟨i, c, prev, r, hm⟩
      exact absurd hm (by simp)
    · rintro t ⟨y, hm, -⟩
      exact absurd hm (by simp)
    · rintro t ⟨i, c, prev, r, hm⟩
      exact absurd hm (by simp)
    · exact fun _ _ _ _ hm => absurd hm (by simp)
  start hrun _ _ := by
    refine ⟨fun _ h => h.elim, fun l t c r l' hlog => ?_⟩
    exact absurd (hrun.log_lt _ (by rw [hlog]; exact List.mem_append_right _ List.mem_cons_self))
      (by simp)
  step {P i c β a k e s b q} hrun ht hg he hI hq hok := by
    have hans : Stops.ans a b := by
      cases a with
      | transition t new c =>
        cases b with
        | done prev row =>
          have hexec : Act.exec cfg (.transition t new c) e P.shared = some (s, .done prev row) := he
          have hrow := (Act.exec_transition_done hexec).1
          exact (wf_of_run (hrun.step ht hg he)).key hrow
        | _ => trivial
      | _ => trivial
    refine ⟨hans, hI.step hg he fun dst f out hx => ?_, hq.step hg he hans⟩
    cases hx
    obtain ⟨r, hm, hf, -⟩ := hok
    exact ⟨r.taskId, hf.symm, hq.mine r hm⟩
  frame _ _ _ _ _ _ _ _ _ _ hj hq' := hq'.frame hj

/-- Executors are told: no Cancel is sent for a task that its executor has ended, and a finished
coroutine of the router that ended a running task whose executor could receive has handed over a
Cancel to that executor, which was enqueued if there was still room. -/
structure ExecutorsTold (cfg : Config) (g : Guard Act Env Router Call Ret) (d : Deployment)
    (P : Pool Act Router Call Ret) : Prop where
  /-- No Cancel for what was reported. -/
  unbidden : ∀ i dst f out t, (i, ⟨.deliver dst (.cancel f), out⟩) ∈ P.log → f.taskId = some t →
    ¬ Reported P.log t
  /-- A Cancel for what the router has ended. -/
  told : ∀ Q i x l t new r th, Run (router cfg) g (.init d.boot) Q → Run (router cfg) g Q P →
    P.log = Q.log ++ (i, x) :: l → x.act.tag ≠ .complete → movesTo t x = some new →
    new.isTerminal = true → Q.shared.db.tasks.lookup t = some r → r.state = .running →
    Q.shared.CanReceive cfg.perSocketOutboxMax r.activeAgentId →
    P.threads[i]? = some th → th.prog.Finished →
    ∃ l₁ f out l₂ T, l = l₁ ++ (i, ⟨.deliver r.activeAgentId (.cancel f), out⟩) :: l₂ ∧
      f.taskId = some t ∧ Run (router cfg) g Q T ∧ Run (router cfg) g T P ∧
      T.log = Q.log ++ (i, x) :: l₁ ∧
      (out = .sent ↔ T.shared.CanReceive cfg.perSocketOutboxMax r.activeAgentId)

/-- A running task that the router ends while its executor can receive is cancelled. -/
theorem cancelled_of_moves {c : Call} {new : TaskState}
    (hg : (informing cfg).fire P i c a e) (he : Act.exec cfg a e P.shared = some (s', b))
    (htag : a.tag ≠ .complete) (hm : movesTo t ⟨a, b⟩ = some new) (hend : new.isTerminal = true)
    (hr : P.shared.db.tasks.lookup t = some r) (hrun : r.state = .running)
    (hcan : P.shared.CanReceive cfg.perSocketOutboxMax r.activeAgentId) :
    ∃ c r', (⟨a, b⟩ : Event Act) = ⟨.transition t .cancelled c, .done .running r'⟩ ∧
      r'.activeAgentId = r.activeAgentId := by
  have hreach : P.shared.RunsReachably cfg.perSocketOutboxMax t := ⟨r, hr, hrun, hcan⟩
  have heff := (Act.exec_effect he).1
  cases a with
  | transition t' new' c =>
    cases b with
    | done prev row =>
      simp only [movesTo, Option.ite_none_right_eq_some, Option.some.injEq] at hm
      obtain ⟨⟨rfl, -⟩, rfl⟩ := hm
      obtain ⟨r₀, hr₀, hprev, hact⟩ := heff.transition_row rfl
      obtain rfl := Option.some.inj (hr.symm.trans hr₀)
      cases new' with
      | cancelled => exact ⟨c, row, by rw [← hprev, hrun], hact⟩
      | failed | timedOut | succeeded => exact absurd hreach (hg rfl)
      | _ => exact absurd hend (by simp [TaskState.isTerminal])
    | _ => exact absurd hm (by simp [movesTo])
  | createTask f caller dl =>
    cases b with
    | created row =>
      simp only [movesTo, Option.ite_none_right_eq_some, Option.some.injEq] at hm
      obtain ⟨hnone, -⟩ := Act.exec_created he
      rw [hm.1, hr] at hnone
      exact absurd hnone (by simp)
    | _ => exact absurd hm (by simp [movesTo])
  | complete => exact absurd rfl htag
  | forceFailTask u t' code err =>
    cases b with
    | true =>
      simp only [movesTo, Option.ite_none_right_eq_some, Option.some.injEq] at hm
      obtain ⟨rfl, -⟩ := hm
      exact absurd hreach hg
    | false => exact absurd hm (by simp [movesTo])
  | _ => exact absurd hm (by simp [movesTo])

/-- **The executor of every running task that the router ends is told to stop, and nobody is told to
stop what he has reported himself**, in every run whose actions keep executors informed. -/
theorem executor_notified (h : Run (router cfg) (informing cfg) (.init d.boot) P) :
    ExecutorsTold cfg (informing cfg) d P := by
  obtain ⟨hapart, hknow⟩ := (sound_stopping cfg d).of_run (stopping_body cfg) h
  refine ⟨fun i dst f out t hm hf => ?_, ?_⟩
  · obtain ⟨t', hf', ht'⟩ := hapart.sent i dst f out hm
    obtain rfl := Option.some.inj (hf.symm.trans hf')
    exact hapart.apart t ht'
  intro Q i x l t new r th hQ hQP hlog htag hmove hend hr hrun hcan hth hfin
  -- the event is a step from `Q`, and it cancels the task
  obtain ⟨Q', c, β, a, k, e, s, b, hQQ', hl, -, hg, he, rfl, -⟩ :=
    hQP.exists_step hlog (List.prefix_refl _)
  have hsame : Q'.shared = Q.shared := hQQ'.shared_eq hl
  rw [← hsame] at hr hcan
  obtain ⟨c', r', hx, hact⟩ := cancelled_of_moves hg he htag hmove hend
    hr hrun hcan
  rw [hx] at hlog
  -- so its coroutine has announced it
  have htold : Notified l i t r.activeAgentId := by
    obtain ⟨q, hq, hob⟩ := hknow i th hth
    obtain ⟨c₁, p⟩ := th
    cases p with
    | act a k => exact hfin.elim
    | ret out =>
      have hclear : q.Clear := hob
      rw [← hact]
      exact (hq.due Q.log t c' r' l hlog).2.resolve_left (hclear r')
  obtain ⟨f, out, hm, hf⟩ := htold
  obtain ⟨l₁, l₂, rfl⟩ := List.append_of_mem hm
  rw [← List.cons_append, ← List.append_assoc] at hlog
  obtain ⟨T, c₂, β₂, a₂, k₂, e₂, s₂, b₂, hQT, hlT, hthT, hgT, heT, hxT, hTP⟩ :=
    hQP.exists_step hlog (List.prefix_append _ _)
  cases hxT
  refine ⟨l₁, f, out, l₂, T, rfl, hf, hQT, ((Run.refl T).step hthT hgT heT).trans hTP,
    by rw [hlT, hx], ?_⟩
  have hout := congrArg Prod.snd (Option.some.inj heT)
  rw [← Router.deliver_eq_sent, hout]

end

/-- Decides that an action keeps executors informed: nothing is cancelled twice, nothing fails, and
the database works. -/
def Sample.informs {β : Type} (P : Pool Act Router Call Ret) (_ : ℕ) (_ : Call) (a : Act β)
    (e : Env) : Bool :=
  match a with
  | .transition t .cancelled _ => P.shared.db.stateOf t != some .cancelled
  | .transition _ new _ => !new.isTerminal
  | .forceFailTask _ _ _ _ => false
  | .fault => !e.fault
  | _ => true

theorem Sample.informingAct_of_informs {β : Type} (P : Pool Act Router Call Ret) (i : ℕ) (c : Call)
    (a : Act β) (e : Env) (h : Sample.informs P i c a e = true) : (informing {}).fire P i c a e := by
  cases a with
  | transition t new c =>
    cases new with
    | cancelled =>
      intro hs
      simp [Sample.informs, hs] at h
    | failed | timedOut | succeeded => simp [Sample.informs, TaskState.isTerminal] at h
    | _ => exact fun hend => absurd hend (by simp [TaskState.isTerminal])
  | forceFailTask => exact absurd h (by simp [Sample.informs])
  | fault =>
    intro hf
    simp [Sample.informs, hf] at h
  | _ => trivial

/-- Between `Q` and `P` coroutine `i` has brought `t`, which ran on `b`, to a terminal state. -/
def Sample.ends (i : ℕ) (g : Tag) (new : TaskState) (Q P : Pool Act Router Call Ret) : Bool :=
  ((Q.shared.db.tasks.lookup "t").any fun r => r.state == .running && r.activeAgentId == "b") &&
    ((Q.shared.liveChannel "b").any fun ch => decide ((Q.shared.channel ch).outbox.length < 256)) &&
    ((P.log.drop Q.log.length).head?.any fun y =>
      y.1 == i && y.2.act.tag == g && movesTo "t" y.2 == some new) &&
    P.threads[i]?.any fun th => th.prog.finished

/-- Where executors are told, `b` is. -/
theorem Sample.notified_of_ends {g : Guard Act Env Router Call Ret} {i : ℕ} {tag : Tag}
    {new : TaskState} {Q P : Pool Act Router Call Ret}
    (hQ : Run (router {}) g (.init Sample.deployment.boot) Q) (hQP : Run (router {}) g Q P)
    (htold : ExecutorsTold {} g Sample.deployment P) (h : Sample.ends i tag new Q P = true)
    (htag : tag ≠ .complete) (hend : new.isTerminal = true) : Notified P.log i "t" "b" := by
  simp only [Sample.ends, Bool.and_eq_true] at h
  obtain ⟨⟨⟨hrow, hcan⟩, hhead⟩, hfin⟩ := h
  obtain ⟨r, hr, hrow⟩ := (Option.any_eq_true _ _).1 hrow
  obtain ⟨ch, hch, hroom⟩ := (Option.any_eq_true _ _).1 hcan
  obtain ⟨⟨j, x⟩, hx, hhead⟩ := (Option.any_eq_true _ _).1 hhead
  obtain ⟨th, hth, hdone⟩ := (Option.any_eq_true _ _).1 hfin
  simp only [Bool.and_eq_true, beq_iff_eq] at hrow hhead
  obtain ⟨hrun, hact⟩ := hrow
  obtain ⟨⟨rfl, rfl⟩, hmove⟩ := hhead
  obtain ⟨l, hlog⟩ := hQP.log_append
  rw [hlog, List.drop_left] at hx
  obtain ⟨l', rfl⟩ := List.head?_eq_some_iff.1 hx
  obtain ⟨l₁, f, out, l₂, T, rfl, hf, -⟩ := htold.told Q j x l' "t" new r th hQ hQP hlog htag hmove
    hend hr hrun ⟨ch, by rw [hact, hch], of_decide_eq_true hroom⟩ hth (Prog.finished_iff.1 hdone)
  exact ⟨f, out, by rw [hlog, ← hact]; simp, hf⟩

/-- When the user cancels `t`, its executor `b` is told. -/
theorem executor_notified_cancelled : ∃ Q P : Pool Act Router Call Ret,
    Sample.play Sample.informs
      (Sample.dispatched ++ .start (.cancelTask "u" "t") :: Sample.steps 5 2) = some Q ∧
    (router {}).run Sample.informs Q (Sample.steps 5 4) = some P ∧ Notified P.log 5 "t" "b" := by
  have hplay : ((Sample.play Sample.informs (Sample.dispatched ++
      .start (.cancelTask "u" "t") :: Sample.steps 5 2)).bind fun Q =>
      ((router {}).run Sample.informs Q (Sample.steps 5 4)).map
        (Sample.ends 5 (.transition .cancelled) .cancelled Q)) = some true := by
    decide +kernel
  obtain ⟨Q, hQ, h⟩ := Option.bind_eq_some_iff.1 hplay
  obtain ⟨P, hP, h⟩ := Option.map_eq_some_iff.1 h
  have hinit : Run (router {}) (informing {}) (.init Sample.deployment.boot) Q :=
    Sample.run_of_play (fun _ _ => trivial) Sample.informingAct_of_informs hQ
  have hrest : Run (router {}) (informing {}) Q P :=
    Run.of_run (fun _ _ => trivial) Sample.informingAct_of_informs hP
  exact ⟨Q, P, hQ, hP, Sample.notified_of_ends hinit hrest
    (executor_notified (hinit.trans hrest)) h Tag.noConfusion rfl⟩

/-- When the sweep times out `t`, its executor `b` is not told. -/
theorem expired_executor_not_told : ¬ ∀ (cfg : Config) (d : Deployment)
    (P : Pool Act Router Call Ret), Run (router cfg) .free (.init d.boot) P →
    ExecutorsTold cfg .free d P := by
  intro hall
  have hplay : ((Sample.play Sample.anything (Sample.dispatched ++
      .start .sweep :: List.replicate 2 (.step 5 { now := 10000 }))).bind fun Q =>
      ((router {}).run Sample.anything Q (Sample.steps 5 3)).map fun P =>
        (Sample.ends 5 (.transition .timedOut) .timedOut Q P,
          (P.past 5).all fun x => x.act.tag ≠ .deliver)) = some (true, true) := by
    decide +kernel
  obtain ⟨Q, hQ, h⟩ := Option.bind_eq_some_iff.1 hplay
  obtain ⟨P, hP, h⟩ := Option.map_eq_some_iff.1 h
  obtain ⟨hends, hnone⟩ := Prod.mk.inj h
  have hinit := Sample.free_of_play hQ
  have hrest : Run (router {}) .free Q P :=
    Run.of_run (fun _ _ => trivial) (fun _ _ _ _ _ _ => trivial) hP
  obtain ⟨f, out, hm, -⟩ := Sample.notified_of_ends hinit hrest
    (hall {} Sample.deployment P (hinit.trans hrest)) hends Tag.noConfusion rfl
  exact absurd (List.all_eq_true.1 hnone _ (Log.mem_past.2 hm)) (by simp [Act.tag])

end Backplane
