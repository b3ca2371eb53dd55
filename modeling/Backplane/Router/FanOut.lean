import Backplane.Router.Reachable
import Mathlib.Algebra.Order.Group.Multiset

/-!
# Who is told that a task has ended

Completion, cancellation, failure and the cascade each end tasks and send Results for them.

* `endsTask t`, `resultOf t` : the events that bring `t` to its terminal state, and those that put a
  Result of `t` on its way.
* `Duty`, `fanOut` : what a coroutine that has ended tasks still has to report, and to whom.
* `fanOut_body` : every program reports what it ends; it keeps silent about a failed root, and after
  a database failure.
* `FanOut.counts` : in every run, coroutine by coroutine, Results and endings are in step.
* `result_once` : at most one Result of a task is sent, as long as nothing asks for the terminal
  state a task has already.
* `result_to_caller` : Results go to the caller, as long as a failed task has a parent that was
  admitted for the agent that spawned it.
-/

namespace Backplane

open Concur Prog

/-! ### Endings and Results -/

/-- The event brings the task to the terminal state it asks for, or finds it there. -/
def endsTask (t : TaskId) : Event Act → Bool
  | ⟨.transition t' new _, .done _ _⟩ => decide (t' = t) && new.isTerminal
  | ⟨.complete f _, .done _ _⟩ => decide (f.taskId = t)
  | ⟨.forceFailTask _ t' _ _, true⟩ => decide (t' = t)
  | _ => false

/-- The event sends a Result of the task. -/
def resultOf (t : TaskId) : Event Act → Bool
  | ⟨.deliver _ (.result f), _⟩ => decide (f.taskId = t)
  | _ => false

/-- The two targets of `fail_task`. -/
def TaskState.isFailure : TaskState → Bool
  | failed | timedOut => true
  | _ => false

/-! ### The duty to report -/

/-- What a coroutine has ended and not reported, and what it knows about the addressees. -/
structure Duty where
  /-- Tasks that have ended and were not reported. -/
  owes : Multiset TaskId
  /-- The row was completed or cancelled. -/
  told : TaskRow → Prop
  failed : TaskRow → Prop
  /-- The task was admitted for the agent. -/
  owner : TaskId → AgentId → Prop
  /-- A database failure struck. -/
  struck : Prop

namespace Duty

/-- Nothing ended, nothing known. -/
def none : Duty := ⟨0, fun _ => False, fun _ => False, fun _ _ => False, False⟩

/-- More is known; what is owed may differ. -/
instance : Preorder Duty where
  le q q' := (∀ r, q.told r → q'.told r) ∧ (∀ r, q.failed r → q'.failed r) ∧
    (∀ p a, q.owner p a → q'.owner p a) ∧ (q.struck → q'.struck)
  le_refl _ := ⟨fun _ h => h, fun _ h => h, fun _ _ h => h, id⟩
  le_trans _ _ _ h h' := ⟨fun r hr => h'.1 r (h.1 r hr), fun r hr => h'.2.1 r (h.2.1 r hr),
    fun p a hp => h'.2.2.1 p a (h.2.2.1 p a hp), fun hs => h'.2.2.2 (h.2.2.2 hs)⟩

/-- A Result may go to the caller, and the Result of a failure to the owner of the parent. -/
def Addressee (q : Duty) (t : TaskId) (dst : AgentId) : Prop :=
  (∃ r, q.told r ∧ r.taskId = t ∧ r.callerAgentId = dst) ∨
    ∃ r p, q.failed r ∧ r.taskId = t ∧ r.parentTaskId = some p ∧ q.owner p dst

/-- A Result is sent once for each ending; the owner is asked for of the parent of a failed task;
the forced failure comes after a database failure. -/
def ok : {β : Type} → Duty → Act β → Prop
  | _, q, .deliver dst (.result f) => f.taskId ∈ q.owes ∧ q.Addressee f.taskId dst
  | _, q, .agentOf p => ∃ r, q.failed r ∧ r.parentTaskId = some p
  | _, q, .forceFailTask _ _ _ _ => q.struck
  | _, _, _ => True

/-- Transactions answer the row they were asked about, and a parent exists. -/
def ans : {β : Type} → Act β → β → Prop
  | _, .transition t _ _, .done _ r => r.taskId = t
  | _, .complete f _, .done _ r => r.taskId = f.taskId
  | _, .agentOf _, b => b.isSome
  | _, _, _ => True

/-- Note an ending: a failure is kept apart, and a transition to an open state is none. -/
def ended (q : Duty) (new : TaskState) (r : TaskRow) : Duty :=
  if new.isFailure then
    { q with owes := r.taskId ::ₘ q.owes, failed := fun r' => q.failed r' ∨ r' = r }
  else if new.isTerminal then
    { q with owes := r.taskId ::ₘ q.owes, told := fun r' => q.told r' ∨ r' = r }
  else q

/-- What an answer teaches. -/
def next : {β : Type} → Duty → Act β → β → Duty
  | _, q, .transition _ new _, .done _ r => q.ended new r
  | _, q, .complete _ _, .done _ r =>
    { q with owes := r.taskId ::ₘ q.owes, told := fun r' => q.told r' ∨ r' = r }
  | _, q, .forceFailTask _ t _ _, true => { q with owes := t ::ₘ q.owes }
  | _, q, .deliver _ (.result f), _ => { q with owes := q.owes.erase f.taskId }
  | _, q, .agentOf p, some a => { q with owner := fun p' a' => q.owner p' a' ∨ (p' = p ∧ a' = a) }
  | _, q, .fault, true => { q with struck := True }
  | _, q, _, _ => q

/-- Nothing is owed but Results of failed roots, unless a database failure struck. -/
def Clear (q : Duty) : Prop :=
  q.struck ∨ ∀ t ∈ q.owes, ∃ r, q.failed r ∧ r.taskId = t ∧ r.parentTaskId = Option.none

end Duty

/-- The discipline of reporting. -/
def fanOut : Discipline Act Duty := ⟨Duty.ok, Duty.ans, Duty.next⟩

section

variable {q q' : Duty} {α : Type} {p : Coroutine α}

theorem Duty.le_ended (q : Duty) (new : TaskState) (r : TaskRow) : q ≤ q.ended new r := by
  unfold ended
  split_ifs
  · exact ⟨fun _ h => h, fun _ => .inl, fun _ _ h => h, id⟩
  · exact ⟨fun _ => .inl, fun _ h => h, fun _ _ h => h, id⟩
  · exact le_rfl

theorem fanOut_accumulates : fanOut.Accumulates := by
  intro β q a b
  change q ≤ q.next a b
  cases a with
  | transition t new c => cases b with
    | done prev r => exact q.le_ended new r
    | _ => exact le_rfl
  | complete f a => cases b with
    | done prev r => exact ⟨fun _ => .inl, fun _ h => h, fun _ _ h => h, id⟩
    | _ => exact le_rfl
  | forceFailTask u t code err => cases b with
    | true => exact ⟨fun _ h => h, fun _ h => h, fun _ _ h => h, id⟩
    | false => exact le_rfl
  | deliver dst f => cases f with
    | result f => exact ⟨fun _ h => h, fun _ h => h, fun _ _ h => h, id⟩
    | _ => exact le_rfl
  | agentOf p => cases b with
    | some a => exact ⟨fun _ h => h, fun _ h => h, fun _ _ => .inl, id⟩
    | none => exact le_rfl
  | fault => cases b with
    | true => exact ⟨fun _ h => h, fun _ h => h, fun _ _ h => h, fun _ => trivial⟩
    | false => exact le_rfl
  | _ => exact le_rfl

theorem Duty.Clear.mono (hq : q.Clear) (hle : q ≤ q') (ho : q'.owes = q.owes) : q'.Clear := by
  refine hq.imp hle.2.2.2 fun h t ht => ?_
  obtain ⟨r, hr, hrt, hp⟩ := h t (ho ▸ ht)
  exact ⟨r, hle.2.1 r hr, hrt, hp⟩

/-- The tags of the actions that have to do with reporting. -/
def fanOutTagsSpecial : List Tag :=
  [.transition .succeeded, .transition .failed, .transition .cancelled, .transition .timedOut,
    .complete, .forceFailTask, .deliver, .agentOf, .fault]

/-- A program that ends nothing and tells nobody. -/
theorem Uses.fanOut {T : List Tag} (h : Uses p T) (hT : ∀ g ∈ T, g ∉ fanOutTagsSpecial) :
    fanOut.Obeys q p fun q' _ => q' = q := by
  refine .of_only (Only.mono h fun a ha q => ?_) fun _ => rfl
  have hg := hT _ ha
  cases a with
  | complete | forceFailTask | deliver | agentOf | fault =>
    exact absurd (by simp [Act.tag, fanOutTagsSpecial]) hg
  | transition t new c =>
    refine ⟨trivial, fun b _ => ?_⟩
    cases b with
    | done prev r =>
      change q.ended new r = q
      cases new <;> first | rfl | exact absurd (by simp [Act.tag, fanOutTagsSpecial]) hg
    | _ => rfl
  | _ => exact ⟨trivial, fun _ _ => rfl⟩

/-! ### What the programs report -/

variable {t : TaskId} {u : UserId} {a : AgentId}

theorem fanOut_deliverResult {dst : AgentId} {f : ResultFrame} {o : Multiset TaskId}
    (ho : q.owes = f.taskId ::ₘ o) (hd : q.Addressee f.taskId dst) :
    fanOut.Obeys q (deliverQuietly dst (.result f)) fun q' _ => q'.owes = o := by
  refine Discipline.obeys_perform_bind.2 ⟨⟨ho ▸ Multiset.mem_cons_self _ _, hd⟩, fun _ _ => ?_⟩
  change q.owes.erase f.taskId = o
  rw [ho, Multiset.erase_cons_head]

theorem fanOut_deliverOther {dst : AgentId} {f : Frame} (hf : ∀ r, f ≠ .result r) :
    fanOut.Obeys q (deliverQuietly dst f) fun q' _ => q' = q := by
  cases f with
  | result r => exact absurd rfl (hf r)
  | _ => exact Discipline.obeys_perform_bind.2 ⟨trivial, fun _ _ => rfl⟩

theorem fanOut_completeTask (f : ResultFrame) :
    fanOut.Obeys q (completeTask f a) fun q' _ => q'.owes = q.owes := by
  refine Discipline.obeys_perform_bind.2 ⟨trivial, fun out hout => ?_⟩
  cases out with
  | done prev row =>
    refine Discipline.obeys_perform_bind.2 ⟨trivial, fun _ _ => ?_⟩
    have hrow : row.taskId = f.taskId := hout
    exact fanOut_deliverResult (congrArg (· ::ₘ q.owes) hrow) (.inl ⟨row, .inr rfl, hrow, rfl⟩)
  | _ => rfl

theorem fanOut_cancelOne (reason initiator : String) :
    fanOut.Obeys q (cancelOne reason initiator t) fun q' b =>
      q'.owes = (b.toList.map TaskRow.taskId : List TaskId) + q.owes ∧ ∀ r ∈ b, q'.told r := by
  refine Discipline.obeys_perform_bind.2 ⟨trivial, fun out _ => ?_⟩
  cases out with
  | done prev row =>
    refine Discipline.obeys_perform_bind.2 ⟨trivial, fun _ _ => ⟨rfl, ?_⟩⟩
    rintro r ⟨⟩
    exact .inr rfl
  | _ => exact ⟨(zero_add q.owes).symm, by simp⟩

theorem fanOut_fanOutCancelled {row : TaskRow} {o : Multiset TaskId}
    (ho : q.owes = row.taskId ::ₘ o) (ht : q.told row) (reason : String) :
    fanOut.Obeys q (fanOutCancelled reason row) fun q' _ => q'.owes = o :=
  Discipline.obeys_bind.2 ((fanOut_deliverResult ho (.inl ⟨row, ht, rfl, rfl⟩)).mono
    fun _ _ hq => (fanOut_deliverOther (by simp)).mono fun _ _ hq' => hq' ▸ hq)

/-- Cancelling a list of tasks: what the first loop ends the second one reports. -/
theorem fanOut_cancelAll (reason initiator : String) (ts : List TaskId) :
    fanOut.Obeys q (cancelAll reason initiator ts) fun q' _ => q'.owes = q.owes := by
  refine Discipline.obeys_bind.2 ((Discipline.obeys_collect
    (fun _ bs q' => q'.owes = (bs.map TaskRow.taskId : List TaskId) + q.owes ∧
      ∀ r ∈ bs, q'.told r) ?_ [] ⟨by simp, by simp⟩).mono fun q₁ plan h => ?_)
  · rintro x _ bs q₁ ⟨ho, ht⟩
    refine ((fanOut_cancelOne reason initiator).le fanOut_accumulates).mono ?_
    rintro q₂ b ⟨hle, ho₂, ht₂⟩
    refine ⟨?_, fun r hr => ?_⟩
    · rw [ho₂, ho, ← add_assoc, List.map_append, ← Multiset.coe_add,
        add_comm (Multiset.ofList _) (Multiset.ofList _)]
    · rcases List.mem_append.1 hr with hr | hr
      · exact hle.1 r (ht r hr)
      · exact ht₂ r (by simpa using hr)
  · rw [List.nil_append] at h
    refine Discipline.obeys_bind.2 ((Discipline.obeys_each (fun rows q' =>
      q'.owes = (rows.map TaskRow.taskId : List TaskId) + q.owes ∧ ∀ r ∈ rows, q'.told r)
      ?_ h).mono fun q₂ _ h₂ => by simpa using h₂.1)
    rintro row rows q₂ ⟨ho, ht⟩
    have ho' : q₂.owes = row.taskId ::ₘ ((rows.map TaskRow.taskId : List TaskId) + q.owes) := by
      rw [ho, List.map_cons, ← Multiset.cons_coe, Multiset.cons_add]
    refine ((fanOut_fanOutCancelled ho' (ht row List.mem_cons_self) reason).le
      fanOut_accumulates).mono fun q₃ _ h₃ => ⟨h₃.2, fun r hr => ?_⟩
    exact h₃.1.1 r (ht r (List.mem_cons_of_mem _ hr))

/-- The Result of a failure goes to the owner of the parent; nobody is told of a failed root. -/
theorem fanOut_notifyParentOwner {row : TaskRow} {o : Multiset TaskId}
    (ho : q.owes = row.taskId ::ₘ o) (hf : q.failed row) (x : Failure) :
    fanOut.Obeys q (notifyParentOwner row x) fun q' _ =>
      q'.owes = o ∨ (row.parentTaskId = none ∧ q' = q) := by
  unfold notifyParentOwner
  cases hp : row.parentTaskId with
  | none => exact .inr ⟨rfl, rfl⟩
  | some p =>
    refine Discipline.obeys_perform_bind.2 ⟨⟨row, hf, hp⟩, fun b hb => ?_⟩
    cases b with
    | none => exact absurd hb (by simp [fanOut, Duty.ans])
    | some owner =>
      refine (fanOut_deliverResult ho ?_).mono fun _ _ => .inl
      exact .inr ⟨row, p, hf, rfl, hp, .inr ⟨rfl, rfl⟩⟩

/-- A program that reports what it ends. -/
abbrev Reports (p : Coroutine α) : Prop := fanOut.Keeps Duty.Clear p

theorem reports_of_owes (h : ∀ q, fanOut.Obeys q p fun q' _ => q'.owes = q.owes) : Reports p :=
  fun q hq => ((h q).le fanOut_accumulates).mono fun _ _ hq' => hq.mono hq'.1 hq'.2

theorem Uses.reports {T : List Tag} (h : Uses p T) (hT : ∀ g ∈ T, g ∉ fanOutTagsSpecial) :
    Reports p :=
  reports_of_owes fun _ => (h.fanOut hT).mono fun _ _ hq => hq ▸ rfl

theorem reports_cancelTask (t : TaskId) (u : UserId) (reason initiator : String) :
    Reports (cancelTask t u reason initiator) :=
  reports_of_owes fun _ => Discipline.obeys_perform_bind.2 ⟨trivial, fun _ _ =>
    fanOut_cancelAll reason initiator _⟩

theorem fanOut_cancelSubtree (reason : String) :
    fanOut.Obeys q (cancelSubtree t u reason) fun q' _ => q'.owes = q.owes :=
  Discipline.obeys_perform_bind.2 ⟨trivial, fun _ _ => Discipline.obeys_bind.2
    ((fanOut_cancelAll reason "router" _).mono fun _ _ h => h)⟩

theorem reports_failOwned (t : TaskId) (u : UserId) (x : Failure) : Reports (failOwned t u x) := by
  intro q hq
  refine Discipline.obeys_perform_bind.2 ⟨trivial, fun out _ => ?_⟩
  cases out with
  | done prev row =>
    have hnew : q.ended x.terminalState.state row =
        { q with owes := row.taskId ::ₘ q.owes, failed := fun r' => q.failed r' ∨ r' = row } := by
      cases x.terminalState <;> rfl
    refine Discipline.obeys_perform_bind.2 ⟨trivial, fun _ _ => ?_⟩
    change fanOut.Obeys (q.ended x.terminalState.state row) _ _
    rw [hnew]
    refine (fanOut_cancelSubtree _).bind_le fanOut_accumulates fun q₁ _ hle ho => ?_
    refine ((fanOut_notifyParentOwner ho (hle.2.1 row (.inr rfl)) x).le fanOut_accumulates).mono ?_
    rintro q₂ - ⟨hle', ho' | ⟨hroot, rfl⟩⟩
    · refine hq.mono (le_trans (le_trans ?_ hle) hle') ho'
      exact ⟨fun _ h => h, fun _ => .inl, fun _ _ h => h, id⟩
    · refine hq.imp hle.2.2.2 fun h t ht => ?_
      rcases Multiset.mem_cons.1 (ho ▸ ht) with rfl | ht
      · exact ⟨row, hle.2.1 row (.inr rfl), rfl, hroot⟩
      · obtain ⟨r, hr, hrt, hp⟩ := h t ht
        exact ⟨r, hle.2.1 r (.inl hr), hrt, hp⟩
  | _ => exact hq

/-- A database failure in the compensation leaves endings unreported. -/
theorem reports_safeFail (t : TaskId) (u : UserId) (code : ℕ) (reason : String) (error : Json) :
    Reports (safeFail t u code reason error) := by
  intro q hq
  refine Discipline.obeys_bind.2 ((Discipline.Obeys.interruptible (fun _ => ⟨trivial, rfl⟩)
    (reports_failOwned t u _ q hq)).mono fun q₁ out h => ?_)
  cases out with
  | some _ => exact h.1 () rfl
  | none =>
    obtain ⟨q₂, rfl⟩ := h.2 rfl
    refine Discipline.obeys_perform_bind.2 ⟨trivial, fun hit _ => ?_⟩
    cases hit with
    | true => exact .inl trivial
    | false =>
      refine Discipline.obeys_perform_bind.2 ⟨trivial, fun b _ => ?_⟩
      cases b <;> exact .inl trivial

theorem reports_keeps (cfg : Config) : KeepsTasks cfg fanOut Duty.Clear where
  plain _ hx := Uses.reports (T := plainTags) (only_perform.2 hx) (by decide)
  progress _ _ _ hq := ⟨trivial, fun _ _ => hq⟩
  complete f _ := reports_of_owes fun _ => fanOut_completeTask f
  cancel := reports_cancelTask
  fail := keeps_failTask (fun _ _ hq => ⟨trivial, fun _ _ => hq⟩) reports_failOwned
  admission f _ := keeps_admitTask f
    (fun _ hx => Uses.reports (T := admissionTags) (only_perform.2 hx) (by decide))
    (fun _ _ => (uses_deliverFrame _ _).reports (by decide)) reports_safeFail

/-- **Every call reports what it ends, but for failed roots and database failures.** -/
theorem reports_body (cfg : Config) (c : Call) :
    fanOut.Obeys .none (c.body cfg) fun q _ => q.Clear :=
  (reports_keeps cfg).body c _ (.inr fun t ht => absurd ht (by simp [Duty.none]))

end

/-! ### What a coroutine knows is true -/

/-- One event keeps the balance of what is owed. -/
theorem Duty.count_next {q : Duty} {β : Type} {a : Act β} {b : β} (hok : q.ok a)
    (hans : Duty.ans a b) (t : TaskId) :
    (if resultOf t ⟨a, b⟩ then 1 else 0) + (q.next a b).owes.count t =
      q.owes.count t + if endsTask t ⟨a, b⟩ then 1 else 0 := by
  cases a with
  | transition t' new c =>
    cases b with
    | done prev r =>
      obtain rfl : r.taskId = t' := hans
      cases new <;> by_cases h : t = r.taskId <;>
        simp [resultOf, endsTask, next, ended, TaskState.isFailure, TaskState.isTerminal, h,
          eq_comm]
    | _ => simp [resultOf, endsTask, next]
  | complete f a =>
    cases b with
    | done prev r =>
      have hr : r.taskId = f.taskId := hans
      by_cases h : t = f.taskId <;>
        simp [resultOf, endsTask, next, hr, h, eq_comm]
    | _ => simp [resultOf, endsTask, next]
  | forceFailTask u t' code err =>
    cases b with
    | true =>
      by_cases h : t = t' <;> simp [resultOf, endsTask, next, h, eq_comm]
    | false => simp [resultOf, endsTask, next]
  | deliver dst f =>
    cases f with
    | result f =>
      have hpos := Multiset.count_pos.2 hok.1
      by_cases h : t = f.taskId
      · subst h
        simp [resultOf, endsTask, next, Multiset.count_erase_self]
        omega
      · simp [resultOf, endsTask, next, Multiset.count_erase_of_ne h, Ne.symm h]
    | _ => simp [resultOf, endsTask, next]
  | agentOf p => cases b <;> simp [resultOf, endsTask, next]
  | fault => cases b <;> simp [resultOf, endsTask, next]
  | _ => simp [resultOf, endsTask, next]

/-- Coroutine `i` has failed the task; `r` is the row it was answered. -/
def FailedBy (log : Log Act) (i : ℕ) (r : TaskRow) : Prop :=
  ∃ new c prev, new.isFailure = true ∧ (i, ⟨.transition r.taskId new c, .done prev r⟩) ∈ log

/-- What coroutine `i` knows is true. -/
structure Duty.Facts (q : Duty) (i : ℕ) (s : Router) (log : Log Act) : Prop where
  /-- The rows it was answered are there. -/
  row : ∀ r, q.told r ∨ q.failed r → ∃ r', s.db.tasks.lookup r.taskId = some r' ∧ r.Later r'
  /-- It has failed what it thinks it has. -/
  failed : ∀ r, q.failed r → FailedBy log i r
  owner : ∀ p a, q.owner p a → ∃ r, s.db.tasks.lookup p = some r ∧ r.agentId = a
  /-- A database failure that struck is in the history. -/
  struck : q.struck → (i, ⟨.fault, true⟩) ∈ log

/-- What it knows is true, and Results, debts and endings are in balance. -/
structure Duty.Holds (q : Duty) (i : ℕ) (s : Router) (log : Log Act) : Prop
    extends q.Facts i s log where
  /-- Every ending is reported or owed. -/
  counts : ∀ t, (log.past i).countP (resultOf t) + q.owes.count t =
    (log.past i).countP (endsTask t)

/-- A Result of the task may go to `dst`: the caller, or, after a failure, the owner of the
parent. -/
def Addressed (s : Router) (log : Log Act) (i : ℕ) (t : TaskId) (dst : AgentId) : Prop :=
  ∃ r, s.db.tasks.lookup t = some r ∧ (r.callerAgentId = dst ∨
    ∃ r₀ p r', r₀.Later r ∧ FailedBy log i r₀ ∧ r.parentTaskId = some p ∧
      s.db.tasks.lookup p = some r' ∧ r'.agentId = dst)

section

variable {cfg : Config} {q : Duty} {s s' : Router} {log : Log Act} {i j : ℕ} {β : Type} {a : Act β}
  {e : Env} {b : β} {x : ℕ × Event Act}

theorem FailedBy.append {r : TaskRow} (h : FailedBy log i r) : FailedBy (log ++ [x]) i r := by
  obtain ⟨new, c, prev, hn, hm⟩ := h
  exact ⟨new, c, prev, hn, List.mem_append_left _ hm⟩

theorem Addressed.exec {t : TaskId} {dst : AgentId} (h : Addressed s log i t dst)
    (he : Act.exec cfg a e s = some (s', b)) : Addressed s' (log ++ [x]) i t dst := by
  obtain ⟨r, hr, hd⟩ := h
  obtain ⟨r₁, hr₁, hl⟩ := (Act.exec_effect he).1.later hr
  refine ⟨r₁, hr₁, ?_⟩
  rcases hd with hd | ⟨r₀, p, r', hl₀, hf, hp, hr', ha⟩
  · exact .inl (hl.callerAgentId.trans hd)
  · obtain ⟨r₂, hr₂, hl₂⟩ := (Act.exec_effect he).1.later hr'
    exact .inr ⟨r₀, p, r₂, hl₀.trans hl, hf.append, hl.parentTaskId.trans hp, hr₂,
      hl₂.agentId.trans ha⟩

/-- What is known stays true, whoever moves. -/
theorem Duty.Facts.exec (hq : q.Facts i s log) (he : Act.exec cfg a e s = some (s', b)) :
    q.Facts i s' (log ++ [x]) where
  row r h := by
    obtain ⟨r₁, hr₁, hl⟩ := hq.row r h
    obtain ⟨r₂, hr₂, hl'⟩ := (Act.exec_effect he).1.later hr₁
    exact ⟨r₂, hr₂, hl.trans hl'⟩
  failed r h := (hq.failed r h).append
  owner p o h := by
    obtain ⟨r₁, hr₁, ho⟩ := hq.owner p o h
    obtain ⟨r₂, hr₂, hl⟩ := (Act.exec_effect he).1.later hr₁
    exact ⟨r₂, hr₂, hl.agentId.trans ho⟩
  struck h := List.mem_append_left _ (hq.struck h)

theorem Duty.Facts.tell (hq : q.Facts i s log) {r : TaskRow}
    (hr : s.db.tasks.lookup r.taskId = some r) (o : Multiset TaskId) :
    Duty.Facts { q with owes := o, told := fun r' => q.told r' ∨ r' = r } i s log where
  row r' h := by
    rcases h with (h | rfl) | h
    · exact hq.row r' (.inl h)
    · exact ⟨r', hr, .refl r'⟩
    · exact hq.row r' (.inr h)
  failed := hq.failed
  owner := hq.owner
  struck := hq.struck

theorem Duty.Facts.fail (hq : q.Facts i s log) {r : TaskRow}
    (hr : s.db.tasks.lookup r.taskId = some r) (hf : FailedBy log i r) (o : Multiset TaskId) :
    Duty.Facts { q with owes := o, failed := fun r' => q.failed r' ∨ r' = r } i s log where
  row r' h := by
    rcases h with h | h | rfl
    · exact hq.row r' (.inl h)
    · exact hq.row r' (.inr h)
    · exact ⟨r', hr, .refl r'⟩
  failed r' h := by
    rcases h with h | rfl
    · exact hq.failed r' h
    · exact hf
  owner := hq.owner
  struck := hq.struck

/-- The answers are as the discipline expects them. -/
theorem Duty.ans_exec (hw : Wf cfg s.db) (hq : q.Facts i s log) (hok : q.ok a)
    (he : Act.exec cfg a e s = some (s', b)) : Duty.ans a b := by
  cases a with
  | transition t new c =>
    cases b with
    | done prev r =>
      obtain ⟨-, r₀, hr₀, hl, -⟩ := Act.exec_transition_done he
      exact hl.taskId.trans (hw.key hr₀)
    | _ => trivial
  | complete f reporter =>
    cases b with
    | done prev r =>
      obtain ⟨-, r₀, hr₀, hl, -⟩ := Act.exec_complete_done he
      exact hl.taskId.trans (hw.key hr₀)
    | _ => trivial
  | agentOf p =>
    obtain ⟨r, hf, hp⟩ := hok
    obtain ⟨r', hr', hl⟩ := hq.row r (.inr hf)
    obtain ⟨rp, hrp, -⟩ := hw.parent hr' (hl.parentTaskId.trans hp)
    obtain ⟨-, rfl⟩ := Prod.mk.inj (Option.some.inj he)
    simp [ans, hrp]
  | _ => trivial

/-- What is learned is true. -/
theorem Duty.Facts.next (hw : Wf cfg s.db) (hq : q.Facts i s log) (hok : q.ok a)
    (he : Act.exec cfg a e s = some (s', b)) : (q.next a b).Facts i s' (log ++ [(i, ⟨a, b⟩)]) := by
  have hans := Duty.ans_exec hw hq hok he
  have hq' : q.Facts i s' (log ++ [(i, ⟨a, b⟩)]) := hq.exec he
  cases a with
  | transition t new c =>
    cases b with
    | done prev r =>
      obtain ⟨hr, -⟩ := Act.exec_transition_done he
      obtain rfl : r.taskId = t := hans
      change (q.ended new r).Facts _ _ _
      unfold Duty.ended
      split_ifs with hn
      · exact hq'.fail hr ⟨new, c, prev, hn, by simp⟩ _
      · exact hq'.tell hr _
      · exact hq'
    | _ => exact hq'
  | complete f reporter =>
    cases b with
    | done prev r =>
      obtain ⟨hr, -⟩ := Act.exec_complete_done he
      have hid : r.taskId = f.taskId := hans
      exact hq'.tell (hid ▸ hr) _
    | _ => exact hq'
  | forceFailTask u t code err =>
    cases b with
    | true => exact ⟨hq'.row, hq'.failed, hq'.owner, hq'.struck⟩
    | false => exact hq'
  | deliver dst f =>
    cases f with
    | result f => exact ⟨hq'.row, hq'.failed, hq'.owner, hq'.struck⟩
    | _ => exact hq'
  | agentOf p =>
    cases b with
    | none => exact hq'
    | some o =>
      refine ⟨hq'.row, hq'.failed, ?_, hq'.struck⟩
      rintro p' o' (h | ⟨rfl, rfl⟩)
      · exact hq'.owner p' o' h
      · obtain ⟨rfl, hb⟩ := Prod.mk.inj (Option.some.inj he)
        exact Option.map_eq_some_iff.1 hb
  | fault =>
    cases b with
    | true => exact ⟨hq'.row, hq'.failed, hq'.owner, fun _ => by simp⟩
    | false => exact hq'
  | _ => exact hq'

theorem Duty.Holds.next (hw : Wf cfg s.db) (hq : q.Holds i s log) (hok : q.ok a)
    (he : Act.exec cfg a e s = some (s', b)) :
    (q.next a b).Holds i s' (log ++ [(i, ⟨a, b⟩)]) where
  toFacts := hq.toFacts.next hw hok he
  counts t := by
    have h₁ := hq.counts t
    have h₂ := Duty.count_next hok (Duty.ans_exec hw hq.toFacts hok he) t
    simp only [Log.past_append_self, List.countP_append, List.countP_singleton]
    omega

theorem Duty.Holds.frame (hq : q.Holds j s log) (hj : j ≠ i)
    (he : Act.exec cfg a e s = some (s', b)) : q.Holds j s' (log ++ [(i, ⟨a, b⟩)]) where
  toFacts := hq.toFacts.exec he
  counts t := by rw [Log.past_append_ne hj]; exact hq.counts t

/-- Every Result sent so far was addressed as it should be. -/
def AllAddressed (s : Router) (log : Log Act) : Prop :=
  ∀ i dst f b, (i, ⟨.deliver dst (.result f), b⟩) ∈ log → Addressed s log i f.taskId dst

theorem AllAddressed.exec (h : AllAddressed s log) (hq : q.Facts i s log) (hok : q.ok a)
    (he : Act.exec cfg a e s = some (s', b)) : AllAddressed s' (log ++ [(i, ⟨a, b⟩)]) := by
  intro j dst f out hm
  rcases List.mem_append.1 hm with hm | hm
  · exact (h j dst f out hm).exec he
  · cases List.mem_singleton.1 hm
    obtain ⟨-, hd⟩ := hok
    refine Addressed.exec ?_ he
    rcases hd with ⟨r, ht, hrt, hc⟩ | ⟨r, p, hf, hrt, hp, ho⟩
    · obtain ⟨r', hr', hl⟩ := hq.row r (.inl ht)
      exact ⟨r', hrt ▸ hr', .inl (hl.callerAgentId.trans hc)⟩
    · obtain ⟨r', hr', hl⟩ := hq.row r (.inr hf)
      obtain ⟨rp, hrp, ha⟩ := hq.owner p dst ho
      exact ⟨r', hrt ▸ hr', .inr ⟨r, p, rp, hl, hq.failed r hf, hl.parentTaskId.trans hp, hrp, ha⟩⟩

/-! ### Every run -/

variable {g : Guard Act Env Router Call Ret} {d : Deployment} {P : Pool Act Router Call Ret}

theorem sound_fanOut (cfg : Config) (g : Guard Act Env Router Call Ret) (d : Deployment) :
    Sound (router cfg) g fanOut (fun _ => Duty.none) d.boot AllAddressed
      fun i _ q => q.Holds i where
  init _ _ _ _ hm := absurd hm (by simp)
  start hrun _ _ := ⟨⟨fun _ h => h.elim False.elim False.elim, fun _ => False.elim,
    fun _ _ => False.elim, False.elim⟩, fun t => by
      rw [show Log.past _ _ = [] from hrun.past_eq_nil le_rfl]
      simp [Duty.none]⟩
  step hrun _ _ he hinv hq hok :=
    ⟨Duty.ans_exec (wf_of_run hrun) hq.toFacts hok he, hinv.exec hq.toFacts hok he,
      hq.next (wf_of_run hrun) hok he⟩
  frame _ _ _ he _ _ _ _ _ _ hj hq' := hq'.frame hj he

/-- Results go to the caller, and to the owner of the parent after a failure. -/
theorem addressed_of_run (h : Run (router cfg) g (.init d.boot) P) :
    AllAddressed P.shared P.log :=
  ((sound_fanOut cfg g d).of_run (reports_body cfg) h).1

/-- In every run each coroutine sends at most as many Results of a task as it has ended it, and
when it has returned just as many, unless a database failure struck it or it has failed a root. -/
theorem results_of_run (h : Run (router cfg) g (.init d.boot) P) {i : ℕ} {th : Thread Act Call Ret}
    (hth : P.threads[i]? = some th) (t : TaskId) :
    (P.past i).countP (resultOf t) ≤ (P.past i).countP (endsTask t) ∧
    (th.prog.Finished → (i, ⟨.fault, true⟩) ∉ P.log →
      (∀ r, FailedBy P.log i r → r.taskId = t → r.parentTaskId ≠ none) →
      (P.past i).countP (resultOf t) = (P.past i).countP (endsTask t)) := by
  obtain ⟨q, hq, hob⟩ := ((sound_fanOut cfg g d).of_run (reports_body cfg) h).2 i th hth
  have hc : (P.past i).countP (resultOf t) + q.owes.count t = (P.past i).countP (endsTask t) :=
    hq.counts t
  refine ⟨by omega, fun hfin hfault hroot => ?_⟩
  obtain ⟨c, p⟩ := th
  cases p with
  | act a k => exact hfin.elim
  | ret out =>
    have hzero : q.owes.count t = 0 := by
      rw [Multiset.count_eq_zero]
      intro ht
      rcases hob with hs | hs
      · exact hfault (hq.struck hs)
      · obtain ⟨r, hf, hrt, hp⟩ := hs t ht
        exact hroot r (hq.failed r hf) hrt hp
    omega

end

/-! ### At most one Result -/

/-- The action asks for the terminal state the task has already.  `task_transition` then reports
success without having moved anything, and its callers send the Result again. -/
def asksAgain (s : Router) : {β : Type} → Act β → Bool
  | _, .transition t new _ =>
    new.isTerminal && (s.db.tasks.lookup t).any fun r => r.state = new
  | _, .complete f a => (s.db.tasks.lookup f.taskId).any fun r =>
    r.activeAgentId = a && r.state = stateFromStatus f.status
  | _, _ => false

/-- Nothing asks for the terminal state a task has already. -/
def noRepeat : Guard Act Env Router Call Ret :=
  ⟨fun _ _ => True, fun P _ _ a _ => asksAgain P.shared a = false⟩

section

variable {cfg : Config} {s s' : Router} {β : Type} {a : Act β} {e : Env} {b : β} {t : TaskId}
  {d : Deployment} {P : Pool Act Router Call Ret}

theorem Db.not_ended {db : Db} {r : TaskRow} (hr : db.tasks.lookup t = some r)
    (ho : r.state.isTerminal = false) : ¬ db.Ended t := by
  rintro ⟨r', hr', he⟩
  rw [hr, Option.some.injEq] at hr'
  rw [← hr', ho] at he
  exact absurd he (by simp)

/-- An ending that does not ask again ends a task that was open. -/
theorem ended_by_event (he : Act.exec cfg a e s = some (s', b)) (hg : asksAgain s a = false)
    (hx : endsTask t ⟨a, b⟩ = true) : ¬ s.db.Ended t ∧ s'.db.Ended t := by
  cases a with
  | transition t' new c =>
    cases b with
    | done prev r =>
      obtain ⟨hr, r₀, hr₀, -, rfl, hmove, rfl⟩ := Act.exec_transition_done he
      simp only [endsTask, Bool.and_eq_true, decide_eq_true_eq] at hx
      obtain ⟨rfl, hterm⟩ := hx
      refine ⟨?_, r, hr, hterm⟩
      rcases hmove with hsame | hal
      · simp [asksAgain, hterm, hr₀, hsame] at hg
      · exact Db.not_ended hr₀ (allowed_not_isTerminal hal)
    | _ => exact absurd hx (by simp [endsTask])
  | complete f reporter =>
    cases b with
    | done prev r =>
      obtain ⟨hr, r₀, hr₀, -, rfl, rfl, hmove, hst⟩ := Act.exec_complete_done he
      obtain rfl : f.taskId = t := by simpa [endsTask] using hx
      refine ⟨?_, r, hr, hst ▸ isTerminal_stateFromStatus f.status⟩
      rcases hmove with hsame | hal
      · simp [asksAgain, hr₀, hsame] at hg
      · exact Db.not_ended hr₀ (allowed_not_isTerminal hal)
    | _ => exact absurd hx (by simp [endsTask])
  | forceFailTask u t' code err =>
    cases b with
    | true =>
      obtain rfl : t' = t := by simpa [endsTask] using hx
      simp only [Act.exec] at he
      rcases s.db.forceFail_cases u t' code err with htx | ⟨r, hr, -, ho, htx⟩ <;> rw [htx] at he <;>
        obtain ⟨rfl, hb⟩ := Prod.mk.inj (Option.some.inj he)
      · exact absurd hb (by simp)
      · have hnew := Table.lookup_update s.db.tasks t' t' fun r =>
          { r with state := .failed, statusCode := some code, error := err }
        rw [if_pos rfl, hr] at hnew
        exact ⟨Db.not_ended hr ho, _, hnew, rfl⟩
    | false => exact absurd hx (by simp [endsTask])
  | _ => exact absurd hx (by simp [endsTask])

/-- Without repetition a task is ended at most once. -/
theorem ends_le_one (h : Run (router cfg) noRepeat (.init d.boot) P) (t : TaskId) :
    P.log.countP (fun x => endsTask t x.2) ≤ 1 ∧
      (0 < P.log.countP (fun x => endsTask t x.2) → P.shared.db.Ended t) := by
  induction h with
  | refl => simp [Pool.init]
  | start _ _ _ ih => exact ih
  | @step Q i c β a k e s b _ _ hg he ih =>
    simp only [Pool.fired, List.countP_append, List.countP_singleton]
    cases hx : endsTask t ⟨a, b⟩ with
    | false =>
      simp only [Bool.false_eq_true, if_false, Nat.add_zero]
      exact ⟨ih.1, fun hpos => (Act.exec_effect he).1.ended (ih.2 hpos)⟩
    | true =>
      obtain ⟨hopen, hend⟩ := ended_by_event he hg hx
      have hzero : Q.log.countP (fun x => endsTask t x.2) = 0 := by
        by_contra hne
        exact hopen (ih.2 (Nat.pos_of_ne_zero hne))
      simp only [if_true, hzero]
      exact ⟨le_rfl, fun _ => hend⟩

/-- **At most one Result of a task is sent, by the coroutine that ended it.**  It is sent as long as
nothing asks for the terminal state the task has already, and once the coroutine has returned it has
been sent, unless a database failure struck or the task is a root that was failed. -/
theorem result_once (h : Run (router cfg) noRepeat (.init d.boot) P) (t : TaskId) :
    P.log.countP (fun x => resultOf t x.2) ≤ 1 ∧
    ∀ i th, P.threads[i]? = some th →
      (P.past i).countP (resultOf t) ≤ (P.past i).countP (endsTask t) ∧
      (th.prog.Finished → (i, ⟨.fault, true⟩) ∉ P.log →
        (∀ r, FailedBy P.log i r → r.taskId = t → r.parentTaskId ≠ none) →
        (P.past i).countP (resultOf t) = (P.past i).countP (endsTask t)) := by
  refine ⟨le_trans (Log.countP_le fun i => ?_) (ends_le_one h t).1,
    fun i th hth => results_of_run h hth t⟩
  rcases Nat.lt_or_ge i P.threads.length with hi | hi
  · exact (results_of_run h (List.getElem?_eq_getElem hi) t).1
  · rw [show Log.past _ _ = [] from h.past_eq_nil hi]
    simp

/-- A task that `b` completes once. -/
theorem result_once_completed : ∃ P, Sample.play (fun P _ _ a _ => !asksAgain P.shared a)
      (Sample.dispatched ++ [Sample.receive 1 "b" (.result (Sample.result "b" "t" .succeeded))] ++
        Sample.steps 5 4) = some P ∧
    P.shared.db.Ended "t" ∧ P.log.countP (fun x => resultOf "t" x.2) ≤ 1 := by
  have hplay : ((Sample.play (fun P _ _ a _ => !asksAgain P.shared a)
      (Sample.dispatched ++ [Sample.receive 1 "b" (.result (Sample.result "b" "t" .succeeded))] ++
        Sample.steps 5 4)).map fun P =>
          (P.shared.db.tasks.lookup "t").any fun r => r.state.isTerminal) = some true := by
    decide +kernel
  obtain ⟨P, hP, hend⟩ := Option.map_eq_some_iff.1 hplay
  obtain ⟨r, hr, ht⟩ := (Option.any_eq_true _ _).1 hend
  exact ⟨P, hP, ⟨r, hr, ht⟩, (result_once (Sample.run_of_play (fun _ _ => trivial)
    (fun _ _ _ _ _ hc => by simpa [noRepeat] using hc) hP) "t").1⟩

/-- When `b` sends its Result twice, its caller is told twice. -/
theorem result_twice : ¬ ∀ (cfg : Config) (d : Deployment) (P : Pool Act Router Call Ret),
    Run (router cfg) .free (.init d.boot) P →
    ∀ t, P.log.countP (fun x => resultOf t x.2) ≤ 1 := by
  intro hall
  have hplay : ((Sample.play Sample.anything (Sample.dispatched ++
      [Sample.receive 1 "b" (.result (Sample.result "b" "t" .succeeded))] ++ Sample.steps 5 4 ++
      [Sample.receive 1 "b" (.result (Sample.result "b" "t" .succeeded))] ++
      Sample.steps 6 4)).map fun P => P.log.countP fun x => resultOf "t" x.2) = some 2 := by
    decide +kernel
  obtain ⟨P, hP, hcount⟩ := Option.map_eq_some_iff.1 hplay
  have := hall {} Sample.deployment P (Sample.free_of_play hP) "t"
  omega

/-! ### The Result reaches the caller -/

/-- The failure of a task, unless it is refused, finds a parent that was admitted for the agent that
spawned the task; and the database does not fail. -/
def reachesCaller (s : Router) : {β : Type} → Act β → Env → Bool
  | _, .transition t new _, _ => !new.isFailure || (s.db.tasks.lookup t).all fun r =>
    (r.state ≠ new && !allowed r.state new) ||
      (r.parentTaskId.bind fun p => s.db.tasks.lookup p).any fun r' =>
        r'.agentId = r.callerAgentId
  | _, .fault, e => !e.fault
  | _, _, _ => true

/-- Every failure reaches the caller. -/
def parentIsCaller : Guard Act Env Router Call Ret :=
  ⟨fun _ _ => True, fun P _ _ a e => reachesCaller P.shared a e = true⟩

/-- The failed row has a parent that was admitted for its caller. -/
def ParentIsCaller (s : Router) (r : TaskRow) : Prop :=
  ∃ p r', r.parentTaskId = some p ∧ s.db.tasks.lookup p = some r' ∧ r'.agentId = r.callerAgentId

theorem ParentIsCaller.exec {r : TaskRow} (h : ParentIsCaller s r)
    (he : Act.exec cfg a e s = some (s', b)) : ParentIsCaller s' r := by
  obtain ⟨p, r', hp, hr', ha⟩ := h
  obtain ⟨r'', hr'', hl⟩ := (Act.exec_effect he).1.later hr'
  exact ⟨p, r'', hp, hr'', hl.agentId.trans ha⟩

/-- In the runs that keep to the guard every failed row has such a parent. -/
theorem parentIsCaller_of_run (h : Run (router cfg) parentIsCaller (.init d.boot) P) :
    (∀ i r, FailedBy P.log i r → ParentIsCaller P.shared r) ∧
      ∀ i, (i, ⟨.fault, true⟩) ∉ P.log := by
  induction h with
  | refl => exact ⟨fun i r ⟨_, _, _, _, hm⟩ => absurd hm (by simp [Pool.init]), by simp [Pool.init]⟩
  | start _ _ _ ih => exact ih
  | @step Q i c β a k e s b _ _ hg he ih =>
    constructor
    · rintro j r ⟨new, c, prev, hnew, hm⟩
      rcases List.mem_append.1 hm with hm | hm
      · exact (ih.1 j r ⟨new, c, prev, hnew, hm⟩).exec he
      · cases List.mem_singleton.1 hm
        have hexec : Act.exec cfg (.transition r.taskId new c) e Q.shared =
          some (s, .done prev r) := he
        obtain ⟨-, r₀, hr₀, hl, rfl, hmove, -⟩ := Act.exec_transition_done hexec
        refine ParentIsCaller.exec ?_ hexec
        have hr := hg
        simp only [parentIsCaller, reachesCaller, hnew, hr₀, Bool.not_true, Bool.false_or,
          Option.all_some, Bool.or_eq_true, Bool.and_eq_true, Bool.not_eq_true', ne_eq, decide_not,
          decide_eq_false_iff_not] at hr
        rcases hr with ⟨hne, hal⟩ | hr
        · rcases hmove with hs | hs
          · exact absurd hs hne
          · rw [hs] at hal
            exact absurd hal (by simp)
        · obtain ⟨r', hr', ha⟩ := (Option.any_eq_true _ _).1 hr
          obtain ⟨p, hp, hlp⟩ := Option.bind_eq_some_iff.1 hr'
          exact ⟨p, r', hl.parentTaskId.trans hp, hlp, by
            rw [hl.callerAgentId]; exact of_decide_eq_true ha⟩
    · intro j hm
      rcases List.mem_append.1 hm with hm | hm
      · exact ih.2 j hm
      · cases List.mem_singleton.1 hm
        obtain ⟨-, hf⟩ := Prod.mk.inj (Option.some.inj he)
        simp [parentIsCaller, reachesCaller, hf] at hg

/-- **Every Result goes to the caller of its task, and no caller is skipped**, as long as every
failure finds a parent that was admitted for the caller and the database does not fail. -/
theorem result_to_caller (h : Run (router cfg) parentIsCaller (.init d.boot) P) :
    (∀ i dst f b, (i, ⟨.deliver dst (.result f), b⟩) ∈ P.log →
      ∃ r, P.shared.db.tasks.lookup f.taskId = some r ∧ r.callerAgentId = dst) ∧
    ∀ i th t, P.threads[i]? = some th → th.prog.Finished →
      (P.past i).countP (resultOf t) = (P.past i).countP (endsTask t) := by
  obtain ⟨hparent, hfault⟩ := parentIsCaller_of_run h
  constructor
  · intro i dst f b hm
    obtain ⟨r, hr, hd | ⟨r₀, p, rp, hl, hf, hp, hrp, ha⟩⟩ := addressed_of_run h i dst f b hm
    · exact ⟨r, hr, hd⟩
    · obtain ⟨p', rp', hp', hrp', ha'⟩ := hparent i r₀ hf
      rw [← hl.parentTaskId, hp, Option.some.injEq] at hp'
      subst hp'
      rw [hrp, Option.some.injEq] at hrp'
      subst hrp'
      exact ⟨r, hr, hl.callerAgentId.trans (ha'.symm.trans ha)⟩
  · intro i th t hth hfin
    refine (results_of_run h hth t).2 hfin (hfault i) fun r hf _ => ?_
    obtain ⟨p, -, hp, -⟩ := hparent i r hf
    rw [hp]
    simp

/-- `b`, the agent of `t`, spawns `t'` on `c` and completes `t`; then `t'` is overdue. -/
def sweptChild : List (Move Env Call) :=
  Sample.dispatched ++ [Sample.receive 1 "b" (.newTask (Sample.spawn "b" "c" (some "t")))] ++
    Sample.steps 5 6 ++ [Sample.step 5 "t'", Sample.step 5, Sample.step 5 "k'",
      Sample.receive 2 "c" (.ack (Sample.ack "c" "k'" true)), Sample.step 6] ++ Sample.steps 5 3 ++
    [Sample.receive 1 "b" (.result (Sample.result "b" "t" .succeeded))] ++ Sample.steps 7 4 ++
    [.start .sweep] ++ List.replicate 7 (.step 8 { now := 1000 })

/-- The sweep (coroutine `8`) tells `b`. -/
theorem result_to_caller_swept : ∃ P th,
    Sample.play (fun P _ _ a e => reachesCaller P.shared a e) sweptChild = some P ∧
      P.threads[8]? = some th ∧ (P.past 8).countP (endsTask "t'") = 1 ∧
      (P.past 8).countP (resultOf "t'") = (P.past 8).countP (endsTask "t'") := by
  have hplay : ((Sample.play (fun P _ _ a e => reachesCaller P.shared a e) sweptChild).map fun P =>
      ((P.past 8).countP (endsTask "t'"), P.threads[8]?.any fun th => th.prog.finished)) =
        some (1, true) := by
    decide +kernel
  obtain ⟨P, hP, h⟩ := Option.map_eq_some_iff.1 hplay
  obtain ⟨hends, hfin⟩ := Prod.mk.inj h
  obtain ⟨th, hth, hdone⟩ := (Option.any_eq_true _ _).1 hfin
  exact ⟨P, th, hP, hth, hends, (result_to_caller (Sample.run_of_play (fun _ _ => trivial)
    (fun _ _ _ _ _ hc => hc) hP)).2 8 th "t'" hth (Prog.finished_iff.1 hdone)⟩

/-- When a root times out, the sweep (coroutine `5`) tells nobody. -/
theorem root_not_told : ¬ ∀ (cfg : Config) (d : Deployment) (P : Pool Act Router Call Ret),
    Run (router cfg) .free (.init d.boot) P →
    (∀ i dst f b, (i, ⟨.deliver dst (.result f), b⟩) ∈ P.log →
      ∃ r, P.shared.db.tasks.lookup f.taskId = some r ∧ r.callerAgentId = dst) ∧
    ∀ i th t, P.threads[i]? = some th → th.prog.Finished →
      (P.past i).countP (resultOf t) = (P.past i).countP (endsTask t) := by
  intro hall
  have hplay : ((Sample.play Sample.anything (Sample.dispatched ++ [.start .sweep] ++
      List.replicate 5 (.step 5 { now := 1000 }))).map fun P =>
        ((P.past 5).countP (endsTask "t"), (P.past 5).countP (resultOf "t"),
          P.threads[5]?.any fun th => th.prog.finished)) = some (1, 0, true) := by
    decide +kernel
  obtain ⟨P, hP, h⟩ := Option.map_eq_some_iff.1 hplay
  obtain ⟨hends, hres⟩ := Prod.mk.inj h
  obtain ⟨hres, hfin⟩ := Prod.mk.inj hres
  obtain ⟨th, hth, hdone⟩ := (Option.any_eq_true _ _).1 hfin
  have heq := (hall {} Sample.deployment P (Sample.free_of_play hP)).2 5 th "t" hth
    (Prog.finished_iff.1 hdone)
  omega

end

end Backplane
