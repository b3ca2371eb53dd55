import Backplane.Concur.Trace
import Backplane.Sdk.Handler

/-!
# Every accepted NewTask is answered

Once the asyncio task of an accepted NewTask is done, one Result has been sent for it, and nothing
of it is left in the dispatcher's bookkeeping.

* `TasksAnswered` : what is claimed of a state.
* `careful` : the asyncio task is not cancelled before its first step nor while its Result waits for
  room in the outbox, its handler ends in a way that can be reported and leaves no open stream, and
  does not register a key again while the last answer to it is being noted.
* `tasks_answered` : in such runs it holds of every state, whatever the handlers do.
* `task_unanswered` : a NewTask whose asyncio task is cancelled before its first step.
-/

namespace Backplane

open Concur Prog

/-! ### What is claimed -/

/-- The Results sent for an accepted NewTask. -/
def SdkState.resultsOf (s : SdkState) (n : ℕ) : List ResultFrame :=
  s.sent.filterMap fun
    | .result m r => if m = n then some r else none
    | .ack _ => none

/-- Nothing of an accepted NewTask is left in the bookkeeping. -/
structure SdkState.Cleared (s : SdkState) (n : ℕ) : Prop where
  active : ∀ t x, s.active.lookup t = some x → x.handler ≠ n
  /-- `_task_correlations` -/
  tracked : ∀ k, (n, k) ∉ s.tracked
  pending : ∀ k, s.pending.lookup k ≠ some n
  subscribers : ∀ child, s.subscribers.lookup child ≠ some n

/-- Accepted NewTasks that are done have been answered and leave nothing behind. -/
structure TasksAnswered (s : SdkState) : Prop where
  /-- No NewTask is answered twice. -/
  once : ∀ n, (s.resultsOf n).length ≤ 1
  /-- One that is done has been answered. -/
  answered : ∀ (n : ℕ) (task : HandlerTask), s.tasks[n]? = some task → task.done = true →
    ∃ r, s.resultsOf n = [r] ∧ r.taskId = task.frame.taskId.getD ""
  /-- And nothing is left of it. -/
  cleared : ∀ (n : ℕ) (task : HandlerTask), s.tasks[n]? = some task → task.done = true → s.Cleared n

/-- What the condition says about an action. -/
def SdkState.careful (s : SdkState) : {β : Type} → SdkAct β → SdkEnv → Bool
  | _, .accept frame, _ => frame.taskId.any fun t => t ≠ "<spawn>"
  | _, .begin n, _ => !s.struck n
  | _, .handler n (.register k), _ => (s.trackedId n).all fun t => !s.callbacks.contains (t, k)
  | _, .finish n ended, e =>
    ended.report.isSome && e.alive.all fun child => s.subscribers.lookup child ≠ some n
  | _, .awaitRoom (some n) _, _ => !s.struck n
  | _, _, _ => true

/-- Every action satisfies the condition. -/
def careful : Guard SdkAct SdkEnv SdkState SdkCall Unit :=
  ⟨fun _ _ => True, fun P _ _ a e => P.shared.careful a e = true⟩

/-! ### What a coroutine does -/

/-- How far a NewTask has got. -/
inductive AnswerPhase
  | fresh
  | accepted (n : ℕ) (frame : NewTaskFrame)
  | running (n : ℕ) (frame : NewTaskFrame)
  /-- The handler has been left and cleaned up after. -/
  | cleaned (n : ℕ) (frame : NewTaskFrame)
  | answered (n : ℕ)
  | left

namespace AnswerPhase

/-- A Result may be sent now. -/
def mayAnswer (q : AnswerPhase) : SdkFrame → Prop
  | .result n r => ∃ frame, q = cleaned n frame ∧ r.taskId = frame.taskId.getD ""
  | .ack _ => True

/-- The handler runs between acceptance and cleanup, and the Result comes after it. -/
def ok : {β : Type} → AnswerPhase → SdkAct β → Prop
  | _, q, .accept _ => q = fresh
  | _, q, .put frame => q.mayAnswer frame
  | _, q, .awaitRoom _ frame => q.mayAnswer frame
  | _, q, .begin n => ∃ frame, q = accepted n frame
  | _, q, .handler n _ => ∃ frame, q = running n frame
  | _, q, .finish n _ => ∃ frame, q = running n frame
  | _, q, .exit n => q = answered n
  | _, _, _ => True

/-- What the condition rules out. -/
def ans : {β : Type} → SdkAct β → β → Prop
  | _, .begin _, started => started = true
  | _, .finish _ ended, _ => ended.report.isSome = true
  | _, .awaitRoom (some _) _, sent => sent = true
  | _, _, _ => True

/-- The phase once the frame is sent. -/
def sent (q : AnswerPhase) : SdkFrame → AnswerPhase
  | .result n _ => answered n
  | .ack _ => q

/-- The phase after an answer. -/
def next : {β : Type} → AnswerPhase → SdkAct β → β → AnswerPhase
  | _, _, .accept frame, n => accepted n frame
  | _, q, .put frame, true => q.sent frame
  | _, q, .awaitRoom _ frame, true => q.sent frame
  | _, accepted n frame, .begin _, true => running n frame
  | _, running n frame, .finish _ _, _ => cleaned n frame
  | _, _, .exit _, _ => left
  | _, q, _, _ => q

end AnswerPhase

/-- The discipline of a NewTask. -/
def answerWork : Discipline SdkAct AnswerPhase :=
  ⟨AnswerPhase.ok, AnswerPhase.ans, AnswerPhase.next⟩

section

variable {agent : SdkAgent} {handler : RegisteredHandler} {frame : NewTaskFrame} {n : ℕ}
  {correlationId : CorrelationId} {q : AnswerPhase}

theorem answerWork_sendAck {ack : AckFrame} :
    answerWork.Obeys q ((SdkFrame.ack ack).send none) fun q' _ => q' = q := by
  refine ⟨trivial, fun found _ => ?_⟩
  cases found with
  | true => rfl
  | false =>
    refine ⟨trivial, fun sent _ => ?_⟩
    cases sent <;> rfl

theorem answerWork_rejectNewTask {reason : String} :
    answerWork.Obeys q (agent.rejectNewTask correlationId frame reason) fun _ _ => True := by
  unfold SdkAgent.rejectNewTask
  split
  · trivial
  · exact Discipline.obeys_bind.2 (answerWork_sendAck.mono fun _ _ _ => trivial)

theorem answerWork_sendResult {report : TaskReport} :
    answerWork.Obeys (.cleaned n frame)
      ((SdkFrame.result n (agent.resultFrame frame report)).send (some n))
      fun q _ => q = .answered n := by
  refine ⟨⟨frame, rfl, rfl⟩, fun found _ => ?_⟩
  cases found with
  | true => rfl
  | false =>
    refine ⟨⟨frame, rfl, rfl⟩, fun sent hsent => ?_⟩
    obtain rfl : sent = true := hsent
    rfl

theorem answerWork_runHandler :
    answerWork.Obeys (.accepted n frame) (agent.runHandler handler frame n) fun _ _ => True := by
  refine Discipline.obeys_perform_bind.2 ⟨⟨frame, rfl⟩, fun started hstarted => ?_⟩
  obtain rfl : started = true := hstarted
  have hfn : answerWork.Keeps (fun q => q = .running n frame)
      ((handler.fn frame).mapAct fun a => SdkAct.handler n a) := by
    refine Discipline.Keeps.of_only (Only.mapAct (Only.of_forall (fun a => ?_) _))
    rintro q rfl
    exact ⟨⟨frame, rfl⟩, fun _ _ => rfl⟩
  refine Discipline.obeys_bind.2 ((hfn _ rfl).mono fun q ended hq => ?_)
  subst hq
  refine Discipline.obeys_perform_bind.2 ⟨⟨frame, rfl⟩, fun _ hended => ?_⟩
  obtain ⟨report, hreport⟩ := Option.isSome_iff_exists.1 hended
  refine Discipline.obeys_perform_bind.2 ⟨trivial, fun _ _ => ?_⟩
  refine Discipline.obeys_perform_bind.2 ⟨trivial, fun _ _ => ?_⟩
  rw [hreport]
  refine Discipline.obeys_bind.2 (Discipline.obeys_bind.2
    (answerWork_sendResult.mono fun q _ hq => ?_))
  exact ⟨hq, fun _ _ => trivial⟩

/-- **A NewTask is answered after its handler has been cleaned up after**, and before its asyncio
task is done. -/
theorem answerWork_body (c : SdkCall) : answerWork.Obeys .fresh (c.body agent) fun _ _ => True := by
  cases c with
  | newTask correlationId frame =>
    refine Discipline.obeys_perform_bind.2 ⟨trivial, fun draining _ => ?_⟩
    cases draining with
    | true =>
      rw [if_pos rfl]
      exact answerWork_rejectNewTask
    | false =>
      rw [if_neg Bool.false_ne_true]
      split
      · exact answerWork_rejectNewTask
      · split
        · exact answerWork_rejectNewTask
        · split
          · trivial
          · refine Discipline.obeys_perform_bind.2 ⟨rfl, fun n _ => ?_⟩
            refine Discipline.obeys_bind.2 (answerWork_sendAck.mono fun q sent hq => ?_)
            subst hq
            cases sent with
            | false => trivial
            | true =>
              exact Discipline.obeys_perform_bind.2 ⟨trivial, fun _ _ => answerWork_runHandler⟩
  | _ => exact ⟨trivial, fun _ _ => trivial⟩

end

/-! ### What an action does to the bookkeeping -/

/-- What nobody but the asyncio task itself changes: its frame, and whether it is done. -/
def SdkState.status (s : SdkState) (n : ℕ) : Option (NewTaskFrame × Bool) :=
  s.tasks[n]?.map fun task => (task.frame, task.done)

section

variable {s s' : SdkState} {n m : ℕ} {k : PendingKey} {ks : List PendingKey} {t : TaskId}
  {f : HandlerTask → HandlerTask} {frame : SdkFrame}

namespace SdkState

theorem status_setTask (hf : ∀ task, (f task).frame = task.frame ∧ (f task).done = task.done) :
    (s.setTask m f).status n = s.status n := by
  rw [status, setTask, List.getElem?_modify, status]
  cases s.tasks[n]? with
  | none => rfl
  | some task =>
    by_cases hn : m = n
    · simp [hn, hf task]
    · simp [hn]

theorem status_setTask_done :
    (s.setTask m fun task => { task with done := true }).status n =
      if n = m then (s.status n).map fun x => (x.1, true) else s.status n := by
  rw [status, setTask, List.getElem?_modify, status]
  cases s.tasks[n]? with
  | none => simp
  | some task =>
    by_cases hn : n = m
    · subst hn
      simp
    · simp [hn, Ne.symm hn]

theorem resultsOf_append : resultsOf { s with sent := s.sent ++ [frame] } n =
    s.resultsOf n ++ (match frame with
      | .result m r => if m = n then some r else none
      | .ack _ => none : Option ResultFrame).toList := by
  rw [resultsOf, List.filterMap_append]
  congr 1

/-- Settling futures removes their entries, and makes the callbacks of their owners due. -/
structure Settled (s s' : SdkState) (ks : List PendingKey) : Prop where
  /-- Nothing else changes. -/
  same : s'.tasks = s.tasks ∧ s'.active = s.active ∧ s'.tracked = s.tracked ∧
    s'.opened = s.opened ∧ s'.subscribers = s.subscribers ∧ s'.sent = s.sent
  pending : ∀ k n, s'.pending.lookup k = some n → s.pending.lookup k = some n ∧ k ∉ ks
  callbacks : ∀ t k, (t, k) ∈ s'.callbacks → (t, k) ∈ s.callbacks ∨ k ∈ ks

theorem settled_settle (s : SdkState) (ks : List PendingKey) : s.Settled (s.settle ks) ks := by
  induction ks generalizing s with
  | nil => exact ⟨⟨rfl, rfl, rfl, rfl, rfl, rfl⟩, fun k n h => ⟨h, by simp⟩, fun t k h => .inl h⟩
  | cons k₀ ks ih =>
    rw [settle, List.foldl_cons]
    cases hk : s.pending.lookup k₀ with
    | none =>
      have hrest := ih s
      refine ⟨hrest.same, fun k n h => ?_, fun t k h => ?_⟩
      · obtain ⟨hlookup, hmem⟩ := hrest.pending k n h
        refine ⟨hlookup, fun hcons => ?_⟩
        obtain rfl := (List.mem_cons.1 hcons).resolve_right hmem
        exact absurd (hk.symm.trans hlookup) (by simp)
      · exact (hrest.callbacks t k h).imp_right (List.mem_cons_of_mem _)
    | some n₀ =>
      have hrest := ih { s with
        pending := s.pending.erase k₀
        callbacks := s.callbacks ++ ((s.trackedId n₀).map fun t => (t, k₀)).toList }
      refine ⟨hrest.same, fun k n h => ?_, fun t k h => ?_⟩
      · obtain ⟨hlookup, hmem⟩ := hrest.pending k n h
        by_cases hne : k = k₀
        · subst hne
          exact absurd ((AList.lookup_erase _ _).symm.trans hlookup) (by simp)
        · refine ⟨(AList.lookup_erase_ne hne).symm.trans hlookup, fun hcons => ?_⟩
          exact hmem ((List.mem_cons.1 hcons).resolve_left hne)
      · obtain h | h := hrest.callbacks t k h
        · obtain h | h := List.mem_append.1 h
          · exact .inl h
          · simp only [Option.mem_toList, Option.map_eq_some_iff, Prod.mk.injEq] at h
            obtain ⟨t', -, -, rfl⟩ := h
            exact .inr List.mem_cons_self
        · exact .inr (List.mem_cons_of_mem _ h)

end SdkState

/-- The parts of the state that only the coroutine of a NewTask changes for it. -/
structure Undisturbed (s s' : SdkState) (n : ℕ) : Prop where
  /-- The frame, and whether it is done. -/
  status : s'.status n = s.status n
  results : s'.resultsOf n = s.resultsOf n
  /-- What is left of it. -/
  cleared : s.Cleared n → s'.Cleared n

/-- The NewTask that an action is about. -/
def SdkAct.own (s : SdkState) : {β : Type} → SdkAct β → Option ℕ
  | _, .accept _ => some s.tasks.length
  | _, .put (.result n _) => some n
  | _, .awaitRoom _ (.result n _) => some n
  | _, .begin n => some n
  | _, .handler n _ => some n
  | _, .finish n _ => some n
  | _, .exit n => some n
  | _, _ => none

variable {β : Type} {a : SdkAct β} {b : β} {e : SdkEnv}

theorem Undisturbed.of_fields (hstatus : s'.status n = s.status n) (hsent : s'.sent = s.sent)
    (hactive : ∀ t x, s'.active.lookup t = some x → x.handler = n →
      ∃ y, s.active.lookup t = some y ∧ y.handler = n)
    (htracked : ∀ k, (n, k) ∈ s'.tracked → (n, k) ∈ s.tracked)
    (hpending : ∀ k, s'.pending.lookup k = some n → s.pending.lookup k = some n)
    (hsubscribers : ∀ c, s'.subscribers.lookup c = some n → s.subscribers.lookup c = some n) :
    Undisturbed s s' n := by
  refine ⟨hstatus, by rw [SdkState.resultsOf, hsent, SdkState.resultsOf], fun hc =>
    ⟨fun t x hx hn => ?_, fun k hk => hc.tracked k (htracked k hk),
      fun k hk => hc.pending k (hpending k hk), fun c hs => hc.subscribers c (hsubscribers c hs)⟩⟩
  obtain ⟨y, hy, hyn⟩ := hactive t x hx hn
  exact hc.active t y hy hyn

theorem Undisturbed.of_sent {frame : SdkFrame} (hframe : ∀ r, frame ≠ .result n r) :
    Undisturbed s { s with sent := s.sent ++ [frame] } n := by
  refine ⟨rfl, ?_, fun hc => ⟨hc.active, hc.tracked, hc.pending, hc.subscribers⟩⟩
  rw [SdkState.resultsOf_append]
  cases frame with
  | ack ack => simp
  | result m r =>
    have hm : m ≠ n := by
      rintro rfl
      exact hframe r rfl
    simp [hm]

theorem Undisturbed.trans {s'' : SdkState} (h : Undisturbed s s' n) (h' : Undisturbed s' s'' n) :
    Undisturbed s s'' n :=
  ⟨h'.status.trans h.status, h'.results.trans h.results, fun hc => h'.cleared (h.cleared hc)⟩

theorem Undisturbed.refl (s : SdkState) : Undisturbed s s n := ⟨rfl, rfl, id⟩

theorem Undisturbed.setTask
    (hf : ∀ task, (f task).frame = task.frame ∧ (f task).done = task.done) :
    Undisturbed s (s.setTask m f) n :=
  ⟨SdkState.status_setTask hf, rfl, fun hc => ⟨hc.active, hc.tracked, hc.pending, hc.subscribers⟩⟩

theorem Undisturbed.settle : Undisturbed s (s.settle ks) n := by
  have h := SdkState.settled_settle s ks
  obtain ⟨htasks, hactive, htracked, -, hsubscribers, hsent⟩ := h.same
  refine .of_fields ?_ hsent (fun t x hx hn => ⟨x, hactive ▸ hx, hn⟩) (fun k hk => htracked ▸ hk)
    (fun k hk => (h.pending k n hk).1) (fun c hc => hsubscribers ▸ hc)
  rw [SdkState.status, htasks, SdkState.status]

theorem Undisturbed.mapActive {g : TaskId → ActiveTask → ActiveTask}
    (hg : ∀ t x, (g t x).handler = x.handler) :
    Undisturbed s { s with active := s.active.mapRows g } n := by
  refine .of_fields rfl rfl (fun t x hx hn => ?_) (fun _ h => h) (fun _ h => h) fun _ h => h
  change AList.lookup t (s.active.mapRows g) = some x at hx
  rw [Table.lookup_mapRows, Option.map_eq_some_iff] at hx
  obtain ⟨y, hy, rfl⟩ := hx
  exact ⟨y, hy, (hg t y).symm.trans hn⟩

theorem Undisturbed.finish {ended : HandlerEnd}
    (he : (SdkAct.finish m ended).exec e s = some (s', ())) : Undisturbed s s' n := by
  obtain ⟨rfl, -⟩ := Prod.mk.inj (Option.some.inj he)
  have hfinal : ∀ s : SdkState, Undisturbed s (s.finalize m e.alive) n := fun s =>
    .of_fields rfl rfl (fun t x hx hn => ⟨x, hx, hn⟩) (fun _ h => h) (fun _ h => h) fun c hc =>
      (Table.lookup_deleteWhere.1 hc).1
  refine Undisturbed.trans ?_ (hfinal _)
  split
  · exact .refl s
  · rename_i t ht
    refine Undisturbed.trans (?_ : Undisturbed s { s with
      active := s.active.erase t
      tracked := s.tracked.filter fun x => s.trackedId x.1 ≠ some t } n) .settle
    refine .of_fields rfl rfl (fun t' x hx hn => ⟨x, ?_, hn⟩)
      (fun k hk => (List.mem_filter.1 hk).1) (fun _ h => h) fun _ h => h
    exact (Table.lookup_of_erase hx).2

/-- **An action leaves the other NewTasks alone.** -/
theorem Undisturbed.exec (he : a.exec e s = some (s', b)) (hn : a.own s ≠ some n) :
    Undisturbed s s' n := by
  have hflag : ∀ (m : ℕ) (c : Bool),
      Undisturbed s (s.setTask m fun task => { task with cancelRequested := c }) n :=
    fun m c => .setTask fun _ => ⟨rfl, rfl⟩
  have hsend : ∀ frame : SdkFrame, (∀ r, frame ≠ .result n r) →
      Undisturbed s { s with sent := s.sent ++ [frame] } n := fun _ => .of_sent
  cases a with
  | draining =>
    obtain ⟨rfl, -⟩ := Prod.mk.inj (Option.some.inj he)
    exact .refl s
  | accept frame =>
    obtain ⟨rfl, -⟩ := Prod.mk.inj (Option.some.inj he)
    have hne : s.tasks.length ≠ n := fun h => hn (congrArg some h)
    refine .of_fields ?_ rfl ?_ (fun _ h => h) (fun _ h => h) fun _ h => h
    · rw [SdkState.status, SdkState.status, List.getElem?_append]
      split_ifs with hlt
      · rfl
      · rw [List.getElem?_singleton, if_neg (by omega), List.getElem?_eq_none (by omega)]
    · intro t x hx hxn
      cases htask : frame.taskId with
      | none =>
        simp only [htask] at hx
        exact ⟨x, hx, hxn⟩
      | some t' =>
        simp only [htask, Table.lookup_insert] at hx
        split_ifs at hx with ht
        · obtain rfl := Option.some.inj hx
          exact absurd hxn hne
        · exact ⟨x, hx, hxn⟩
  | put frame =>
    simp only [SdkAct.exec] at he
    split_ifs at he
    · obtain ⟨rfl, -⟩ := Prod.mk.inj (Option.some.inj he)
      exact .refl s
    · obtain ⟨rfl, -⟩ := Prod.mk.inj (Option.some.inj he)
      refine hsend frame fun r hr => hn ?_
      rw [hr]
      rfl
  | awaitRoom who frame =>
    simp only [SdkAct.exec] at he
    split_ifs at he
    · obtain ⟨rfl, -⟩ := Prod.mk.inj (Option.some.inj he)
      cases who with
      | none => exact .refl s
      | some m => exact hflag m false
    · obtain ⟨rfl, -⟩ := Prod.mk.inj (Option.some.inj he)
      refine hsend frame fun r hr => hn ?_
      rw [hr]
      rfl
  | createTask m =>
    obtain ⟨rfl, -⟩ := Prod.mk.inj (Option.some.inj he)
    refine (Undisturbed.setTask fun _ => ⟨rfl, rfl⟩ : Undisturbed s (s.setTask m fun task =>
      { task with created := true }) n).trans ?_
    split
    · exact .refl _
    · exact .mapActive fun t x => by split <;> rfl
  | begin m =>
    simp only [SdkAct.exec] at he
    split_ifs at he
    · obtain ⟨rfl, -⟩ := Prod.mk.inj (Option.some.inj he)
      have hne : n ≠ m := fun h => hn (congrArg some h.symm)
      refine ⟨?_, rfl, fun hc => ⟨hc.active, hc.tracked, hc.pending, hc.subscribers⟩⟩
      rw [SdkState.status_setTask_done, if_neg hne]
    · obtain ⟨rfl, -⟩ := Prod.mk.inj (Option.some.inj he)
      exact .refl s
  | handler m act =>
    have hne : m ≠ n := fun h => hn (congrArg some h)
    obtain ⟨rfl, -⟩ := Prod.mk.inj (Option.some.inj he)
    cases act with
    | suspend => exact hflag m false
    | register k =>
      refine .of_fields rfl rfl (fun t x hx hxn => ⟨x, hx, hxn⟩) ?_ ?_ fun _ h => h
      · intro k' hk'
        obtain hk' | hk' := List.mem_append.1 hk'
        · exact hk'
        · simp only [Option.mem_toList, Option.map_eq_some_iff, Prod.mk.injEq] at hk'
          obtain ⟨-, -, hmn, -⟩ := hk'
          exact absurd hmn hne
      · intro k' hk'
        change AList.lookup k' (s.pending.insert k m) = some n at hk'
        rw [Table.lookup_insert] at hk'
        split_ifs at hk' with hkk
        · exact absurd (Option.some.inj hk') hne
        · exact hk'
    | openStream child =>
      refine .of_fields rfl rfl (fun t x hx hxn => ⟨x, hx, hxn⟩) (fun _ h => h) (fun _ h => h) ?_
      intro c hc
      change AList.lookup c (s.subscribers.insert child m) = some n at hc
      rw [Table.lookup_insert] at hc
      split_ifs at hc with hcc
      · exact absurd (Option.some.inj hc) hne
      · exact hc
    | closeStream child =>
      refine .of_fields rfl rfl (fun t x hx hxn => ⟨x, hx, hxn⟩) (fun _ h => h) (fun _ h => h) ?_
      intro c hc
      change AList.lookup c (s.subscribers.erase child) = some n at hc
      exact (Table.lookup_of_erase hc).2
    | cancelSelf => exact hflag m true
    | tripped => exact .refl s
  | finish m ended => exact .finish he
  | suspend m =>
    simp only [SdkAct.exec] at he
    split_ifs at he
    · obtain ⟨rfl, -⟩ := Prod.mk.inj (Option.some.inj he)
      exact hflag m false
    · obtain ⟨rfl, -⟩ := Prod.mk.inj (Option.some.inj he)
      exact .refl s
  | exit m =>
    obtain ⟨rfl, -⟩ := Prod.mk.inj (Option.some.inj he)
    have hne : n ≠ m := fun h => hn (congrArg some h.symm)
    refine ⟨?_, rfl, fun hc => ⟨hc.active, hc.tracked, hc.pending, hc.subscribers⟩⟩
    rw [SdkState.status_setTask_done, if_neg hne]
  | cancelFrame taskId reason =>
    obtain ⟨rfl, -⟩ := Prod.mk.inj (Option.some.inj he)
    exact .mapActive fun t x => by split <;> rfl
  | cancelTask m =>
    simp only [SdkAct.exec] at he
    split_ifs at he
    obtain ⟨rfl, -⟩ := Prod.mk.inj (Option.some.inj he)
    exact hflag m true
  | drain =>
    obtain ⟨rfl, -⟩ := Prod.mk.inj (Option.some.inj he)
    exact ⟨rfl, rfl, fun hc => ⟨hc.active, hc.tracked, hc.pending, hc.subscribers⟩⟩
  | settle k =>
    obtain ⟨rfl, -⟩ := Prod.mk.inj (Option.some.inj he)
    exact .settle
  | untrack =>
    simp only [SdkAct.exec] at he
    split at he
    · exact absurd he (by simp)
    · obtain ⟨rfl, -⟩ := Prod.mk.inj (Option.some.inj he)
      exact .of_fields rfl rfl (fun t x hx hxn => ⟨x, hx, hxn⟩)
        (fun k hk => (List.mem_filter.1 hk).1) (fun _ h => h) fun _ h => h
  | endSubscription child =>
    obtain ⟨rfl, -⟩ := Prod.mk.inj (Option.some.inj he)
    refine .of_fields rfl rfl (fun t x hx hxn => ⟨x, hx, hxn⟩) (fun _ h => h) (fun _ h => h) ?_
    exact fun c hc => (Table.lookup_of_erase hc).2
  | pump =>
    simp only [SdkAct.exec] at he
    split_ifs at he
    obtain ⟨rfl, -⟩ := Prod.mk.inj (Option.some.inj he)
    exact ⟨rfl, rfl, fun hc => ⟨hc.active, hc.tracked, hc.pending, hc.subscribers⟩⟩

/-! ### The bookkeeping fits together -/

/-- The frames of the accepted NewTasks. -/
def SdkState.frames (s : SdkState) : List NewTaskFrame := s.tasks.map HandlerTask.frame

/-- Every entry stands for an accepted NewTask with an id, and what is pending is tracked. -/
structure SdkState.Wf (s : SdkState) : Prop where
  /-- Accepted NewTasks have ids. -/
  named : ∀ n, n < s.tasks.length → ∃ t, s.trackedId n = some t
  /-- An active entry stands under the id of its NewTask. -/
  active : ∀ t x, s.active.lookup t = some x →
    (s.frames[x.handler]?).bind NewTaskFrame.taskId = some t
  /-- A pending future is tracked, and nothing is about to untrack it. -/
  pending : ∀ k n, s.pending.lookup k = some n → (n, k) ∈ s.tracked ∧
    ∃ t, s.trackedId n = some t ∧ (t, k) ∉ s.callbacks
  /-- A subscriber is a stream that was opened. -/
  subscribed : ∀ c n, s.subscribers.lookup c = some n → (n, c) ∈ s.opened

theorem SdkState.trackedId_eq_frames : s.trackedId n = (s.frames[n]?).bind fun fr =>
    fr.taskId.bind fun t => if t = "<spawn>" then none else some t := by
  rw [frames, List.getElem?_map]
  unfold trackedId
  cases s.tasks[n]? <;> rfl

theorem SdkState.trackedId_of_frames (h : s'.frames = s.frames) :
    s'.trackedId n = s.trackedId n := by
  rw [trackedId_eq_frames, trackedId_eq_frames, h]

theorem SdkState.frames_setTask (hf : ∀ task, (f task).frame = task.frame) :
    (s.setTask m f).frames = s.frames := by
  rw [frames, frames, setTask]
  refine List.ext_getElem? fun i => ?_
  rw [List.getElem?_map, List.getElem?_map, List.getElem?_modify]
  cases s.tasks[i]? with
  | none => rfl
  | some task =>
    by_cases hi : m = i
    · simp [hi, hf]
    · simp [hi]

theorem SdkState.Wf.of_fields (h : s.Wf) (hframes : s'.frames = s.frames)
    (hactive : ∀ t x, s'.active.lookup t = some x →
      ∃ y, s.active.lookup t = some y ∧ y.handler = x.handler)
    (hpending : ∀ k n, s'.pending.lookup k = some n → (n, k) ∈ s'.tracked ∧
      ∃ t, s.trackedId n = some t ∧ (t, k) ∉ s'.callbacks)
    (hsubscribed : ∀ c n, s'.subscribers.lookup c = some n → (n, c) ∈ s'.opened) : s'.Wf := by
  have hlength : s'.tasks.length = s.tasks.length := by
    have hl := congrArg List.length hframes
    rwa [frames, frames, List.length_map, List.length_map] at hl
  refine ⟨fun n hn => ?_, fun t x hx => ?_, fun k n hk => ?_, hsubscribed⟩
  · rw [trackedId_of_frames hframes]
    exact h.named n (hlength ▸ hn)
  · obtain ⟨y, hy, hxy⟩ := hactive t x hx
    rw [hframes, ← hxy]
    exact h.active t y hy
  · rw [trackedId_of_frames hframes]
    exact hpending k n hk

theorem SdkState.Wf.of_same (h : s.Wf) (hframes : s'.frames = s.frames)
    (hsame : s'.active = s.active ∧ s'.pending = s.pending ∧ s'.tracked = s.tracked ∧
      s'.callbacks = s.callbacks ∧ s'.subscribers = s.subscribers ∧ s'.opened = s.opened) :
    s'.Wf := by
  obtain ⟨hactive, hpending, htracked, hcallbacks, hsubscribers, hopened⟩ := hsame
  refine h.of_fields hframes (fun t x hx => ⟨x, hactive ▸ hx, rfl⟩) (fun k n hk => ?_)
    fun c n hc => hopened ▸ h.subscribed c n (hsubscribers ▸ hc)
  rw [htracked, hcallbacks]
  exact h.pending k n (hpending ▸ hk)

theorem SdkState.Wf.settle (h : s.Wf) : (s.settle ks).Wf := by
  have hs := settled_settle s ks
  obtain ⟨htasks, hactive, htracked, hopened, hsubscribers, -⟩ := hs.same
  refine h.of_fields (by rw [frames, htasks, frames]) (fun t x hx => ⟨x, hactive ▸ hx, rfl⟩)
    (fun k n hk => ?_) fun c n hc => hopened ▸ h.subscribed c n (hsubscribers ▸ hc)
  obtain ⟨hold, hks⟩ := hs.pending k n hk
  obtain ⟨hmem, t, ht, hno⟩ := h.pending k n hold
  exact ⟨htracked ▸ hmem, t, ht, fun hcb => hno ((hs.callbacks t k hcb).resolve_right hks)⟩

/-- After the drain, no future of the task is pending. -/
theorem SdkState.Wf.drain (h : s.Wf) : (s.drainTaskCorrelations t).Wf ∧
    ∀ n, s.trackedId n = some t → ∀ k, (n, k) ∉ (s.drainTaskCorrelations t).tracked ∧
      (s.drainTaskCorrelations t).pending.lookup k ≠ some n := by
  have hs := settled_settle { s with tracked := s.tracked.filter fun x => s.trackedId x.1 ≠ some t }
    (s.keysOf t)
  obtain ⟨htasks, hactive, htracked, hopened, hsubscribers, -⟩ := hs.same
  have hgone : ∀ k n, (s.drainTaskCorrelations t).pending.lookup k = some n →
      (n, k) ∈ s.tracked ∧ s.trackedId n ≠ some t ∧ ∃ t', s.trackedId n = some t' ∧
        (t', k) ∉ (s.drainTaskCorrelations t).callbacks := by
    intro k n hk
    obtain ⟨hold, hkeys⟩ := hs.pending k n hk
    obtain ⟨hmem, t', ht', hno⟩ := h.pending k n hold
    refine ⟨hmem, fun ht => hkeys ?_, t', ht', fun hcb => ?_⟩
    · exact List.mem_map.2 ⟨(n, k), List.mem_filter.2 ⟨hmem, decide_eq_true ht⟩, rfl⟩
    · exact hno ((hs.callbacks t' k hcb).resolve_right hkeys)
  refine ⟨h.of_fields (congrArg (List.map HandlerTask.frame) htasks) (fun t x hx => ⟨x, ?_, rfl⟩)
    (fun k n hk => ?_) fun c n hc => ?_, fun n hn k => ⟨fun hk => ?_, fun hk => ?_⟩⟩
  · exact hactive ▸ hx
  · obtain ⟨hmem, hne, hno⟩ := hgone k n hk
    refine ⟨?_, hno⟩
    rw [show (s.drainTaskCorrelations t).tracked = _ from htracked]
    exact List.mem_filter.2 ⟨hmem, decide_eq_true hne⟩
  · exact hopened ▸ h.subscribed c n (hsubscribers ▸ hc)
  · rw [show (s.drainTaskCorrelations t).tracked = _ from htracked] at hk
    exact absurd hn (of_decide_eq_true (List.mem_filter.1 hk).2)
  · exact (hgone k n hk).2.1 hn

theorem SdkState.Wf.setTask (h : s.Wf) (hf : ∀ task, (f task).frame = task.frame) :
    (s.setTask m f).Wf := h.of_same (frames_setTask hf) ⟨rfl, rfl, rfl, rfl, rfl, rfl⟩

theorem SdkState.Wf.mapActive (h : s.Wf) {g : TaskId → ActiveTask → ActiveTask}
    (hg : ∀ t x, (g t x).handler = x.handler) : Wf { s with active := s.active.mapRows g } := by
  refine h.of_fields rfl (fun t x hx => ?_) h.pending h.subscribed
  change AList.lookup t (s.active.mapRows g) = some x at hx
  rw [Table.lookup_mapRows, Option.map_eq_some_iff] at hx
  obtain ⟨y, hy, rfl⟩ := hx
  exact ⟨y, hy, (hg t y).symm⟩

theorem SdkState.Wf.accept {frame : NewTaskFrame} {n : ℕ} (h : s.Wf)
    (hc : s.careful (.accept frame) e = true)
    (he : (SdkAct.accept frame).exec e s = some (s', n)) : s'.Wf := by
  obtain ⟨rfl, -⟩ := Prod.mk.inj (Option.some.inj he)
  obtain ⟨t, ht, hspawn⟩ : ∃ t, frame.taskId = some t ∧ t ≠ "<spawn>" := by
    cases ht : frame.taskId with
    | none => simp [careful, ht] at hc
    | some t => exact ⟨t, rfl, by simpa [careful, ht] using hc⟩
  have hold : ∀ n, n < s.tasks.length → ∀ s' : SdkState,
      s'.tasks = s.tasks ++ [({ frame := frame } : HandlerTask)] →
      s'.trackedId n = s.trackedId n := by
    intro n hn s' htasks
    rw [trackedId, htasks, List.getElem?_append_left hn, trackedId]
  simp only [ht]
  refine ⟨fun n hn => ?_, fun t' x hx => ?_, fun k n hk => ?_, h.subscribed⟩
  · by_cases hlt : n < s.tasks.length
    · rw [hold n hlt _ rfl]
      exact h.named n hlt
    · rw [List.length_append, List.length_singleton] at hn
      obtain rfl : n = s.tasks.length := by omega
      exact ⟨t, by simp [trackedId, ht, hspawn]⟩
  · change ((s.tasks ++ [({ frame := frame } : HandlerTask)]).map
      HandlerTask.frame)[x.handler]?.bind _ = _
    rw [List.map_append, ← frames]
    rw [Table.lookup_insert] at hx
    split_ifs at hx with htt
    · obtain rfl := Option.some.inj hx
      rw [List.getElem?_append_right (by simp [frames])]
      simp [frames, ht, htt]
    · have hactive := h.active t' x hx
      obtain ⟨fr, hfr, -⟩ := Option.bind_eq_some_iff.1 hactive
      rw [List.getElem?_append_left (List.getElem?_eq_some_iff.1 hfr).1]
      exact hactive
  · obtain ⟨hmem, t', ht', hno⟩ := h.pending k n hk
    refine ⟨hmem, t', ?_, hno⟩
    obtain ⟨task, htask, -⟩ := Option.bind_eq_some_iff.1 ht'
    rw [hold n (List.getElem?_eq_some_iff.1 htask).1 _ rfl]
    exact ht'

/-- **Every action keeps the bookkeeping together.** -/
theorem SdkState.Wf.exec (h : s.Wf) (hc : s.careful a e = true) (he : a.exec e s = some (s', b))
    (hown : ∀ m, a.own s = some m → m < s'.tasks.length) : s'.Wf := by
  cases a with
  | draining =>
    obtain ⟨rfl, -⟩ := Prod.mk.inj (Option.some.inj he)
    exact h
  | accept frame => exact h.accept hc he
  | put frame =>
    simp only [SdkAct.exec] at he
    split_ifs at he
    · obtain ⟨rfl, -⟩ := Prod.mk.inj (Option.some.inj he)
      exact h
    · obtain ⟨rfl, -⟩ := Prod.mk.inj (Option.some.inj he)
      exact h.of_same rfl ⟨rfl, rfl, rfl, rfl, rfl, rfl⟩
  | awaitRoom who frame =>
    simp only [SdkAct.exec] at he
    split_ifs at he
    · obtain ⟨rfl, -⟩ := Prod.mk.inj (Option.some.inj he)
      cases who with
      | none => exact h
      | some m => exact h.setTask fun _ => rfl
    · obtain ⟨rfl, -⟩ := Prod.mk.inj (Option.some.inj he)
      exact h.of_same rfl ⟨rfl, rfl, rfl, rfl, rfl, rfl⟩
  | createTask m =>
    obtain ⟨rfl, -⟩ := Prod.mk.inj (Option.some.inj he)
    have hset : (s.setTask m fun task => { task with created := true }).Wf := h.setTask fun _ => rfl
    split
    · exact hset
    · exact hset.mapActive fun t x => by split <;> rfl
  | begin m =>
    simp only [SdkAct.exec] at he
    split_ifs at he
    · obtain ⟨rfl, -⟩ := Prod.mk.inj (Option.some.inj he)
      exact h.setTask fun _ => rfl
    · obtain ⟨rfl, -⟩ := Prod.mk.inj (Option.some.inj he)
      exact h
  | handler m act =>
    have hm := hown m rfl
    obtain ⟨rfl, -⟩ := Prod.mk.inj (Option.some.inj he)
    cases act with
    | suspend => exact h.setTask fun _ => rfl
    | register k =>
      obtain ⟨t, ht⟩ := h.named m hm
      have hno : (t, k) ∉ s.callbacks := by simpa [SdkState.careful, ht] using hc
      refine h.of_fields rfl (fun t x hx => ⟨x, hx, rfl⟩) (fun k' n hk' => ?_) h.subscribed
      change AList.lookup k' (s.pending.insert k m) = some n at hk'
      rw [Table.lookup_insert] at hk'
      split_ifs at hk' with hkk
      · obtain rfl := Option.some.inj hk'
        refine ⟨List.mem_append_right _ ?_, t, ht, hkk ▸ hno⟩
        simp [ht, hkk]
      · obtain ⟨hmem, hrest⟩ := h.pending k' n hk'
        exact ⟨List.mem_append_left _ hmem, hrest⟩
    | openStream child =>
      refine h.of_fields rfl (fun t x hx => ⟨x, hx, rfl⟩) h.pending fun c n hcn => ?_
      change AList.lookup c (s.subscribers.insert child m) = some n at hcn
      rw [Table.lookup_insert] at hcn
      split_ifs at hcn with hcc
      · obtain rfl := Option.some.inj hcn
        exact List.mem_append_right _ (by simp [hcc])
      · exact List.mem_append_left _ (h.subscribed c n hcn)
    | closeStream child =>
      exact h.of_fields rfl (fun t x hx => ⟨x, hx, rfl⟩) h.pending fun c n hcn =>
        h.subscribed c n (Table.lookup_of_erase hcn).2
    | cancelSelf => exact h.setTask fun _ => rfl
    | tripped => exact h
  | finish m ended =>
    obtain ⟨rfl, -⟩ := Prod.mk.inj (Option.some.inj he)
    have hfinal : ∀ s : SdkState, s.Wf → (s.finalize m e.alive).Wf := fun s h =>
      h.of_fields rfl (fun t x hx => ⟨x, hx, rfl⟩) h.pending fun c n hcn =>
        h.subscribed c n (Table.lookup_deleteWhere.1 hcn).1
    refine hfinal _ ?_
    split
    · exact h
    · refine (SdkState.Wf.drain ?_).1
      exact h.of_fields rfl (fun t x hx => ⟨x, (Table.lookup_of_erase hx).2, rfl⟩) h.pending
        h.subscribed
  | suspend m =>
    simp only [SdkAct.exec] at he
    split_ifs at he
    · obtain ⟨rfl, -⟩ := Prod.mk.inj (Option.some.inj he)
      exact h.setTask fun _ => rfl
    · obtain ⟨rfl, -⟩ := Prod.mk.inj (Option.some.inj he)
      exact h
  | exit m =>
    obtain ⟨rfl, -⟩ := Prod.mk.inj (Option.some.inj he)
    exact h.setTask fun _ => rfl
  | cancelFrame taskId reason =>
    obtain ⟨rfl, -⟩ := Prod.mk.inj (Option.some.inj he)
    exact h.mapActive fun t x => by split <;> rfl
  | cancelTask m =>
    simp only [SdkAct.exec] at he
    split_ifs at he
    obtain ⟨rfl, -⟩ := Prod.mk.inj (Option.some.inj he)
    exact h.setTask fun _ => rfl
  | drain =>
    obtain ⟨rfl, -⟩ := Prod.mk.inj (Option.some.inj he)
    exact h.of_same rfl ⟨rfl, rfl, rfl, rfl, rfl, rfl⟩
  | settle k =>
    obtain ⟨rfl, -⟩ := Prod.mk.inj (Option.some.inj he)
    exact h.settle
  | untrack =>
    simp only [SdkAct.exec] at he
    split at he
    · exact absurd he (by simp)
    · rename_i t k callbacks hcb
      obtain ⟨rfl, -⟩ := Prod.mk.inj (Option.some.inj he)
      refine h.of_fields rfl (fun t x hx => ⟨x, hx, rfl⟩) (fun k' n hk' => ?_) h.subscribed
      obtain ⟨hmem, t', ht', hno⟩ := h.pending k' n hk'
      rw [hcb, List.mem_cons, not_or] at hno
      refine ⟨List.mem_filter.2 ⟨hmem, decide_eq_true ?_⟩, t', ht', hno.2⟩
      rintro ⟨htt, hkk⟩
      exact hno.1 (Prod.ext (Option.some.inj (ht'.symm.trans htt)) hkk)
  | endSubscription child =>
    obtain ⟨rfl, -⟩ := Prod.mk.inj (Option.some.inj he)
    exact h.of_fields rfl (fun t x hx => ⟨x, hx, rfl⟩) h.pending fun c n hcn =>
      h.subscribed c n (Table.lookup_of_erase hcn).2
  | pump =>
    simp only [SdkAct.exec] at he
    split_ifs at he
    obtain ⟨rfl, -⟩ := Prod.mk.inj (Option.some.inj he)
    exact h.of_same rfl ⟨rfl, rfl, rfl, rfl, rfl, rfl⟩

/-- **Leaving the handler clears the bookkeeping.** -/
theorem SdkState.Wf.cleared_finish {ended : HandlerEnd} (h : s.Wf) (hn : n < s.tasks.length)
    (hc : s.careful (.finish n ended) e = true)
    (he : (SdkAct.finish n ended).exec e s = some (s', ())) : s'.Cleared n := by
  obtain ⟨rfl, -⟩ := Prod.mk.inj (Option.some.inj he)
  obtain ⟨t, ht⟩ := h.named n hn
  have hid : (s.tasks[n]?.bind fun task => task.frame.taskId) = some t := by
    obtain ⟨task, htask, hspawn⟩ := Option.bind_eq_some_iff.1 ht
    obtain ⟨t', ht', hspawn⟩ := Option.bind_eq_some_iff.1 hspawn
    obtain ⟨-, htt⟩ := Option.ite_none_left_eq_some.1 hspawn
    rw [htask, Option.bind_some, ht', Option.some.inj htt]
  have herased : Wf { s with active := s.active.erase t } :=
    h.of_fields rfl (fun t x hx => ⟨x, (Table.lookup_of_erase hx).2, rfl⟩) h.pending h.subscribed
  have hgone := herased.drain.2 n ht
  obtain ⟨-, hactive, -, hopened, hsubscribers, -⟩ := (settled_settle
    { s with
      active := s.active.erase t
      tracked := s.tracked.filter fun x => s.trackedId x.1 ≠ some t } (s.keysOf t)).same
  simp only [hid]
  refine ⟨fun t' x hx hxn => ?_, fun k => (hgone k).1, fun k => (hgone k).2, fun c hcn => ?_⟩
  · -- the entry stood under the id of its NewTask, which has been erased
    obtain ⟨hne, hlookup⟩ :=
      Table.lookup_of_erase ((congrArg (AList.lookup t') hactive).symm.trans hx)
    have hnamed := h.active t' x hlookup
    rw [hxn, frames, List.getElem?_map, Option.bind_map] at hnamed
    exact hne (Option.some.inj (hnamed.symm.trans hid))
  · -- the stream was opened by this handler, and nobody refers to it
    obtain ⟨hlookup, hkept⟩ := Table.lookup_deleteWhere.1 hcn
    have hsub : s.subscribers.lookup c = some n :=
      (congrArg (AList.lookup c) hsubscribers).symm.trans hlookup
    have hopen : (n, c) ∈ s.opened := h.subscribed c n hsub
    have hopen' : (n, c) ∈ SdkState.opened
        (drainTaskCorrelations { s with active := s.active.erase t } t) :=
      (congrArg (fun l => (n, c) ∈ l) hopened).mpr hopen
    simp only [careful, Bool.and_eq_true, List.all_eq_true, decide_eq_true_eq] at hc
    simp only [hopen', decide_true, Bool.true_and, Bool.not_eq_eq_eq_not, Bool.not_false,
      List.contains_iff_mem] at hkept
    exact hc.2 c hkept hsub

/-! ### Every run -/

namespace SdkState

/-- What is claimed of one NewTask. -/
structure Answered (s : SdkState) (n : ℕ) : Prop where
  /-- It is not answered twice. -/
  once : (s.resultsOf n).length ≤ 1
  /-- Once it is done, it has been answered, and nothing is left of it. -/
  done : ∀ frame, s.status n = some (frame, true) →
    (∃ r, s.resultsOf n = [r] ∧ r.taskId = frame.taskId.getD "") ∧ s.Cleared n

theorem status_ne_none : s.status n ≠ none ↔ n < s.tasks.length := by
  rw [status, Ne, Option.map_eq_none_iff, List.getElem?_eq_none_iff, not_le]

theorem Answered.of_undisturbed (h : s.Answered n) (hu : Undisturbed s s' n) : s'.Answered n := by
  refine ⟨hu.results ▸ h.once, fun frame hd => ?_⟩
  obtain ⟨hr, hc⟩ := h.done frame (hu.status ▸ hd)
  exact ⟨hu.results ▸ hr, hu.cleared hc⟩

/-- A NewTask that is not done is answered as it should be when it has not been answered twice. -/
theorem Answered.of_open {frame : NewTaskFrame} (hs : s.status n = some (frame, false))
    (h : (s.resultsOf n).length ≤ 1) : s.Answered n :=
  ⟨h, fun frame' hd => absurd (hs.symm.trans hd) (by simp)⟩

end SdkState

theorem HandlerAct.status_exec (act : HandlerAct β) : (act.exec m s).1.status n = s.status n := by
  have hflag : ∀ c : Bool,
      (s.setTask m fun task => { task with cancelRequested := c }).status n = s.status n :=
    fun c => SdkState.status_setTask fun _ => ⟨rfl, rfl⟩
  cases act with
  | suspend => exact hflag false
  | cancelSelf => exact hflag true
  | _ => rfl

theorem HandlerAct.resultsOf_exec (act : HandlerAct β) :
    (act.exec m s).1.resultsOf n = s.resultsOf n := by
  cases act <;> rfl

/-- The coroutine accepted the NewTask. -/
def Accepts (log : Log SdkAct) (i n : ℕ) : Prop :=
  ∃ frame, (i, (⟨.accept frame, n⟩ : Event SdkAct)) ∈ log

/-- The bookkeeping fits together, every NewTask was accepted by one coroutine, and it has been
answered if it is done. -/
structure SdkInv (s : SdkState) (log : Log SdkAct) : Prop where
  wf : s.Wf
  /-- What was accepted is there. -/
  accepted : ∀ i n, Accepts log i n → s.status n ≠ none
  /-- By one coroutine. -/
  unique : ∀ i j n, Accepts log i n → Accepts log j n → i = j
  /-- What is to come has not been answered. -/
  fresh : ∀ n, s.status n = none → s.resultsOf n = []
  /-- What is claimed. -/
  answered : ∀ n, s.Answered n

namespace AnswerPhase

/-- What a phase says about the NewTask. -/
def Holds (i : ℕ) (s : SdkState) (log : Log SdkAct) : AnswerPhase → Prop
  | fresh | left => True
  | accepted n frame | running n frame =>
    Accepts log i n ∧ s.status n = some (frame, false) ∧ s.resultsOf n = []
  | cleaned n frame =>
    Accepts log i n ∧ s.status n = some (frame, false) ∧ s.resultsOf n = [] ∧ s.Cleared n
  | answered n => Accepts log i n ∧ s.Cleared n ∧ ∃ frame r, s.status n = some (frame, false) ∧
    s.resultsOf n = [r] ∧ r.taskId = frame.taskId.getD ""

/-- The NewTask of a phase. -/
def about : AnswerPhase → Option ℕ
  | fresh | left => none
  | accepted n _ | running n _ | cleaned n _ | answered n => some n

variable {log : Log SdkAct} {i j : ℕ} {q q' : AnswerPhase} {y : Event SdkAct}

theorem Holds.accepts (h : q.Holds i s log) (hn : q.about = some n) : Accepts log i n := by
  cases q <;> simp only [about, Option.some.injEq, reduceCtorEq] at hn <;> subst hn <;> exact h.1

theorem Holds.status (h : q.Holds i s log) (hn : q.about = some n) :
    ∃ frame, s.status n = some (frame, false) := by
  cases q with
  | fresh | left => exact absurd hn (by simp [about])
  | accepted m frame | running m frame | cleaned m frame =>
    obtain rfl := Option.some.inj hn
    exact ⟨frame, h.2.1⟩
  | answered m =>
    obtain rfl := Option.some.inj hn
    obtain ⟨-, -, frame, r, hs, -⟩ := h
    exact ⟨frame, hs⟩

theorem Holds.answeredSoFar (h : q.Holds i s log) (hn : q.about = some n) : s.Answered n := by
  cases q with
  | fresh | left => exact absurd hn (by simp [about])
  | accepted m frame | running m frame | cleaned m frame =>
    obtain rfl := Option.some.inj hn
    exact .of_open h.2.1 (by simp [h.2.2])
  | answered m =>
    obtain rfl := Option.some.inj hn
    obtain ⟨-, -, frame, r, hs, hr, -⟩ := h
    exact .of_open hs (by simp [hr])

theorem Holds.keep (h : q.Holds i s log) (hu : ∀ n, q.about = some n → Undisturbed s s' n) :
    q.Holds i s' (log ++ [(j, y)]) := by
  have hacc : ∀ n, Accepts log i n → Accepts (log ++ [(j, y)]) i n := fun n ⟨frame, hmem⟩ =>
    ⟨frame, List.mem_append_left _ hmem⟩
  cases q with
  | fresh | left => trivial
  | accepted n frame | running n frame =>
    have hn := hu n rfl
    exact ⟨hacc n h.1, hn.status.trans h.2.1, hn.results.trans h.2.2⟩
  | cleaned n frame =>
    have hn := hu n rfl
    exact ⟨hacc n h.1, hn.status.trans h.2.1, hn.results.trans h.2.2.1, hn.cleared h.2.2.2⟩
  | answered n =>
    obtain ⟨ha, hc, frame, r, hs, hr, hid⟩ := h
    have hn := hu n rfl
    exact ⟨hacc n ha, hn.cleared hc, frame, r, hn.status.trans hs, hn.results.trans hr, hid⟩

/-- An action about a NewTask is performed by the coroutine that accepted it. -/
theorem about_of_own (hok : q.ok a) (hn : a.own s = some n) :
    q.about = some n ∨ q = fresh ∧ n = s.tasks.length := by
  cases a with
  | accept frame => exact .inr ⟨hok, (Option.some.inj hn).symm⟩
  | put frame =>
    cases frame with
    | ack ack => exact absurd hn (by simp [SdkAct.own])
    | result m r =>
      obtain rfl := Option.some.inj hn
      obtain ⟨frame, rfl, -⟩ := hok
      exact .inl rfl
  | awaitRoom who frame =>
    cases frame with
    | ack ack => exact absurd hn (by simp [SdkAct.own])
    | result m r =>
      obtain rfl := Option.some.inj hn
      obtain ⟨frame, rfl, -⟩ := hok
      exact .inl rfl
  | begin m | handler m _ | finish m _ =>
    obtain rfl := Option.some.inj hn
    obtain ⟨frame, rfl⟩ := hok
    exact .inl rfl
  | exit m =>
    obtain rfl := Option.some.inj hn
    obtain rfl : q = .answered m := hok
    exact .inl rfl
  | _ => exact absurd hn (by simp [SdkAct.own])

/-- After an action about a NewTask the coroutine is still at it, unless it has left. -/
theorem about_next (hok : q.ok a) (hn : a.own s = some n) (he : a.exec e s = some (s', b))
    (hans : ans a b) : (q.next a b).about = some n ∨
      q = answered n ∧ s' = s.setTask n fun task => { task with done := true } := by
  cases a with
  | accept frame =>
    obtain ⟨-, rfl⟩ := Prod.mk.inj (Option.some.inj he)
    exact .inl hn
  | put frame =>
    cases frame with
    | ack ack => exact absurd hn (by simp [SdkAct.own])
    | result m r =>
      obtain rfl := Option.some.inj hn
      obtain ⟨frame, rfl, -⟩ := hok
      cases b <;> exact .inl rfl
  | awaitRoom who frame =>
    cases frame with
    | ack ack => exact absurd hn (by simp [SdkAct.own])
    | result m r =>
      obtain rfl := Option.some.inj hn
      obtain ⟨frame, rfl, -⟩ := hok
      cases b <;> exact .inl rfl
  | begin m =>
    obtain rfl := Option.some.inj hn
    obtain ⟨frame, rfl⟩ := hok
    obtain rfl : b = true := hans
    exact .inl rfl
  | handler m _ | finish m _ =>
    obtain rfl := Option.some.inj hn
    obtain ⟨frame, rfl⟩ := hok
    exact .inl rfl
  | exit m =>
    obtain rfl := Option.some.inj hn
    exact .inr ⟨hok, (Prod.mk.inj (Option.some.inj he)).1.symm⟩
  | _ => exact absurd hn (by simp [SdkAct.own])

/-- What the others know stays true. -/
theorem Holds.others (hinv : SdkInv s log) (hq : q.Holds i s log) (hok : q.ok a)
    (he : a.exec e s = some (s', b)) (hj : j ≠ i) (hq' : q'.Holds j s log) :
    q'.Holds j s' (log ++ [(i, ⟨a, b⟩)]) := by
  refine hq'.keep fun n hn => Undisturbed.exec he fun hown => ?_
  have hacc := hq'.accepts hn
  obtain habout | ⟨-, hlen⟩ := about_of_own hok hown
  · exact hj (hinv.unique j i n hacc (hq.accepts habout))
  · exact absurd (SdkState.status_ne_none.1 (hinv.accepted j n hacc)) (by omega)

/-- What an action that is about no NewTask teaches. -/
theorem next_of_own (hn : a.own s = none) : q.next a b = q := by
  cases a with
  | put frame =>
    cases frame with
    | ack ack => cases b <;> rfl
    | result m r => exact absurd hn (by simp [SdkAct.own])
  | awaitRoom who frame =>
    cases frame with
    | ack ack => cases b <;> rfl
    | result m r => exact absurd hn (by simp [SdkAct.own])
  | accept | begin | handler | finish | exit => exact absurd hn (by simp [SdkAct.own])
  | _ => rfl

/-- The Result goes out. -/
theorem Holds.sent {fr : NewTaskFrame} {r : ResultFrame} (hq : (cleaned n fr).Holds i s log)
    (hr : r.taskId = fr.taskId.getD "") :
    (answered n).Holds i { s with sent := s.sent ++ [.result n r] } (log ++ [(j, y)]) := by
  obtain ⟨⟨f, hacc⟩, hs, hres, hc⟩ := hq
  refine ⟨⟨f, List.mem_append_left _ hacc⟩,
    ⟨hc.active, hc.tracked, hc.pending, hc.subscribers⟩, fr, r, hs, ?_, hr⟩
  rw [SdkState.resultsOf_append, hres]
  simp

/-- **What a coroutine knows of its NewTask is true.** -/
theorem Holds.next (hinv : SdkInv s log) (hq : q.Holds i s log) (hok : q.ok a)
    (hc : s.careful a e = true) (he : a.exec e s = some (s', b)) :
    ans a b ∧ (q.next a b).Holds i s' (log ++ [(i, ⟨a, b⟩)]) := by
  have hown : a.own s = none → (q.next a b).Holds i s' (log ++ [(i, ⟨a, b⟩)]) := fun hn => by
    rw [next_of_own hn]
    exact hq.keep fun n _ => .exec he (by simp [hn])
  cases a with
  | accept fr =>
    obtain ⟨rfl, rfl⟩ := Prod.mk.inj (Option.some.inj he)
    refine ⟨trivial, ⟨fr, by simp⟩, ?_, ?_⟩
    · simp [SdkState.status]
    · refine (hinv.fresh s.tasks.length ?_ :)
      simp [SdkState.status]
  | put fr =>
    refine ⟨trivial, ?_⟩
    cases fr with
    | ack ack => exact hown rfl
    | result m r =>
      obtain ⟨fr, rfl, hr⟩ := hok
      simp only [SdkAct.exec] at he
      split_ifs at he
      · obtain ⟨rfl, rfl⟩ := Prod.mk.inj (Option.some.inj he)
        exact hq.keep fun n _ => .refl s
      · obtain ⟨rfl, rfl⟩ := Prod.mk.inj (Option.some.inj he)
        exact hq.sent hr
  | awaitRoom who fr =>
    simp only [SdkAct.exec] at he
    cases fr with
    | ack ack =>
      refine ⟨?_, hown rfl⟩
      cases who with
      | none => trivial
      | some m =>
        have hm : s.struck m = false := by simpa [SdkState.careful] using hc
        simp only [Option.elim_some, hm, Bool.false_eq_true, if_false] at he
        split_ifs at he
        exact (Prod.mk.inj (Option.some.inj he)).2.symm
    | result m r =>
      obtain ⟨fr, rfl, hr⟩ := hok
      cases who with
      | none =>
        refine ⟨trivial, ?_⟩
        split_ifs at he
        · obtain ⟨rfl, rfl⟩ := Prod.mk.inj (Option.some.inj he)
          exact hq.keep fun n _ => .refl s
        · obtain ⟨rfl, rfl⟩ := Prod.mk.inj (Option.some.inj he)
          exact hq.sent hr
      | some w =>
        -- whoever is struck does not wait for room
        have hw : s.struck w = false := by simpa [SdkState.careful] using hc
        simp only [Option.elim_some, hw, Bool.false_eq_true, if_false] at he
        split_ifs at he
        obtain ⟨rfl, rfl⟩ := Prod.mk.inj (Option.some.inj he)
        exact ⟨rfl, hq.sent hr⟩
  | begin m =>
    obtain ⟨fr, rfl⟩ := hok
    have hm : s.struck m = false := by simpa [SdkState.careful] using hc
    simp only [SdkAct.exec, hm, Bool.false_eq_true, if_false] at he
    obtain ⟨rfl, rfl⟩ := Prod.mk.inj (Option.some.inj he)
    exact ⟨rfl, hq.keep (q := .running m fr) fun n _ => .refl s⟩
  | handler m act =>
    obtain ⟨fr, rfl⟩ := hok
    obtain ⟨⟨f, hacc⟩, hs, hres⟩ := hq
    obtain ⟨rfl, -⟩ := Prod.mk.inj (Option.some.inj he)
    exact ⟨trivial, ⟨f, List.mem_append_left _ hacc⟩, (HandlerAct.status_exec act).trans hs,
      (HandlerAct.resultsOf_exec act).trans hres⟩
  | finish m ended =>
    obtain ⟨fr, rfl⟩ := hok
    obtain ⟨⟨f, hacc⟩, hs, hres⟩ := hq
    have hm : m < s.tasks.length := SdkState.status_ne_none.1 (by simp [hs])
    have hu : Undisturbed s s' m := .finish he
    refine ⟨?_, ⟨f, List.mem_append_left _ hacc⟩, hu.status.trans hs, hu.results.trans hres,
      hinv.wf.cleared_finish hm hc he⟩
    simp only [SdkState.careful, Bool.and_eq_true] at hc
    exact hc.1
  | exit m => exact ⟨trivial, trivial⟩
  | _ => exact ⟨trivial, hown rfl⟩

end AnswerPhase

namespace SdkInv

variable {log : Log SdkAct} {i : ℕ} {q : AnswerPhase}

/-- Who has accepted what after an action. -/
theorem accepts_append {y : Event SdkAct} {j : ℕ} (h : Accepts (log ++ [(i, y)]) j n) :
    Accepts log j n ∨ j = i ∧ ∃ fr, y = ⟨.accept fr, n⟩ := by
  obtain ⟨fr, hmem⟩ := h
  obtain hmem | hmem := List.mem_append.1 hmem
  · exact .inl ⟨fr, hmem⟩
  · obtain ⟨rfl, rfl⟩ := Prod.mk.inj (List.mem_singleton.1 hmem)
    exact .inr ⟨rfl, fr, rfl⟩

/-- What an action does to the NewTask that it is about. -/
theorem own_exec (hinv : SdkInv s log) (hq : q.Holds i s log) (hok : q.ok a)
    (hc : s.careful a e = true) (he : a.exec e s = some (s', b)) (hown : a.own s = some n) :
    s'.status n ≠ none ∧ s'.Answered n := by
  obtain ⟨hans, hnext⟩ := hq.next hinv hok hc he
  obtain habout | ⟨rfl, rfl⟩ := AnswerPhase.about_next hok hown he hans
  · obtain ⟨fr, hfr⟩ := hnext.status habout
    exact ⟨by simp [hfr], hnext.answeredSoFar habout⟩
  · -- the asyncio task is done: it has been answered and cleaned up after
    obtain ⟨-, hcleared, fr, r, hs, hr, hid⟩ := hq
    have hstatus : (s.setTask n fun task => { task with done := true }).status n =
        some (fr, true) := by
      rw [SdkState.status_setTask_done, if_pos rfl, hs]
      rfl
    refine ⟨by simp [hstatus], (congrArg List.length hr).le, fun fr' hd => ⟨⟨r, hr, ?_⟩,
      ⟨hcleared.active, hcleared.tracked, hcleared.pending, hcleared.subscribers⟩⟩⟩
    obtain ⟨rfl, -⟩ := Prod.mk.inj (Option.some.inj (hstatus.symm.trans hd))
    exact hid

/-- **Every action keeps the invariant.** -/
theorem exec (hinv : SdkInv s log) (hq : q.Holds i s log) (hok : q.ok a)
    (hc : s.careful a e = true) (he : a.exec e s = some (s', b)) :
    SdkInv s' (log ++ [(i, ⟨a, b⟩)]) := by
  have hown : ∀ n, a.own s = some n → s'.status n ≠ none ∧ s'.Answered n := fun n =>
    hinv.own_exec hq hok hc he
  have hkept : ∀ n, s.status n ≠ none → s'.status n ≠ none := fun n hn => by
    by_cases h : a.own s = some n
    · exact (hown n h).1
    · rwa [(Undisturbed.exec he h).status]
  have hnew : ∀ j n, Accepts (log ++ [(i, ⟨a, b⟩)]) j n →
      Accepts log j n ∨ j = i ∧ a.own s = some n ∧ s.status n = none := by
    intro j n h
    refine (accepts_append h).imp_right fun ⟨hj, fr, hy⟩ => ⟨hj, ?_⟩
    obtain ⟨rfl, ha, hb⟩ := Event.mk.inj hy
    obtain rfl := eq_of_heq ha
    obtain rfl := eq_of_heq hb
    obtain ⟨-, rfl⟩ := Prod.mk.inj (Option.some.inj he)
    exact ⟨rfl, by simp [SdkState.status]⟩
  refine ⟨hinv.wf.exec hc he fun n hn => SdkState.status_ne_none.1 (hown n hn).1,
    fun j n h => ?_, fun j k n hj hk => ?_, fun n hn => ?_, fun n => ?_⟩
  · obtain h | ⟨-, h, -⟩ := hnew j n h
    · exact hkept n (hinv.accepted j n h)
    · exact (hown n h).1
  · obtain hj | ⟨hji, -, hj⟩ := hnew j n hj
    · obtain hk | ⟨-, -, hk⟩ := hnew k n hk
      · exact hinv.unique j k n hj hk
      · exact absurd hk (hinv.accepted j n hj)
    · obtain hk | ⟨hki, -, -⟩ := hnew k n hk
      · exact absurd hj (hinv.accepted k n hk)
      · exact hji.trans hki.symm
  · have h : a.own s ≠ some n := fun h => (hown n h).1 hn
    have hu := Undisturbed.exec he h
    exact hu.results.trans (hinv.fresh n (hu.status ▸ hn))
  · by_cases h : a.own s = some n
    · exact (hown n h).2
    · exact (hinv.answered n).of_undisturbed (.exec he h)

end SdkInv

variable {agent : SdkAgent} {size : ℕ} {P : Pool SdkAct SdkState SdkCall Unit}

theorem sound_answerWork (agent : SdkAgent) (size : ℕ) :
    Sound (agentLoop agent) careful answerWork (fun _ => .fresh) { outboxSize := size } SdkInv
      (fun i _ q s log => q.Holds i s log) where
  init := by
    refine ⟨⟨fun n hn => absurd hn (by simp), fun t x hx => absurd hx (by simp),
      fun k n hk => absurd hk (by simp), fun c n hc => absurd hc (by simp)⟩,
      fun i n ⟨fr, h⟩ => absurd h (by simp), fun i j n ⟨fr, h⟩ => absurd h (by simp),
      fun n _ => rfl, fun n => ⟨Nat.zero_le _, fun fr h => absurd h (by simp [SdkState.status])⟩⟩
  start _ _ _ := trivial
  step _ _ hg he hinv hq hok := by
    obtain ⟨hans, hnext⟩ := hq.next hinv hok hg he
    exact ⟨hans, hinv.exec hq hok hg he, hnext⟩
  frame _ _ _ he hinv hq hok _ _ _ hj hq' := AnswerPhase.Holds.others hinv hq hok he hj hq'

/-- **An accepted NewTask is answered once, and leaves nothing behind**, whatever its handler does,
as long as its asyncio task is cancelled neither before its first step nor while its Result waits for
room, the handler's end can be reported and leaves no open stream, and no key is registered again
while the last answer to it is being noted. -/
theorem tasks_answered (h : Run (agentLoop agent) careful (.init { outboxSize := size }) P) :
    TasksAnswered P.shared := by
  have hinv := ((sound_answerWork agent size).of_run answerWork_body h).1
  have hdone : ∀ (n : ℕ) (task : HandlerTask), P.shared.tasks[n]? = some task → task.done = true →
      P.shared.status n = some (task.frame, true) := fun n task ht hd => by
    rw [SdkState.status, ht, Option.map_some, hd]
  exact ⟨fun n => (hinv.answered n).once,
    fun n task ht hd => ((hinv.answered n).done _ (hdone n task ht hd)).1,
    fun n task ht hd => ((hinv.answered n).done _ (hdone n task ht hd)).2⟩

end

/-! ### An agent to run -/

namespace Sample

/-- An agent whose handler awaits the Result of a child, streams its progress, and returns. -/
def echoAgent : SdkAgent where
  agentId := "b"
  handlersByMode := [("default", {
    validate := fun _ => .ok ()
    fn := fun _ => do
      perform (.register (.result "child"))
      perform (.openStream "child")
      let _ ← perform .suspend
      perform (.closeStream "child")
      pure (.returned (.text (some "done"))) })]

/-- A NewTask as the router delivers it. -/
def delivered : NewTaskFrame where
  header := .router
  taskId := some "t"
  destinationAgentId := "b"
  userId := "u"
  sessionId := "s"

/-- The NewTask is accepted and its handler is about to begin. -/
def aboutToBegin : List (Move SdkEnv SdkCall) :=
  .start (.newTask "c" delivered) :: List.replicate 4 (.step 0 {})

end Sample

/-- A task from its acceptance to its end. -/
theorem tasks_answered_echo : ∃ P, (agentLoop Sample.echoAgent).run
      (fun P _ _ a e => P.shared.careful a e) (.init { outboxSize := 8 })
      (Sample.aboutToBegin ++ List.replicate 10 (.step 0 {})) = some P ∧
    (P.shared.tasks.map HandlerTask.done = [true] ∧ (P.shared.resultsOf 0).length = 1) ∧
    TasksAnswered P.shared := by
  have hplay : ((agentLoop Sample.echoAgent).run
      (fun P _ _ a e => P.shared.careful a e) (.init { outboxSize := 8 })
      (Sample.aboutToBegin ++ List.replicate 10 (.step 0 {}))).map (fun P =>
        (P.shared.tasks.map HandlerTask.done, (P.shared.resultsOf 0).length)) =
      some ([true], 1) := by
    decide +kernel
  obtain ⟨P, hP, h⟩ := Option.map_eq_some_iff.1 hplay
  exact ⟨P, hP, Prod.mk.inj h, tasks_answered
    (Run.of_run (fun _ _ => trivial) (fun _ _ _ _ _ hc => hc) hP)⟩

/-- The asyncio task is cancelled before its first step: it is done and has not been answered. -/
theorem task_unanswered : ¬ ∀ (agent : SdkAgent) (size : ℕ)
    (P : Pool SdkAct SdkState SdkCall Unit),
    Run (agentLoop agent) .free (.init { outboxSize := size }) P → TasksAnswered P.shared := by
  intro hall
  have hplay : ((agentLoop Sample.echoAgent).run (fun _ _ _ _ _ => true) (.init { outboxSize := 8 })
      (Sample.aboutToBegin ++ [.start (.cancelTask 0), .step 1 {}, .step 0 {}])).map (fun P =>
        ((P.shared.tasks[0]?).map HandlerTask.done, P.shared.resultsOf 0)) =
      some (some true, []) := by
    decide +kernel
  obtain ⟨P, hP, h⟩ := Option.map_eq_some_iff.1 hplay
  obtain ⟨hdone, hnone⟩ := Prod.mk.inj h
  obtain ⟨task, ht, hd⟩ := Option.map_eq_some_iff.1 hdone
  obtain ⟨r, hr, -⟩ := (hall Sample.echoAgent 8 P
    (Run.of_run (fun _ _ => trivial) (fun _ _ _ _ _ _ => trivial) hP)).answered 0 task ht hd
  rw [hnone] at hr
  exact absurd hr (by simp)

end Backplane
