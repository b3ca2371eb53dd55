import Backplane.Router.System

/-!
# Which actions each program performs

* `Act.tag` : the action without its arguments.
* `Tag` lists for the families of programs, and one lemma for each program: it performs only
  actions whose tag is in its list, whatever answers it gets.

A discipline that restricts only a few tags is kept by every program that does not use them.
-/

namespace Backplane

open Concur Prog

/-- The actions without their arguments; transitions are told apart by their target. -/
inductive Tag
  | read | env | fault | sessionLevel | countTaskChainDepth | createTask
  | transition (new : TaskState) | complete | forceFailTask | delegationPhaseA | delegationPhaseC
  | userOf | getTask | findExpiredTasks | listDescendants | inflightOf | agentOf | closingView
  | closeSession | reopenSession | openSession | allocateName | notifyTaskTerminal
  | cacheCallerAgent | deliver | deliverAwait | awaitAck | put | settle | reap | sendNext | attach
  | markClosed | detach | expireResume | finalised
  deriving DecidableEq

/-- The tag of an action. -/
def Act.tag : {β : Type} → Act β → Tag
  | _, read _ => .read
  | _, env _ => .env
  | _, fault => .fault
  | _, sessionLevel _ => .sessionLevel
  | _, countTaskChainDepth _ _ => .countTaskChainDepth
  | _, createTask _ _ _ => .createTask
  | _, transition _ new _ => .transition new
  | _, complete _ _ => .complete
  | _, forceFailTask _ _ _ _ => .forceFailTask
  | _, delegationPhaseA _ _ _ => .delegationPhaseA
  | _, delegationPhaseC _ _ _ => .delegationPhaseC
  | _, userOf _ => .userOf
  | _, getTask _ _ => .getTask
  | _, findExpiredTasks _ _ => .findExpiredTasks
  | _, listDescendants _ _ => .listDescendants
  | _, inflightOf _ => .inflightOf
  | _, agentOf _ => .agentOf
  | _, closingView _ _ => .closingView
  | _, closeSession _ _ => .closeSession
  | _, reopenSession _ _ => .reopenSession
  | _, openSession _ => .openSession
  | _, allocateName _ _ _ _ _ => .allocateName
  | _, notifyTaskTerminal _ => .notifyTaskTerminal
  | _, cacheCallerAgent _ _ _ => .cacheCallerAgent
  | _, deliver _ _ => .deliver
  | _, deliverAwait _ _ => .deliverAwait
  | _, awaitAck _ => .awaitAck
  | _, put _ _ => .put
  | _, settle _ _ _ => .settle
  | _, reap => .reap
  | _, sendNext _ => .sendNext
  | _, attach _ _ => .attach
  | _, markClosed _ => .markClosed
  | _, detach _ => .detach
  | _, expireResume _ _ => .expireResume
  | _, finalised _ => .finalised

/-- Events of actions with different tags differ. -/
theorem ne_of_tag {x y : Event Act} (h : x.act.tag ≠ y.act.tag) : x ≠ y :=
  fun he => h (congrArg (fun x : Event Act => x.act.tag) he)

/-- Cancelling the tasks of a list. -/
def fanOutTags : List Tag := [.transition .cancelled, .notifyTaskTerminal, .deliver]

/-- Cancelling a task and its descendants. -/
def cancelTags : List Tag := .listDescendants :: fanOutTags

/-- Failing a task. -/
def failTags : List Tag :=
  [.userOf, .transition .failed, .transition .timedOut, .agentOf] ++ cancelTags

/-- The checks of an admission. -/
def checkTags : List Tag := [.read, .env, .sessionLevel, .countTaskChainDepth]

/-- Handing a frame over. -/
def handoverTags : List Tag := [.deliverAwait, .awaitAck]

/-- Compensating a failed hand-over. -/
def safeFailTags : List Tag := [.fault, .forceFailTask] ++ failTags

/-- Dispatching a task that was created. -/
def dispatchTags : List Tag := .transition .running :: handoverTags ++ safeFailTags

/-- Everything after the checks of a spawn. -/
def spawnTags : List Tag :=
  [.read, .env, .createTask, .cacheCallerAgent, .transition .running] ++ handoverTags ++ safeFailTags

/-- A delegation. -/
def delegateTags : List Tag :=
  [.delegationPhaseA, .delegationPhaseC] ++ checkTags ++ handoverTags

/-- An admission. -/
def admitTags : List Tag := delegateTags ++ spawnTags

/-- Storing a name. -/
def storeTags : List Tag := [.read, .sessionLevel, .allocateName]

/-- Any inbound frame. -/
def frameTags : List Tag :=
  [.put, .settle, .complete] ++ storeTags ++ admitTags

section

variable {α β ε : Type} {T T' : List Tag} {p : Coroutine α} {Q : Type} {D : Discipline Act Q}
  {I : Q → Prop}

/-- `p` uses only actions with a tag in `T`. -/
abbrev Uses (p : Coroutine α) (T : List Tag) : Prop := p.Only fun a => a.tag ∈ T

theorem Uses.mono (h : Uses p T) (hT : T ⊆ T') : Uses p T' :=
  Only.mono h fun _ ha => hT ha

theorem uses_perform {a : Act α} (h : decide (a.tag ∈ T) = true) : Uses (perform a) T :=
  only_perform.2 (of_decide_eq_true h)

theorem Uses.bind {f : α → Coroutine β} (hp : Uses p T) (hf : ∀ a, Uses (f a) T) :
    Uses (p >>= f) T := Only.bind hp hf

theorem uses_lift (h : Uses p T) : Uses (ExceptT.lift p : Raising ε α).run T :=
  h.bind fun _ => trivial

theorem uses_call {a : Act α} (h : decide (a.tag ∈ T) = true) : Uses (call a : Raising ε α).run T :=
  uses_lift (uses_perform h)

theorem uses_except_bind {x : Raising ε α} {f : α → Raising ε β} (hx : Uses x.run T)
    (hf : ∀ a, Uses (f a).run T) : Uses (x >>= f).run T := by
  rw [ExceptT.run_bind]
  refine hx.bind fun r => ?_
  cases r with
  | ok a => exact hf a
  | error e => trivial

theorem obeys_call_bind {a : Act α} {f : α → Raising ε β} {q : Q} {fin : Q → Except ε β → Prop} :
    D.Obeys q (call a >>= f).run fin ↔
      D.ok q a ∧ ∀ b, D.ans a b → D.Obeys (D.next q a b) (f b).run fin := Iff.rfl

/-- A program keeps what every action with one of its tags keeps. -/
theorem Uses.keeps (h : Uses p T) (hT : ∀ {β : Type} (a : Act β), a.tag ∈ T → D.Safe I a) :
    D.Keeps I p :=
  .of_only (Only.mono h hT)

end

section

variable {t : TaskId} {u : UserId} {a b : AgentId} {f : ResultFrame}

theorem uses_deliverQuietly (dst : AgentId) (m : Frame) :
    Uses (deliverQuietly dst m) [.deliver] :=
  (uses_perform rfl).bind fun _ => trivial

theorem uses_completeTask : Uses (completeTask f a) [.complete, .notifyTaskTerminal, .deliver] := by
  refine (uses_perform rfl).bind fun out => ?_
  cases out with
  | done prev row =>
    exact (uses_perform rfl).bind fun _ =>
      (uses_deliverQuietly _ _).mono (by decide)
  | _ => trivial

theorem uses_cancelOne (reason initiator : String) (t : TaskId) :
    Uses (cancelOne reason initiator t) fanOutTags := by
  refine (uses_perform rfl).bind fun out => ?_
  cases out with
  | done prev row => exact (uses_perform rfl).bind fun _ => trivial
  | _ => trivial

theorem uses_fanOutCancelled (reason : String) (row : TaskRow) :
    Uses (fanOutCancelled reason row) [.deliver] :=
  (uses_deliverQuietly _ _).bind fun _ => uses_deliverQuietly _ _

theorem uses_cancelAll (reason initiator : String) (ts : List TaskId) :
    Uses (cancelAll reason initiator ts) fanOutTags :=
  (only_collect (uses_cancelOne reason initiator) _).bind fun _ =>
    (only_each (fun row => (uses_fanOutCancelled reason row).mono (by decide)) _).bind
      fun _ => trivial

theorem uses_cancelTask (t : TaskId) (u : UserId) (reason initiator : String) :
    Uses (cancelTask t u reason initiator) cancelTags :=
  (uses_perform rfl).bind fun _ => (uses_cancelAll reason initiator _).mono (by decide)

theorem uses_cancelSubtree (t : TaskId) (u : UserId) (reason : String) :
    Uses (cancelSubtree t u reason) cancelTags :=
  (uses_perform rfl).bind fun _ =>
    ((uses_cancelAll reason "router" _).mono (by decide)).bind fun _ => trivial

theorem uses_notifyParentOwner (row : TaskRow) (x : Failure) :
    Uses (notifyParentOwner row x) [.agentOf, .deliver] := by
  unfold notifyParentOwner
  cases row.parentTaskId with
  | none => trivial
  | some p =>
    refine (uses_perform rfl).bind fun owner => ?_
    cases owner with
    | none => trivial
    | some o => exact (uses_deliverQuietly _ _).mono (by decide)

theorem uses_failOwned (t : TaskId) (u : UserId) (x : Failure) :
    Uses (failOwned t u x) failTags := by
  refine (uses_perform (by cases x.terminalState <;> rfl)).bind fun out => ?_
  cases out with
  | done prev row =>
    exact (uses_perform rfl).bind fun _ =>
      ((uses_cancelSubtree _ _ _).mono (by decide)).bind fun _ =>
      (uses_notifyParentOwner _ _).mono (by decide)
  | _ => trivial

theorem uses_failTask (t : TaskId) (u : Option UserId) (x : Failure) :
    Uses (failTask t u x) failTags := by
  cases u with
  | some u => exact uses_failOwned t u x
  | none =>
    refine (uses_perform rfl).bind ?_
    rintro (_ | u)
    · trivial
    · exact uses_failOwned t u x

theorem uses_failInflightForAgent (a : AgentId) (reason : String) :
    Uses (failInflightForAgent a reason) (.inflightOf :: failTags) :=
  (uses_perform rfl).bind fun _ =>
    (only_each (fun _ => (uses_failTask _ _ _).mono (by decide)) _).bind fun _ => trivial

theorem uses_sweepOnce : Uses sweepOnce ([.env, .findExpiredTasks] ++ failTags) :=
  (uses_perform rfl).bind fun _ => (uses_perform rfl).bind fun _ =>
    (only_each (fun _ => (uses_failTask _ _ _).mono (by decide)) _).bind fun _ => trivial

theorem uses_safeFail (t : TaskId) (u : UserId) (code : ℕ) (reason : String) (error : Json) :
    Uses (safeFail t u code reason error) safeFailTags := by
  refine Uses.bind (((uses_failTask _ _ _).mono (by decide)).interruptible (by decide))
    fun out => ?_
  cases out with
  | some _ => trivial
  | none =>
    refine (uses_perform rfl).bind fun hit => ?_
    cases hit with
    | true => trivial
    | false => exact (uses_perform rfl).bind fun _ => trivial

end

/-! ### Admissions -/

section

variable {cfg : Config} {f : NewTaskFrame} {a : AgentId} {t : TaskId}

theorem uses_deliverFrame (dst : AgentId) (m : Frame) :
    Uses (deliverFrame dst m) handoverTags := by
  refine (uses_perform rfl).bind fun out => ?_
  rcases out with (_ | _ | _) | ticket
  · trivial
  · trivial
  · trivial
  · refine (uses_perform rfl).bind fun v => ?_
    cases v <;> trivial

theorem uses_lookupAgents (a b : AgentId) : Uses (lookupAgents a b).run checkTags := by
  refine uses_except_bind (uses_call rfl) ?_
  rintro ⟨_ | _, _ | _⟩ <;> try trivial
  dsimp only
  split_ifs <;> trivial

theorem uses_requireLevel : Uses (requireLevel f).run checkTags := by
  refine uses_except_bind (uses_call rfl) ?_
  rintro (_ | _) <;> trivial

theorem uses_requireAllowed (verb : String) (c d : AgentRow) (l : String) :
    Uses (requireAllowed verb f a c d l).run checkTags := by
  refine uses_except_bind (uses_call rfl) fun d => ?_
  split_ifs <;> trivial

theorem uses_requireOpenSession : Uses (requireOpenSession f).run checkTags := by
  refine uses_except_bind (uses_call rfl) ?_
  rintro (_ | _)
  · trivial
  · dsimp only
    split_ifs <;> trivial

theorem uses_requireQuota (l : String) : Uses (requireQuota cfg l).run checkTags := by
  unfold requireQuota
  split_ifs
  · refine uses_except_bind (uses_call rfl) ?_
    rintro (_ | _) <;> trivial
  · trivial

theorem uses_requireSpawnDepth : Uses (requireSpawnDepth cfg f).run checkTags := by
  unfold requireSpawnDepth
  split
  · trivial
  · refine uses_except_bind (uses_call rfl) fun d => ?_
    split_ifs <;> trivial

theorem uses_preflight : Uses (preflight cfg f a).run checkTags := by
  refine uses_except_bind (uses_lookupAgents _ _) ?_
  rintro ⟨c, d⟩
  dsimp only
  split
  · trivial
  · exact uses_except_bind uses_requireLevel fun l =>
      uses_except_bind uses_requireOpenSession fun _ =>
      uses_except_bind (uses_requireAllowed _ _ _ _) fun _ =>
      uses_except_bind (uses_requireQuota _) fun _ =>
      uses_except_bind uses_requireSpawnDepth fun _ => trivial

theorem uses_admitDelegation : Uses (admitDelegation f t a).run delegateTags := by
  refine uses_except_bind ((uses_lookupAgents _ _).mono (by decide)) ?_
  rintro ⟨c, d⟩
  refine uses_except_bind (uses_requireLevel.mono (by decide)) fun l => ?_
  refine uses_except_bind ((uses_requireAllowed _ _ _ _).mono (by decide)) fun _ => ?_
  refine uses_except_bind (uses_call rfl) ?_
  rintro (e | plan)
  · trivial
  refine uses_except_bind (uses_lift ((uses_deliverFrame _ _).mono (by decide))) fun out => ?_
  rcases out with (_ | _ | _ | _) | m
  iterate 4 trivial
  cases m with
  | ack ack =>
    dsimp only
    split_ifs
    · trivial
    · refine uses_except_bind (uses_call rfl) ?_
      rintro (_ | _) <;> trivial
  | _ => trivial

theorem uses_dispatchTask (row : TaskRow) (l : String) :
    Uses (dispatchTask f row l).run dispatchTags := by
  refine uses_except_bind (uses_lift ((uses_deliverFrame _ _).mono (by decide))) fun out => ?_
  have hsafe : ∀ code reason error,
      Uses (ExceptT.lift (safeFail row.taskId f.userId code reason error) : Raising Exn Unit).run
        dispatchTags :=
    fun _ _ _ => uses_lift ((uses_safeFail _ _ _ _ _).mono (by decide))
  rcases out with (_ | _ | _ | _) | m
  · exact uses_except_bind (hsafe _ _ _) fun _ => trivial
  · trivial
  · exact uses_except_bind (hsafe _ _ _) fun _ => trivial
  · trivial
  cases m with
  | ack ack =>
    dsimp only
    split_ifs
    · exact uses_except_bind (hsafe _ _ _) fun _ => trivial
    · exact uses_except_bind (uses_call rfl) fun _ => trivial
  | _ => trivial

theorem uses_createAndDispatch (l : String) : Uses (createAndDispatch cfg f a l).run spawnTags := by
  refine uses_except_bind (uses_call rfl) fun now => ?_
  refine uses_except_bind (uses_call rfl) fun out => ?_
  cases out with
  | refused e => trivial
  | checkViolation => trivial
  | uniqueViolation =>
    refine uses_except_bind (uses_call rfl) ?_
    rintro (_ | _) <;> trivial
  | created row =>
    exact uses_except_bind (uses_call rfl) fun _ => (uses_dispatchTask _ _).mono (by decide)

theorem uses_joinExisting : Uses (joinExisting f a).run [.read] := by
  unfold joinExisting
  split
  · trivial
  · exact uses_call rfl

theorem uses_admitTask : Uses (admitTask cfg f a).run admitTags := by
  unfold admitTask
  split
  · exact uses_except_bind (uses_admitDelegation.mono (by decide)) fun _ => trivial
  · refine uses_except_bind (uses_joinExisting.mono (by decide)) ?_
    rintro (_ | r)
    · exact uses_except_bind (uses_preflight.mono (by decide)) fun l =>
        (uses_createAndDispatch l).mono (by decide)
    · trivial

end

/-! ### Handlers and calls -/

section

variable {cfg : Config} {k : SocketId} {a : AgentId} {cid : CorrelationId}

theorem uses_putAck (h : Header) (acc : Bool) (r : Option String) (t : Option TaskId) :
    Uses (putAck k h cid acc r t) [.put] := by
  unfold putAck
  split
  · trivial
  · exact (uses_perform rfl).bind fun _ => trivial

theorem uses_answerNewTask (f : NewTaskFrame) (r : Except Exn AdmitResult) :
    Uses (answerNewTask k cid f r) [.put] := by
  unfold answerNewTask
  split
  · exact (uses_putAck _ _ _ _).bind fun _ => trivial
  · exact (uses_putAck _ _ _ _).bind fun _ => trivial
  · refine (uses_putAck _ _ _ _).bind fun b => ?_
    split_ifs
    · split
      · exact uses_perform rfl
      · trivial
    · trivial

theorem uses_handleNewTask (f : NewTaskFrame) :
    Uses (handleNewTask cfg k a cid f) (.put :: admitTags) :=
  Uses.bind (uses_admitTask.mono (by decide)) fun r => (uses_answerNewTask f r).mono (by decide)

theorem uses_handleResult (f : ResultFrame) :
    Uses (handleResult k a cid f) [.put, .complete, .notifyTaskTerminal, .deliver] :=
  (uses_completeTask.mono (by decide)).bind fun _ =>
    ((uses_putAck _ _ _ _).mono (by decide)).bind fun _ => trivial

theorem uses_progressTarget (t : TaskId) :
    Uses (progressTarget t) [.read, .cacheCallerAgent] := by
  refine (uses_perform rfl).bind ?_
  rintro (_ | p)
  · refine (uses_perform rfl).bind ?_
    rintro (_ | row)
    · trivial
    · dsimp only
      split_ifs
      · trivial
      · exact (uses_perform rfl).bind fun _ => trivial
  · trivial

theorem uses_handleProgress (f : ProgressFrame) :
    Uses (handleProgress a f) [.read, .cacheCallerAgent, .deliver] := by
  refine ((uses_progressTarget f.taskId).mono (by decide)).bind ?_
  rintro (_ | p)
  · trivial
  · dsimp only
    split_ifs
    · trivial
    · exact (uses_deliverQuietly _ _).mono (by decide)

theorem uses_handleCancel (f : CancelFrame) :
    Uses (handleCancel a f) ([.userOf, .read] ++ cancelTags) := by
  unfold handleCancel
  split
  · trivial
  · trivial
  · refine (uses_perform rfl).bind ?_
    rintro (_ | u)
    · trivial
    · refine (uses_perform rfl).bind fun ok => ?_
      split_ifs
      · exact ((uses_cancelTask _ _ _ _).mono (by decide)).bind fun _ => trivial
      · trivial

theorem uses_quotaOk (u : UserId) (n : ℕ) : Uses (quotaOk cfg u n) storeTags := by
  unfold quotaOk
  split_ifs
  · trivial
  · refine (uses_perform rfl).bind fun l => ?_
    split
    · trivial
    · exact (uses_perform rfl).bind fun _ => trivial

theorem uses_storeName (f : FileStoreFrame) : Uses (storeName cfg a f) storeTags := by
  refine (uses_perform rfl).bind ?_
  rintro (_ | ⟨u, x⟩)
  · trivial
  refine (uses_perform rfl).bind ?_
  rintro (_ | blob)
  · trivial
  dsimp only
  split_ifs
  · trivial
  refine (uses_perform rfl).bind fun e => (uses_quotaOk _ _).bind fun ok => ?_
  split_ifs
  · refine (uses_perform rfl).bind fun r => ?_
    cases r <;> trivial
  · trivial

theorem uses_handleFileStore (f : FileStoreFrame) :
    Uses (handleFileStore cfg k a cid f) (.put :: storeTags) := by
  refine ((uses_storeName f).mono (by decide)).bind fun r => ?_
  cases r <;> exact uses_perform rfl

theorem uses_dispatchFrame (m : Envelope) : Uses (dispatchFrame cfg k a m) frameTags := by
  unfold dispatchFrame
  split
  · exact (uses_handleNewTask _).mono (by decide)
  · exact (uses_handleResult _).mono (by decide)
  · exact (uses_handleProgress _).mono (by decide)
  · exact (uses_handleCancel _).mono (by decide)
  · exact uses_perform rfl
  · exact uses_perform rfl
  · exact uses_perform rfl
  · exact (uses_handleFileStore _).mono (by decide)
  · trivial

theorem uses_handshake (tok : Option String) :
    Uses (handshake a tok) [.read, .attach, .markClosed] := by
  refine (uses_perform rfl).bind ?_
  rintro (_ | row)
  · trivial
  dsimp only
  split_ifs
  · trivial
  · refine (uses_perform rfl).bind ?_
    rintro ⟨_, _ | k⟩
    · trivial
    · exact uses_perform rfl

theorem uses_onDisconnect : Uses (onDisconnect k) [.markClosed, .detach] :=
  (uses_perform rfl).bind fun _ => (uses_perform rfl).bind fun _ => trivial

theorem uses_resumeWindowExpiry :
    Uses (resumeWindowExpiry k a) ([.expireResume, .finalised, .inflightOf] ++ failTags) := by
  refine (uses_perform rfl).bind fun ok => ?_
  split_ifs
  · exact ((uses_failInflightForAgent _ _).mono (by decide)).bind fun _ =>
      uses_perform rfl
  · trivial

theorem uses_closeSession (u : UserId) (x : SessionId) :
    Uses (closeSession u x) ([.closingView, .closeSession] ++ cancelTags) := by
  refine (uses_perform rfl).bind ?_
  rintro (_ | ⟨closed, rows⟩)
  · trivial
  refine Uses.bind (only_each (fun _ => (uses_cancelTask _ _ _ _).mono (by decide)) _) fun _ => ?_
  split_ifs
  · trivial
  · exact (uses_perform rfl).bind fun _ => trivial

theorem uses_cancelRequest (u : UserId) (t : TaskId) :
    Uses (cancelRequest u t) (.getTask :: cancelTags) := by
  refine (uses_perform rfl).bind ?_
  rintro (_ | r)
  · trivial
  · exact ((uses_cancelTask _ _ _ _).mono (by decide)).bind fun _ => trivial

/-- The tags of a call. -/
def Call.tags : Call → List Tag
  | .frame _ _ _ => frameTags
  | .admission _ _ => admitTags
  | .connect _ _ => [.read, .attach, .markClosed]
  | .disconnect _ => [.markClosed, .detach]
  | .resumeWindowExpiry _ _ => [.expireResume, .finalised, .inflightOf] ++ failTags
  | .failInflight _ _ => .inflightOf :: failTags
  | .sweep => [.env, .findExpiredTasks] ++ failTags
  | .cancelTask _ _ => .getTask :: cancelTags
  | .openSession _ => [.openSession]
  | .closeSession _ _ => [.closingView, .closeSession] ++ cancelTags
  | .reopenSession _ _ => [.reopenSession]
  | .reap => [.reap]
  | .sendLoop _ => [.sendNext]

theorem uses_call_body (c : Call) : Uses (c.body cfg) c.tags := by
  cases c with
  | frame k a m => exact (uses_dispatchFrame m).bind fun _ => trivial
  | admission f a => exact uses_admitTask.bind fun _ => trivial
  | connect a tok => exact (uses_handshake tok).bind fun _ => trivial
  | disconnect k => exact uses_onDisconnect.bind fun _ => trivial
  | resumeWindowExpiry k a => exact uses_resumeWindowExpiry.bind fun _ => trivial
  | failInflight a reason => exact (uses_failInflightForAgent _ _).bind fun _ => trivial
  | sweep => exact uses_sweepOnce.bind fun _ => trivial
  | cancelTask u t => exact (uses_cancelRequest _ _).bind fun _ => trivial
  | openSession u => exact (uses_perform rfl).bind fun _ => trivial
  | closeSession u x => exact (uses_closeSession _ _).bind fun _ => trivial
  | reopenSession u x => exact (uses_perform rfl).bind fun _ => trivial
  | reap => exact (uses_perform rfl).bind fun _ => trivial
  | sendLoop k => exact (uses_perform rfl).bind fun _ => trivial

end

/-! ### What failures and admissions keep -/

/-- The actions of an admission outside the hand-over and its compensation. -/
def admissionTags : List Tag :=
  [.createTask, .cacheCallerAgent, .transition .running, .delegationPhaseA, .delegationPhaseC] ++
    checkTags

/-- Those that come before a destination has accepted. -/
def entryTags : List Tag :=
  [.createTask, .cacheCallerAgent, .delegationPhaseA, .delegationPhaseC] ++ checkTags

/-- What a task is marked running with. -/
def acceptedBy (a : AgentId) : Cause := { reason := "agent_accepted", actor := some a }

section

variable {Q : Type} {cfg : Config} {D : Discipline Act Q} {I : Q → Prop} {a : AgentId}

theorem keeps_failTask (huser : ∀ t, D.Safe I (.userOf t))
    (hfail : ∀ t u x, D.Keeps I (failOwned t u x)) (t : TaskId) (u : Option UserId) (x : Failure) :
    D.Keeps I (failTask t u x) := by
  cases u with
  | some u => exact hfail t u x
  | none =>
    refine (Discipline.keeps_perform (huser t)).bind fun v => ?_
    cases v with
    | none => exact Discipline.keeps_pure _
    | some u => exact hfail t u x

theorem keeps_dispatchTask (f : NewTaskFrame) (row : TaskRow) (level : String)
    (hrunning : ∀ t a, D.Safe I (.transition t .running (acceptedBy a)))
    (hdeliver : ∀ dst m, D.Keeps I (deliverFrame dst m))
    (hsafe : ∀ t u code reason error, D.Keeps I (safeFail t u code reason error)) :
    D.Keeps I (dispatchTask f row level).run := by
  have hfail : ∀ code reason error (e : Exn), D.Keeps I
      (ExceptT.lift (safeFail row.taskId f.userId code reason error) >>= fun _ =>
        (throw e : Raising Exn AdmitResult)).run := fun code reason error e =>
    Discipline.keeps_except_bind (Discipline.keeps_except_lift (hsafe _ _ _ _ _))
      fun _ => Discipline.keeps_pure _
  refine Discipline.keeps_except_bind (Discipline.keeps_except_lift (hdeliver _ _)) fun out => ?_
  rcases out with (_ | _ | _ | _) | m
  · exact hfail _ _ _ _
  · exact Discipline.keeps_pure _
  · exact hfail _ _ _ _
  · exact Discipline.keeps_pure _
  cases m with
  | ack ack =>
    dsimp only
    split_ifs
    · exact hfail _ _ _ _
    · have haccepted : D.Keeps I (call (.transition row.taskId .running
          (acceptedBy f.destinationAgentId)) : Raising Exn Transitioned).run :=
        Discipline.keeps_except_lift (Discipline.keeps_perform (hrunning _ _))
      exact Discipline.keeps_except_bind haccepted fun _ => Discipline.keeps_pure _
  | _ => exact Discipline.keeps_pure _

theorem keeps_admitDelegation (f : NewTaskFrame) (t : TaskId)
    (hplain : ∀ {β : Type} (x : Act β), x.tag ∈ entryTags → D.Safe I x)
    (hdeliver : ∀ dst m, D.Keeps I (deliverFrame dst m)) :
    D.Keeps I (admitDelegation f t a).run := by
  have huses : ∀ {α : Type} {p : Coroutine α} {T : List Tag}, Uses p T → T ⊆ entryTags →
      D.Keeps I p := fun hp hT => hp.keeps fun x hx => hplain x (hT hx)
  refine Discipline.keeps_except_bind (huses (uses_lookupAgents _ _) (by decide)) ?_
  rintro ⟨c, d⟩
  refine Discipline.keeps_except_bind (huses uses_requireLevel (by decide)) fun level => ?_
  refine Discipline.keeps_except_bind (huses (uses_requireAllowed _ _ _ _) (by decide)) fun _ => ?_
  refine Discipline.keeps_except_bind
    (huses (uses_call (T := [.delegationPhaseA]) rfl) (by decide)) ?_
  rintro (e | plan)
  · exact Discipline.keeps_pure _
  refine Discipline.keeps_except_bind (Discipline.keeps_except_lift (hdeliver _ _)) fun out => ?_
  rcases out with (_ | _ | _ | _) | m
  iterate 4 exact Discipline.keeps_pure _
  cases m with
  | ack ack =>
    dsimp only
    split_ifs
    · exact Discipline.keeps_pure _
    · refine Discipline.keeps_except_bind
        (huses (uses_call (T := [.delegationPhaseC]) rfl) (by decide)) ?_
      rintro (e | u) <;> exact Discipline.keeps_pure _
  | _ => exact Discipline.keeps_pure _

/-- An admission keeps what its plain actions, the hand-over, the acceptance and the compensation
keep. -/
theorem keeps_admitTask_of_accepted (f : NewTaskFrame)
    (hplain : ∀ {β : Type} (x : Act β), x.tag ∈ entryTags → D.Safe I x)
    (hrunning : ∀ t a, D.Safe I (.transition t .running (acceptedBy a)))
    (hdeliver : ∀ dst m, D.Keeps I (deliverFrame dst m))
    (hsafe : ∀ t u code reason error, D.Keeps I (safeFail t u code reason error)) :
    D.Keeps I (admitTask cfg f a).run := by
  have huses : ∀ {α : Type} {p : Coroutine α} {T : List Tag}, Uses p T → T ⊆ entryTags →
      D.Keeps I p := fun hp hT => hp.keeps fun x hx => hplain x (hT hx)
  unfold admitTask
  split
  · exact Discipline.keeps_except_bind (keeps_admitDelegation f _ hplain hdeliver) fun _ =>
      Discipline.keeps_pure _
  refine Discipline.keeps_except_bind (huses uses_joinExisting (by decide)) fun existing => ?_
  cases existing with
  | some r => exact Discipline.keeps_pure _
  | none =>
    refine Discipline.keeps_except_bind (huses uses_preflight (by decide)) fun level => ?_
    refine Discipline.keeps_except_bind (huses (uses_call (T := [.env]) rfl) (by decide))
      fun now => ?_
    refine Discipline.keeps_except_bind (huses (uses_call (T := [.createTask]) rfl) (by decide))
      fun out => ?_
    cases out with
    | refused e => exact Discipline.keeps_pure _
    | checkViolation => exact Discipline.keeps_pure _
    | uniqueViolation =>
      refine Discipline.keeps_except_bind (huses (uses_call (T := [.read]) rfl) (by decide))
        fun racer => ?_
      cases racer <;> exact Discipline.keeps_pure _
    | created row =>
      exact Discipline.keeps_except_bind
        (huses (uses_call (T := [.cacheCallerAgent]) rfl) (by decide))
        fun _ => keeps_dispatchTask f row level hrunning hdeliver hsafe

/-- An admission keeps what its plain actions, the hand-over and the compensation keep. -/
theorem keeps_admitTask (f : NewTaskFrame)
    (hplain : ∀ {β : Type} (x : Act β), x.tag ∈ admissionTags → D.Safe I x)
    (hdeliver : ∀ dst m, D.Keeps I (deliverFrame dst m))
    (hsafe : ∀ t u code reason error, D.Keeps I (safeFail t u code reason error)) :
    D.Keeps I (admitTask cfg f a).run :=
  have hentry : entryTags ⊆ admissionTags := by decide
  keeps_admitTask_of_accepted f (fun x hx => hplain x (hentry hx))
    (fun _ _ => hplain _ (by simp [Act.tag, admissionTags])) hdeliver hsafe

end

/-! ### What every call keeps -/

/-- The actions outside the programs that change tasks. -/
def plainTags : List Tag :=
  [.read, .env, .sessionLevel, .userOf, .getTask, .findExpiredTasks, .inflightOf, .closingView,
    .closeSession, .reopenSession, .openSession, .allocateName, .cacheCallerAgent, .put, .settle,
    .reap, .sendNext, .attach, .markClosed, .detach, .expireResume, .finalised]

/-- `I` is kept by the plain actions and by the programs that change tasks. -/
structure KeepsTasks {Q : Type} (cfg : Config) (D : Discipline Act Q) (I : Q → Prop) : Prop where
  plain : ∀ {β : Type} (a : Act β), a.tag ∈ plainTags → D.Safe I a
  progress : ∀ dst f, D.Safe I (.deliver dst (.progress f))
  complete : ∀ f a, D.Keeps I (completeTask f a)
  cancel : ∀ t u reason initiator, D.Keeps I (cancelTask t u reason initiator)
  fail : ∀ t u x, D.Keeps I (failTask t u x)
  admission : ∀ f a, D.Keeps I (admitTask cfg f a).run

namespace KeepsTasks

variable {Q α : Type} {cfg : Config} {D : Discipline Act Q} {I : Q → Prop} {a : AgentId}

theorem uses (h : KeepsTasks cfg D I) {p : Coroutine α} {T : List Tag} (hp : Uses p T)
    (hT : T ⊆ plainTags) : D.Keeps I p :=
  hp.keeps fun x hx => h.plain x (hT hx)

theorem perform (h : KeepsTasks cfg D I) {x : Act α} (hx : decide (x.tag ∈ plainTags) = true) :
    D.Keeps I (perform x) := Discipline.keeps_perform (h.plain x (of_decide_eq_true hx))

theorem handleProgress (h : KeepsTasks cfg D I) (f : ProgressFrame) :
    D.Keeps I (handleProgress a f) := by
  refine (h.uses (uses_progressTarget f.taskId) (by decide)).bind ?_
  rintro (_ | p)
  · exact Discipline.keeps_pure _
  · dsimp only
    split_ifs
    · exact Discipline.keeps_pure _
    · exact (Discipline.keeps_perform (h.progress _ _)).bind fun _ =>
        Discipline.keeps_pure _

theorem handleCancel (h : KeepsTasks cfg D I) (f : CancelFrame) :
    D.Keeps I (handleCancel a f) := by
  unfold Backplane.handleCancel
  split
  · exact Discipline.keeps_pure _
  · exact Discipline.keeps_pure _
  · refine (h.perform rfl).bind ?_
    rintro (_ | u)
    · exact Discipline.keeps_pure _
    · refine (h.perform rfl).bind fun ok => ?_
      split_ifs
      · exact (h.cancel _ _ _ _).bind fun _ => Discipline.keeps_pure _
      · exact Discipline.keeps_pure _

theorem dispatchFrame (h : KeepsTasks cfg D I) (k : SocketId) (m : Envelope) :
    D.Keeps I (dispatchFrame cfg k a m) := by
  unfold Backplane.dispatchFrame
  split
  · exact (h.admission _ _).bind fun r => h.uses (uses_answerNewTask _ r) (by decide)
  · exact (h.complete _ _).bind fun _ => (h.uses (uses_putAck _ _ _ _) (by decide)).bind fun _ =>
      Discipline.keeps_pure _
  · exact h.handleProgress _
  · exact h.handleCancel _
  · exact h.perform rfl
  · exact h.perform rfl
  · exact h.perform rfl
  · exact h.uses (uses_handleFileStore _) (by decide)
  · exact Discipline.keeps_pure _

theorem failInflightForAgent (h : KeepsTasks cfg D I) (reason : String) :
    D.Keeps I (failInflightForAgent a reason) :=
  (h.perform rfl).bind fun rows => (Discipline.keeps_each (fun t => h.fail t none _) rows).bind
    fun _ => Discipline.keeps_pure _

theorem sweepOnce (h : KeepsTasks cfg D I) : D.Keeps I sweepOnce :=
  (h.perform rfl).bind fun _ => (h.perform rfl).bind fun rows =>
    (Discipline.keeps_each (fun r : TaskRow => h.fail r.taskId (some r.userId) _) rows).bind
      fun _ => Discipline.keeps_pure _

theorem closeSession (h : KeepsTasks cfg D I) (u : UserId) (x : SessionId) :
    D.Keeps I (closeSession u x) := by
  refine (h.perform rfl).bind ?_
  rintro (_ | ⟨closed, rows⟩)
  · exact Discipline.keeps_pure _
  · refine (Discipline.keeps_each (fun t => h.cancel t u _ _) rows).bind fun _ => ?_
    split_ifs
    · exact Discipline.keeps_pure _
    · exact (h.perform rfl).bind fun _ => Discipline.keeps_pure _

/-- **Every call keeps what the programs that change tasks keep.** -/
theorem body (h : KeepsTasks cfg D I) (c : Call) : D.Keeps I (c.body cfg) := by
  have hthen : ∀ {β : Type} {p : Coroutine β} (f : β → Ret), D.Keeps I p →
      D.Keeps I (p >>= fun x => pure (f x)) := fun _ h => h.bind fun _ => Discipline.keeps_pure _
  cases c with
  | frame k a m => exact hthen _ (h.dispatchFrame k m)
  | admission f a => exact hthen _ (h.admission f a)
  | connect a tok => exact hthen _ (h.uses (uses_handshake tok) (by decide))
  | disconnect k => exact hthen _ (h.uses uses_onDisconnect (by decide))
  | resumeWindowExpiry k a =>
    refine hthen _ ((h.perform rfl).bind fun ok => ?_)
    split_ifs
    · exact (h.failInflightForAgent _).bind fun _ => h.perform rfl
    · exact Discipline.keeps_pure _
  | failInflight a reason => exact hthen _ (h.failInflightForAgent reason)
  | sweep => exact hthen _ h.sweepOnce
  | cancelTask u t =>
    refine hthen _ ((h.perform rfl).bind ?_)
    rintro (_ | r)
    · exact Discipline.keeps_pure _
    · exact (h.cancel t u _ _).bind fun _ => Discipline.keeps_pure _
  | openSession u => exact hthen _ (h.perform rfl)
  | closeSession u x => exact hthen _ (h.closeSession u x)
  | reopenSession u x => exact hthen _ (h.perform rfl)
  | reap => exact hthen _ (h.perform rfl)
  | sendLoop k => exact hthen _ (h.perform rfl)

end KeepsTasks

end Backplane
