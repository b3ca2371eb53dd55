import Backplane.Db.Transitions
import Backplane.Data.Repr

/-!
# Creating and handing on tasks

The transactions of `admit_task`: the insert of a spawned task under the session's row lock, and
the two short locks of a delegation, with the refusals they raise.

* `AdmitError` : a refusal with its code and its text.
* `Db.createTaskTx` : session re-check, parent check, insert, `admitted` event.
* `Db.delegationPhaseA` : validate the hand-on under the row lock; writes nothing.
* `Db.delegationPhaseC` : re-validate, flip `active_agent_id`, `delegated` event.
-/

namespace Backplane

/-- Codes of admission refusals. -/
inductive AdmitCode
  | agentNotFound | userUnknown | aclDenied | taskUnknown | taskTerminal | notActiveExecutor
  | delegationDepthExceeded | delegationCycle | agentDisconnected | ackTimeout | rejected
  | internalError | schemaMismatch | sessionUnknown | sessionClosed | quotaExceeded
  | spawnDepthExceeded | invalidParentTask
  deriving DecidableEq, Repr

/-- An ACL, quota or validation refusal at admission time. -/
structure AdmitError where
  code : AdmitCode
  /-- Text, reflected into the caller's Ack. -/
  message : String
  /-- Hundredths of a second to wait; set by `quota_exceeded` only. -/
  retryAfter : Option ℕ := none
  deriving DecidableEq, Repr

/-- What the insert transaction of `admit_task` ends in. -/
inductive Created
  | refused (e : AdmitError)
  /-- `tasks_idempotency_unique` is violated. -/
  | uniqueViolation
  /-- `tasks_deadline_after_create` is violated. -/
  | checkViolation
  | created (row : TaskRow)
  deriving DecidableEq, Repr

/-- The immutable fields phases B and C of a delegation need. -/
structure DelegationPlan where
  taskId : TaskId
  parentTaskId : Option TaskId
  priority : TaskPriority
  deadline : ℕ
  deriving DecidableEq, Repr

/-- The row `create_task` inserts for a spawn. -/
def NewTaskFrame.row (f : NewTaskFrame) (callerAgentId : AgentId) (deadline now : ℕ)
    (rootTaskId newId : TaskId) : TaskRow where
  taskId := newId
  parentTaskId := f.parentTaskId
  rootTaskId := rootTaskId
  userId := f.userId
  sessionId := f.sessionId
  agentId := f.destinationAgentId
  callerAgentId := callerAgentId
  activeAgentId := f.destinationAgentId
  state := .queued
  idempotencyKey := f.idempotencyKey
  priority := f.priority
  deadline := deadline
  createdAt := now
  input := f.payload

/-- `session_unknown`, at the pre-flight check and inside the transaction. -/
def sessionUnknown (f : NewTaskFrame) : AdmitError where
  code := .sessionUnknown
  message := s!"session '{f.sessionId}' not found or does not belong to user '{f.userId}'"

/-- `task_unknown`, at either lock of a delegation. -/
def taskUnknown (t : TaskId) : AdmitError :=
  ⟨.taskUnknown, s!"task '{t}' not found in caller's user scope", none⟩

/-- The event of an admission. -/
def admittedEvent (t : TaskId) (callerAgentId : AgentId) : TaskEvent where
  taskId := t
  kind := .admitted
  actor := some callerAgentId
  payload := [("caller", callerAgentId)]

/-- The event of a delegation. -/
def delegatedEvent (t : TaskId) (frm dst : AgentId) : TaskEvent where
  taskId := t
  kind := .delegated
  actor := some frm
  payload := [("from", frm), ("to", dst)]

namespace Db

variable (db : Db)

/-- The root of the tree a child of `parent` belongs to; `none` when the user has no such task. -/
def rootFor (userId : UserId) (newId : TaskId) : Option TaskId → Option TaskId
  | none => some newId
  | some p => (db.getTask userId p).map TaskRow.rootTaskId

/-- The insert transaction of `admit_task`, under the session's row lock. -/
def createTaskTx (isPrintable : Char → Bool) (f : NewTaskFrame) (callerAgentId : AgentId)
    (deadline now : ℕ) (newId : TaskId) : Db × Created :=
  match db.getSession f.userId f.sessionId with
  | none => (db, .refused (sessionUnknown f))
  | some s =>
    if s.closedAt.isSome then
      (db, .refused ⟨.sessionClosed, s!"session '{f.sessionId}' was closed " ++
        "between pre-flight and admit; open a new session", none⟩)
    else match db.rootFor f.userId newId f.parentTaskId with
      | none =>
        (db, .refused ⟨.invalidParentTask, "parent_task_id " ++
          pyReprOption isPrintable f.parentTaskId ++ " not found in caller's tree", none⟩)
      | some root =>
        if deadline ≤ now then (db, .checkViolation)
        else if (f.idempotencyKey.bind fun key => db.findIdempotent f.userId key
            callerAgentId).isSome then (db, .uniqueViolation)
        else
          let row := f.row callerAgentId deadline now root newId
          (({ db with tasks := db.tasks.insert newId row } : Db).insertEvent
            (admittedEvent newId callerAgentId), .created row)

/-- Phase A of a delegation: validate under a short-lived row lock.  Writes nothing. -/
def delegationPhaseA (maxDepth : ℕ) (f : NewTaskFrame) (t : TaskId) (callerAgentId : AgentId) :
    Except AdmitError DelegationPlan :=
  match db.getTask f.userId t with
  | none => .error (taskUnknown t)
  | some r =>
    let prior := db.listDelegationDestinations f.userId r.taskId (maxDepth + 1)
    if r.state.isTerminal then
      .error ⟨.taskTerminal, s!"task '{t}' is already in terminal state {r.state.value}", none⟩
    else if r.activeAgentId ≠ callerAgentId then
      .error ⟨.notActiveExecutor, s!"caller '{callerAgentId}' is not the active executor " ++
        s!"for task '{t}' (current active: '{r.activeAgentId}')", none⟩
    else if prior.length ≥ maxDepth then
      .error ⟨.delegationDepthExceeded, s!"task '{r.taskId}' has already been delegated " ++
        s!"{prior.length} times (max {maxDepth}); refusing further hops to avoid runaway chain " ++
        "growth", none⟩
    else if f.destinationAgentId ∈ r.agentId :: prior then
      .error ⟨.delegationCycle, s!"delegation to '{f.destinationAgentId}' would create a " ++
        s!"cycle; task '{r.taskId}' has already passed through that agent", none⟩
    else .ok ⟨r.taskId, r.parentTaskId, r.priority, r.deadline⟩

/-- `UPDATE … SET active_agent_id … WHERE active_agent_id = expected`. -/
def reassignActiveAgent (userId : UserId) (t : TaskId) (newActive expected : AgentId) :
    Db × Bool :=
  match db.getTask userId t with
  | none => (db, false)
  | some r =>
    if r.activeAgentId = expected then
      (db.updateTask t fun r => { r with activeAgentId := newActive }, true)
    else (db, false)

/-- Phase C of a delegation: re-validate under a fresh row lock, flip the executor, log it. -/
def delegationPhaseC (f : NewTaskFrame) (t : TaskId) (callerAgentId : AgentId) :
    Db × Except AdmitError Unit :=
  match db.getTask f.userId t with
  | none => (db, .error (taskUnknown t))
  | some r =>
    if r.state.isTerminal then
      (db, .error ⟨.taskTerminal, s!"task '{t}' reached terminal state {r.state.value} while " ++
        "the destination was being asked to accept the delegation", none⟩)
    else if r.activeAgentId ≠ callerAgentId then
      (db, .error ⟨.notActiveExecutor, s!"caller '{callerAgentId}' is no longer the active " ++
        s!"executor for task '{t}' (current active: '{r.activeAgentId}')", none⟩)
    else match db.reassignActiveAgent f.userId t f.destinationAgentId callerAgentId with
      | (_, false) =>
        (db, .error ⟨.internalError, "active_agent_id reassignment lost the optimistic " ++
          "concurrency check; investigate", none⟩)
      | (db', true) =>
        (db'.insertEvent (delegatedEvent t callerAgentId f.destinationAgentId), .ok ())

end Db

/-! ### What these transactions do -/

variable {db : Db} {f : NewTaskFrame} {t : TaskId} {caller : AgentId}

/-- The insert happens only into an open session of the user, below a parent of the user. -/
theorem Db.createTaskTx_cases (db : Db) (pr : Char → Bool) (f : NewTaskFrame) (caller : AgentId)
    (deadline now : ℕ) (newId : TaskId) :
    ((db.createTaskTx pr f caller deadline now newId).1 = db ∧
      ∀ r, (db.createTaskTx pr f caller deadline now newId).2 ≠ .created r) ∨
    (∃ s root, db.sessions.lookup f.sessionId = some s ∧ s.userId = f.userId ∧
      s.closedAt = none ∧ now < deadline ∧ (∀ p, f.parentTaskId = some p →
        ∃ r, db.tasks.lookup p = some r ∧ r.userId = f.userId) ∧
      db.createTaskTx pr f caller deadline now newId =
        (({ db with tasks := db.tasks.insert newId (f.row caller deadline now root newId) } :
          Db).insertEvent (admittedEvent newId caller),
          .created (f.row caller deadline now root newId))) := by
  cases hs : db.getSession f.userId f.sessionId with
  | none => exact .inl (by simp [createTaskTx, hs])
  | some s =>
    cases hc : s.closedAt with
    | some c => exact .inl (by simp [createTaskTx, hs, hc])
    | none =>
      cases hr : db.rootFor f.userId newId f.parentTaskId with
      | none => exact .inl (by simp [createTaskTx, hs, hc, hr])
      | some root =>
        by_cases hd : deadline ≤ now
        · exact .inl (by simp [createTaskTx, hs, hc, hr, hd])
        by_cases hu : (f.idempotencyKey.bind fun key =>
            db.findIdempotent f.userId key caller).isSome
        · exact .inl (by simp [createTaskTx, hs, hc, hr, hd, hu])
        obtain ⟨hl, hown⟩ := getSession_eq_some.1 hs
        refine .inr ⟨s, root, hl, hown, hc, Nat.lt_of_not_le hd, fun p hp => ?_, ?_⟩
        · rw [hp, rootFor] at hr
          obtain ⟨r, hr, -⟩ := Option.map_eq_some_iff.1 hr
          exact ⟨r, getTask_eq_some.1 hr⟩
        · simp only [createTaskTx, hs, hc, hr, hd, hu, Option.isSome_none, if_false,
            Bool.false_eq_true]

/-- The insert happens only if no row carries the key yet. -/
theorem Db.createTaskTx_key {pr : Char → Bool} {deadline now : ℕ} {newId : TaskId} {r : TaskRow}
    (h : (db.createTaskTx pr f caller deadline now newId).2 = .created r) {key : String}
    (hkey : f.idempotencyKey = some key) : db.findIdempotent f.userId key caller = none := by
  by_contra hne
  have hsome : (f.idempotencyKey.bind fun key => db.findIdempotent f.userId key caller).isSome := by
    rw [hkey]
    exact Option.isSome_iff_ne_none.2 hne
  unfold createTaskTx at h
  split at h
  · cases h
  · split_ifs at h <;> split at h <;> cases h

/-- What phase A has checked when it lets a delegation pass. -/
theorem Db.delegationPhaseA_ok {maxDepth : ℕ} {p : DelegationPlan}
    (h : db.delegationPhaseA maxDepth f t caller = .ok p) :
    ∃ r, db.tasks.lookup t = some r ∧ r.userId = f.userId ∧ r.state.isTerminal = false ∧
      r.activeAgentId = caller ∧
      (db.listDelegationDestinations f.userId r.taskId (maxDepth + 1)).length < maxDepth ∧
      f.destinationAgentId ∉
        r.agentId :: db.listDelegationDestinations f.userId r.taskId (maxDepth + 1) ∧
      p = ⟨r.taskId, r.parentTaskId, r.priority, r.deadline⟩ := by
  unfold delegationPhaseA at h
  cases hr : db.getTask f.userId t with
  | none => simp [hr] at h
  | some r =>
    simp only [hr] at h
    split_ifs at h with h₁ h₂ h₃ h₄
    obtain ⟨hl, hu⟩ := getTask_eq_some.1 hr
    exact ⟨r, hl, hu, by simpa using h₁, by simpa using h₂, by simpa using h₃, h₄,
      (Except.ok.inj h).symm⟩

/-- Phase C flips the executor of an open task that the caller still executes, or does nothing. -/
theorem Db.delegationPhaseC_cases (db : Db) (f : NewTaskFrame) (t : TaskId) (caller : AgentId) :
    ((db.delegationPhaseC f t caller).1 = db ∧ ∀ u, (db.delegationPhaseC f t caller).2 ≠ .ok u) ∨
    (∃ r, db.tasks.lookup t = some r ∧ r.userId = f.userId ∧ r.state.isTerminal = false ∧
      r.activeAgentId = caller ∧ db.delegationPhaseC f t caller =
        ((db.updateTask t fun r => { r with activeAgentId := f.destinationAgentId }).insertEvent
          (delegatedEvent t caller f.destinationAgentId), .ok ())) := by
  cases hr : db.getTask f.userId t with
  | none => exact .inl (by simp [delegationPhaseC, hr])
  | some r =>
    cases ht : r.state.isTerminal with
    | true => exact .inl (by simp [delegationPhaseC, hr, ht])
    | false =>
      by_cases ha : r.activeAgentId = caller
      · obtain ⟨hl, hu⟩ := getTask_eq_some.1 hr
        refine .inr ⟨r, hl, hu, ht, ha, ?_⟩
        simp [delegationPhaseC, reassignActiveAgent, hr, ht, ha]
      · exact .inl (by simp [delegationPhaseC, hr, ht, ha])

end Backplane
