import Backplane.Db.Schema
import Backplane.Protocol.Frames

/-!
# The task state machine

`task_transition` is the one place where a task's state changes in an orderly way, and the two
transactions built around it.  Each definition is the body of one transaction: it reads and writes
under the row lock, so it is one step.

* `allowed` : the table of allowed transitions.
* `Db.taskTransition` : lock, validate against the table, write, log.  Asking for the state the row
  already has is not an error: an event is logged and nothing else happens.
* `Db.transitionTx` : a transition with the row as it stands afterwards (cancel, fail, cascade).
* `Db.completeTx` : the transition an agent's Result asks for, authorised by the same locked row.
* `Db.forceFail` : the guarded single statement that bypasses the table.
-/

namespace Backplane

/-- The states reachable in one transition. -/
def allowedTransitions : TaskState → List TaskState
  | .queued => [.running, .succeeded, .failed, .cancelled, .timedOut]
  | .running => [.waitingChildren, .succeeded, .failed, .cancelled, .timedOut]
  | .waitingChildren => [.running, .failed, .cancelled, .timedOut]
  | .succeeded | .failed | .cancelled | .timedOut => []

/-- Does the static table allow this transition? -/
def allowed (frm dst : TaskState) : Bool := decide (dst ∈ allowedTransitions frm)

/-- Why a transition did not happen. -/
inductive TransitionError
  | taskNotFound
  | illegalTransition (frm dst : TaskState)
  deriving DecidableEq, Repr

/-- What a transition records besides the state. -/
structure Cause where
  reason : String
  actor : Option String := none
  statusCode : Option ℕ := none
  output : Option AgentOutput := none
  error : Option Json := none
  deriving DecidableEq, Repr

/-- What the transition a Result asks for records. -/
def ResultFrame.cause (f : ResultFrame) (reporter : AgentId) : Cause where
  reason := "result_" ++ f.status.value
  actor := some reporter
  statusCode := some f.statusCode
  output := f.output
  error := f.error

/-- The row after a transition; a missing outcome field keeps its old value. -/
def TaskRow.moved (r : TaskRow) (new : TaskState) (c : Cause) : TaskRow :=
  { r with
    state := new
    statusCode := c.statusCode <|> r.statusCode
    output := c.output <|> r.output
    error := c.error <|> r.error }

/-- The event a transition logs. -/
def transitionEvent (kind : EventKind) (t : TaskId) (frm dst : TaskState) (c : Cause) :
    TaskEvent :=
  ⟨t, kind, c.actor, some frm, some dst, [("reason", c.reason)]⟩

/-- What a transaction around `taskTransition` finds out. -/
inductive Transitioned
  | notFound
  | illegal
  /-- Not refused: the state before and the row after. -/
  | done (previous : TaskState) (row : TaskRow)
  deriving DecidableEq, Repr

/-- What the transaction of `complete_task` finds out. -/
inductive Completed
  | unknownTask
  /-- The reporter does not execute the task. -/
  | wrongAgent
  /-- The table does not allow it: the task has ended already. -/
  | duplicate
  /-- Not refused: the state before and the row after. -/
  | done (previous : TaskState) (row : TaskRow)
  deriving DecidableEq, Repr

namespace Db

variable (db : Db)

/-- Transition a task under its row lock; answers the previous state. -/
def taskTransition (t : TaskId) (new : TaskState) (c : Cause) :
    Except TransitionError (TaskState × Db) :=
  match db.tasks.lookup t with
  | none => .error .taskNotFound
  | some r =>
    if r.state = new then
      .ok (r.state, db.insertEvent (transitionEvent .transitionNoop t r.state new c))
    else if allowed r.state new then
      .ok (r.state, (db.updateTask t fun r => r.moved new c).insertEvent
        (transitionEvent .transition t r.state new c))
    else .error (.illegalTransition r.state new)

/-- A transition together with the row it leaves, both refusals swallowed. -/
def transitionTx (t : TaskId) (new : TaskState) (c : Cause) : Db × Transitioned :=
  match db.taskTransition t new c with
  | .error .taskNotFound => (db, .notFound)
  | .error (.illegalTransition _ _) => (db, .illegal)
  | .ok (prev, db') =>
    match db'.tasks.lookup t with
    | some r => (db', .done prev r)
    | none => (db', .notFound)

/-- The transaction of `complete_task`: only the agent that executes the task may end it. -/
def completeTx (f : ResultFrame) (reporter : AgentId) : Db × Completed :=
  match db.tasks.lookup f.taskId with
  | none => (db, .unknownTask)
  | some r =>
    if reporter ≠ r.activeAgentId then (db, .wrongAgent)
    else match db.transitionTx f.taskId (stateFromStatus f.status) (f.cause reporter) with
      | (db', .done prev r) => (db', .done prev r)
      | (db', .illegal) => (db', .duplicate)
      | (db', .notFound) => (db', .unknownTask)

/-- `UPDATE … SET state = 'FAILED' … WHERE state NOT IN (terminal)`. -/
def forceFail (userId : UserId) (t : TaskId) (statusCode : ℕ) (error : Option Json) : Db × Bool :=
  match db.getTask userId t with
  | none => (db, false)
  | some r =>
    if r.state.isTerminal then (db, false)
    else (db.updateTask t fun r =>
      { r with state := .failed, statusCode := some statusCode, error := error }, true)

end Db

/-! ### What a transition can do -/

variable {db db' : Db} {t : TaskId} {new prev : TaskState} {c : Cause} {r : TaskRow}

theorem allowed_ne {frm dst : TaskState} (h : allowed frm dst = true) : frm ≠ dst := by
  rintro rfl
  cases frm <;> simp [allowed, allowedTransitions] at h

/-- **Nothing leaves a terminal state.** -/
theorem not_allowed_of_isTerminal {frm dst : TaskState} (h : frm.isTerminal = true) :
    allowed frm dst = false := by
  cases frm <;> simp [TaskState.isTerminal, allowed, allowedTransitions] at h ⊢

/-- Every open state but `WAITING_CHILDREN` can go to every terminal state. -/
theorem allowed_terminal {frm dst : TaskState} (h : frm.isTerminal = false)
    (hw : frm = .waitingChildren → dst ≠ .succeeded) (hdst : dst.isTerminal = true) :
    allowed frm dst = true := by
  cases frm <;> cases dst <;>
    simp_all [TaskState.isTerminal, allowed, allowedTransitions]

@[simp] theorem TaskRow.moved_state : (r.moved new c).state = new := rfl

/-- The outcomes of `transitionTx`: no row, refused, the state it had already, moved. -/
theorem Db.transitionTx_cases (db : Db) (t : TaskId) (new : TaskState) (c : Cause) :
    (db.tasks.lookup t = none ∧ db.transitionTx t new c = (db, .notFound)) ∨
    (∃ r, db.tasks.lookup t = some r ∧ r.state ≠ new ∧ allowed r.state new = false ∧
      db.transitionTx t new c = (db, .illegal)) ∨
    (∃ r, db.tasks.lookup t = some r ∧ r.state = new ∧ db.transitionTx t new c =
      (db.insertEvent (transitionEvent .transitionNoop t r.state new c), .done r.state r)) ∨
    (∃ r, db.tasks.lookup t = some r ∧ allowed r.state new = true ∧ db.transitionTx t new c =
      ((db.updateTask t fun r => r.moved new c).insertEvent
        (transitionEvent .transition t r.state new c), .done r.state (r.moved new c))) := by
  cases h : db.tasks.lookup t with
  | none => exact .inl ⟨rfl, by simp [transitionTx, taskTransition, h]⟩
  | some r =>
    by_cases hs : r.state = new
    · refine .inr (.inr (.inl ⟨r, rfl, hs, ?_⟩))
      simp [transitionTx, taskTransition, h, hs, insertEvent, transitionEvent]
    · cases ha : allowed r.state new with
      | false =>
        exact .inr (.inl ⟨r, rfl, hs, ha, by simp [transitionTx, taskTransition, h, hs, ha]⟩)
      | true =>
        refine .inr (.inr (.inr ⟨r, rfl, ha, ?_⟩))
        simp [transitionTx, taskTransition, h, hs, ha, insertEvent, updateTask,
          Table.lookup_update, transitionEvent]

/-- The outcomes of `completeTx`: no row, not the executor, and those of the transition. -/
theorem Db.completeTx_cases (db : Db) (f : ResultFrame) (a : AgentId) :
    (db.tasks.lookup f.taskId = none ∧ db.completeTx f a = (db, .unknownTask)) ∨
    (∃ r, db.tasks.lookup f.taskId = some r ∧ a ≠ r.activeAgentId ∧
      db.completeTx f a = (db, .wrongAgent)) ∨
    (∃ r, db.tasks.lookup f.taskId = some r ∧ a = r.activeAgentId ∧
      r.state ≠ stateFromStatus f.status ∧ allowed r.state (stateFromStatus f.status) = false ∧
      db.completeTx f a = (db, .duplicate)) ∨
    (∃ r, db.tasks.lookup f.taskId = some r ∧ a = r.activeAgentId ∧
      r.state = stateFromStatus f.status ∧ db.completeTx f a =
        (db.insertEvent (transitionEvent .transitionNoop f.taskId r.state
          (stateFromStatus f.status) (f.cause a)), .done r.state r)) ∨
    (∃ r, db.tasks.lookup f.taskId = some r ∧ a = r.activeAgentId ∧
      allowed r.state (stateFromStatus f.status) = true ∧ db.completeTx f a =
        ((db.updateTask f.taskId fun r => r.moved (stateFromStatus f.status) (f.cause a)).insertEvent
          (transitionEvent .transition f.taskId r.state (stateFromStatus f.status) (f.cause a)),
          .done r.state (r.moved (stateFromStatus f.status) (f.cause a)))) := by
  cases h : db.tasks.lookup f.taskId with
  | none => exact .inl ⟨rfl, by simp [completeTx, h]⟩
  | some r =>
    by_cases ha : a = r.activeAgentId
    · have hc : db.completeTx f a =
          match db.transitionTx f.taskId (stateFromStatus f.status) (f.cause a) with
          | (db', .done prev r) => (db', .done prev r)
          | (db', .illegal) => (db', .duplicate)
          | (db', .notFound) => (db', .unknownTask) := by
        simp [completeTx, h, ha]
      rcases db.transitionTx_cases f.taskId (stateFromStatus f.status) (f.cause a) with
        ⟨hn, -⟩ | ⟨r', hr, hs, hal, htx⟩ | ⟨r', hr, hs, htx⟩ | ⟨r', hr, hal, htx⟩
      · rw [h] at hn; exact absurd hn (by simp)
      all_goals
        obtain rfl : r = r' := Option.some.inj (h.symm.trans hr)
        rw [htx] at hc
      · exact .inr (.inr (.inl ⟨r, rfl, ha, hs, hal, hc⟩))
      · exact .inr (.inr (.inr (.inl ⟨r, rfl, ha, hs, hc⟩)))
      · exact .inr (.inr (.inr (.inr ⟨r, rfl, ha, hal, hc⟩)))
    · exact .inr (.inl ⟨r, rfl, ha, by simp [completeTx, h, ha]⟩)

/-- The outcomes of `forceFail`: nothing, or an open task of the user is failed. -/
theorem Db.forceFail_cases (db : Db) (u : UserId) (t : TaskId) (code : ℕ) (err : Option Json) :
    db.forceFail u t code err = (db, false) ∨
    (∃ r, db.tasks.lookup t = some r ∧ r.userId = u ∧ r.state.isTerminal = false ∧
      db.forceFail u t code err = (db.updateTask t fun r =>
        { r with state := .failed, statusCode := some code, error := err }, true)) := by
  unfold forceFail
  cases hr : db.getTask u t with
  | none => exact .inl rfl
  | some r =>
    obtain ⟨hl, hu⟩ := getTask_eq_some.1 hr
    dsimp only
    split_ifs with ho
    · exact .inl rfl
    · exact .inr ⟨r, hl, hu, by simpa using ho, rfl⟩

end Backplane
