import Backplane.Router.Act

/-!
# Ending tasks

The paths that bring a task to a terminal state and tell its caller.

* `completeTask` : persist an agent's Result and forward it to the caller.
* `cancelTask` : cancel a task and its descendants.
* `failTask` : fail or time out a task and cancel its descendants.
* `failInflightForAgent`, `sweepOnce` : `failTask` on every task of a batch.
-/

namespace Backplane

open Concur Prog

/-- Push a frame to an agent's outbox; `AgentNotConnected` and `QueueFull` are swallowed. -/
def deliverQuietly (dst : AgentId) (f : Frame) : Coroutine Unit := do
  let _ ← perform (.deliver dst f)

/-- Persist a Result and forward it to the caller agent. -/
def completeTask (f : ResultFrame) (reportingAgentId : AgentId) : Coroutine Unit := do
  match ← perform (.complete f reportingAgentId) with
  | .unknownTask | .wrongAgent | .duplicate => pure ()
  | .done _ row =>
    perform (.notifyTaskTerminal f.taskId)
    -- the producing agent's identity is kept instead of stamping "router"
    deliverQuietly row.callerAgentId (.result
      { f with
        header := { f.header with agentId := reportingAgentId }
        parentTaskId := row.parentTaskId })

/-- Cancel one task; yields its row when the transition was not refused. -/
def cancelOne (reason initiator : String) (t : TaskId) : Coroutine (Option TaskRow) := do
  match ← perform (.transition t .cancelled { reason, actor := some initiator }) with
  | .notFound | .illegal => pure none
  | .done _ row =>
    perform (.notifyTaskTerminal t)
    pure (some row)

/-- The Result that tells a caller its task was cancelled. -/
def cancelledResult (row : TaskRow) (reason : String) : ResultFrame where
  header := .router
  taskId := row.taskId
  parentTaskId := row.parentTaskId
  status := .cancelled
  statusCode := 499
  error := some [("code", "cancelled"), ("message", reason)]

/-- Tell the caller of a cancelled task, and stop its executor. -/
def fanOutCancelled (reason : String) (row : TaskRow) : Coroutine Unit := do
  deliverQuietly row.callerAgentId (.result (cancelledResult row reason))
  deliverQuietly row.activeAgentId (.cancel { header := .router, taskId := row.taskId, reason })

/-- Cancel the tasks of a list one by one, then tell the callers and the executors; answers how many
transitions were not refused. -/
def cancelAll (reason initiator : String) (ts : List TaskId) : Coroutine ℕ := do
  let fanoutPlan ← collect (cancelOne reason initiator) ts
  each (fanOutCancelled reason) fanoutPlan
  pure fanoutPlan.length

/-- Cancel a task and all of its descendants. -/
def cancelTask (t : TaskId) (userId : UserId) (reason initiator : String) : Coroutine ℕ := do
  let descendants ← perform (.listDescendants userId t)
  cancelAll reason initiator (t :: descendants)

/-- The two terminals `fail_task` may set. -/
inductive FailureState
  | failed | timedOut
  deriving DecidableEq, Repr

namespace FailureState

/-- The state of the task. -/
def state : FailureState → TaskState
  | failed => .failed
  | timedOut => .timedOut

/-- The status of the Result. -/
def status : FailureState → TaskStatus
  | failed => .failed
  | timedOut => .timedOut

/-- Why the descendants are cancelled. -/
def cascadeReason : FailureState → String
  | failed => "parent_failed"
  | timedOut => "parent_timed_out"

end FailureState

/-- What `fail_task` is told about the failure. -/
structure Failure where
  statusCode : ℕ
  reason : String
  error : Option Json := none
  actor : Option String := none
  /-- Failed or timed out. -/
  terminalState : FailureState := .failed
  deriving DecidableEq, Repr

/-- The error recorded and reported: `error or {"code": reason}`. -/
def Failure.errorOrCode (a : Failure) : Json :=
  (a.error.filter (· ≠ [])).getD [("code", a.reason)]

/-- What the transition of a failure records. -/
def Failure.cause (a : Failure) : Cause where
  reason := a.reason
  actor := a.actor
  statusCode := some a.statusCode
  error := some a.errorOrCode

/-- The Result of a failed task. -/
def failedResult (row : TaskRow) (a : Failure) : ResultFrame where
  header := .router
  taskId := row.taskId
  parentTaskId := row.parentTaskId
  status := a.terminalState.status
  statusCode := a.statusCode
  error := some a.errorOrCode

/-- Cancel the descendants of a task that has failed. -/
def cancelSubtree (t : TaskId) (userId : UserId) (reason : String) : Coroutine Unit := do
  let descendants ← perform (.listDescendants userId t)
  let _ ← cancelAll reason "router" descendants

/-- Tell the owner of the parent that a task has failed. -/
def notifyParentOwner (row : TaskRow) (a : Failure) : Coroutine Unit :=
  match row.parentTaskId with
  | none => pure ()
  | some p => do
    match ← perform (.agentOf p) with
    | none => pure ()
    | some owner => deliverQuietly owner (.result (failedResult row a))

/-- Fail a task of a user, cancel its descendants and report to the parent. -/
def failOwned (t : TaskId) (userId : UserId) (a : Failure) : Coroutine Unit := do
  match ← perform (.transition t a.terminalState.state a.cause) with
  | .notFound | .illegal => pure ()
  | .done _ row =>
    perform (.notifyTaskTerminal t)
    cancelSubtree t userId a.terminalState.cascadeReason
    notifyParentOwner row a

/-- `fail_task`: the user is looked up if it is not given. -/
def failTask (t : TaskId) (userId : Option UserId) (a : Failure) : Coroutine Unit :=
  match userId with
  | some u => failOwned t u a
  | none => do
    match ← perform (.userOf t) with
    | none => pure ()
    | some u => failOwned t u a

/-- What `fail_inflight_for_agent` tells `fail_task`. -/
def inflightFailure (agentId : AgentId) (reason : String) : Failure where
  statusCode := 503
  reason := reason
  error := some [("code", reason), ("agent_id", agentId)]
  actor := some "router"

/-- Fail every open task that was admitted for `agentId`. -/
def failInflightForAgent (agentId : AgentId) (reason : String) : Coroutine ℕ := do
  let rows ← perform (.inflightOf agentId)
  each (fun t => failTask t none (inflightFailure agentId reason)) rows
  pure rows.length

/-- What the deadline sweep tells `fail_task`. -/
def deadlineFailure : Failure where
  statusCode := 504
  reason := "deadline_exceeded"
  error := some [("code", "deadline_exceeded")]
  terminalState := .timedOut

/-- Time out the open tasks whose deadline has passed. -/
def sweepOnce : Coroutine ℕ := do
  let now ← perform (.env Env.now)
  let rows ← perform (.findExpiredTasks now 100)
  each (fun row => failTask row.taskId (some row.userId) deadlineFailure) rows
  pure rows.length

end Backplane
