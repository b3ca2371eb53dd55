import Mathlib.Tactic.Common

/-!
# Common types

The enumerations and records that the router and the agents share.

* `TaskState`, `TaskStatus`, `TaskPriority` with their wire values.
* `stateFromStatus`, `statusFromState` : the two directions between a row's state and the status
  of a Result, inverse to each other (`statusFromState_stateFromStatus`).
* `AgentOutput` : what a Result carries.
-/

namespace Backplane

/-- Identifier of an agent. -/
abbrev AgentId := String

/-- Identifier of a task. -/
abbrev TaskId := String

/-- Identifier of a user. -/
abbrev UserId := String

/-- Identifier of a session. -/
abbrev SessionId := String

/-- Correlation id of a frame. -/
abbrev CorrelationId := String

/-- A JSON object whose values the router passes along without looking at them. -/
abbrev Json := List (String × String)

/-- Task state machine states. -/
inductive TaskState
  | queued | running | waitingChildren | succeeded | failed | cancelled | timedOut
  deriving DecidableEq, Repr

/-- Terminal task outcome reported on Result frames. -/
inductive TaskStatus
  | succeeded | failed | cancelled | timedOut
  deriving DecidableEq, Repr

/-- Scheduling priority of a task. -/
inductive TaskPriority
  | low | normal | high
  deriving DecidableEq, Repr

namespace TaskState

/-- Value on the wire and in the database. -/
def value : TaskState → String
  | queued => "QUEUED"
  | running => "RUNNING"
  | waitingChildren => "WAITING_CHILDREN"
  | succeeded => "SUCCEEDED"
  | failed => "FAILED"
  | cancelled => "CANCELLED"
  | timedOut => "TIMED_OUT"

/-- No transition leaves a terminal state. -/
def isTerminal : TaskState → Bool
  | succeeded | failed | cancelled | timedOut => true
  | queued | running | waitingChildren => false

end TaskState

namespace TaskStatus

/-- Value on the wire. -/
def value : TaskStatus → String
  | succeeded => "succeeded"
  | failed => "failed"
  | cancelled => "cancelled"
  | timedOut => "timed_out"

end TaskStatus

/-- The state a Result with this status puts the task in. -/
def stateFromStatus : TaskStatus → TaskState
  | .succeeded => .succeeded
  | .failed => .failed
  | .cancelled => .cancelled
  | .timedOut => .timedOut

/-- The status a task in this state reports, `none` if it is not terminal. -/
def statusFromState : TaskState → Option TaskStatus
  | .succeeded => some .succeeded
  | .failed => some .failed
  | .cancelled => some .cancelled
  | .timedOut => some .timedOut
  | .queued | .running | .waitingChildren => none

/-- What an agent hands back: text, metadata and names in the file store. -/
structure AgentOutput where
  content : String
  /-- Names in the router-managed file store. -/
  files : List String := []
  metadata : Json := []
  deriving DecidableEq, Repr

@[simp] theorem isTerminal_stateFromStatus (s : TaskStatus) :
    (stateFromStatus s).isTerminal = true := by
  cases s <;> rfl

theorem statusFromState_stateFromStatus (s : TaskStatus) :
    statusFromState (stateFromStatus s) = some s := by
  cases s <;> rfl

end Backplane
