import Backplane.Protocol.Types
import Mathlib.Data.Nat.Notation

/-!
# Frames

The frames that travel between the router and an agent's socket, with the fields the router reads
or writes.  `correlation_id` is chosen when a frame is built and is the same for every frame type,
so it sits on the `Envelope`.

* `NewTaskFrame`, `ResultFrame`, `ProgressFrame`, `CancelFrame`, `AckFrame`, …
* `AckFrame` carries the bound on its reason as a field; `AckFrame.build` is the model's validating
  constructor and refuses a longer one.
-/

namespace Backplane

/-- The trace context and the sender, present on every frame. -/
structure Header where
  /-- Who the frame is from; the router stamps its own frames `"router"`. -/
  agentId : AgentId
  traceId : String
  spanId : String
  deriving DecidableEq, Repr

/-- Header of a frame the router builds in answer to a frame with header `h`. -/
def Header.fromRouter (h : Header) : Header := { h with agentId := "router" }

/-- Header of a frame the router builds on its own account. -/
def Header.router : Header where
  agentId := "router"
  traceId := "00000000000000000000000000000000"
  spanId := "0000000000000000"

/-- Spawn (`taskId = none`) or delegate (`taskId` set). -/
structure NewTaskFrame where
  header : Header
  /-- The task handed on; `none` on a spawn. -/
  taskId : Option TaskId := none
  parentTaskId : Option TaskId := none
  destinationAgentId : AgentId
  userId : UserId
  /-- The user's level; set by the router on outbound delivery. -/
  userLevel : String := ""
  sessionId : SessionId
  priority : TaskPriority := .normal
  /-- When the task times out. -/
  deadline : Option ℕ := none
  /-- Key under which a retry joins the first attempt. -/
  idempotencyKey : Option String := none
  /-- Which of the destination's modes the payload targets. -/
  inputMode : Option String := none
  payload : Json := []
  /-- The agent that handed the task on; stamped by the router on delivery. -/
  delegatingAgentId : Option AgentId := none
  deriving DecidableEq, Repr

/-- Terminal outcome of a task. -/
structure ResultFrame where
  header : Header
  taskId : TaskId
  parentTaskId : Option TaskId := none
  status : TaskStatus
  statusCode : ℕ
  output : Option AgentOutput := none
  error : Option Json := none
  deriving DecidableEq, Repr

/-- Interim event during a long-running task. -/
structure ProgressFrame where
  header : Header
  taskId : TaskId
  event : String
  content : String := ""
  metadata : Json := []
  deriving DecidableEq, Repr

/-- Request to abort a task, or (with `refCorrelationId`) one LLM call. -/
structure CancelFrame where
  header : Header
  taskId : Option TaskId := none
  /-- The LLM call to abort. -/
  refCorrelationId : Option CorrelationId := none
  reason : String := "user_aborted"
  deriving DecidableEq, Repr

/-- Bound on the reason of an Ack. -/
def ackReasonMax : ℕ := 256

/-- Receipt acknowledgement. -/
structure AckFrame where
  header : Header
  refCorrelationId : CorrelationId
  accepted : Bool
  reason : Option String
  taskId : Option TaskId
  /-- A longer reason does not validate. -/
  reason_le : ∀ r ∈ reason, r.length ≤ ackReasonMax
  deriving DecidableEq

/-- Validate and build an Ack; `none` when the reason is too long. -/
def AckFrame.build (header : Header) (refCorrelationId : CorrelationId) (accepted : Bool)
    (reason : Option String) (taskId : Option TaskId) : Option AckFrame :=
  if h : ∀ r ∈ reason, r.length ≤ ackReasonMax then
    some ⟨header, refCorrelationId, accepted, reason, taskId, h⟩
  else none

/-- Liveness probe. -/
structure PingFrame where
  header : Header
  deriving DecidableEq, Repr

/-- Answer to a Ping. -/
structure PongFrame where
  header : Header
  refCorrelationId : CorrelationId
  deriving DecidableEq, Repr

/-- What to do when a name is already bound to another blob. -/
inductive Dedup
  | appendCount | overwrite | error
  deriving DecidableEq, Repr

/-- Bind an already-uploaded blob to a name. -/
structure FileStoreFrame where
  header : Header
  /-- The task under whose authority the name is bound. -/
  taskId : TaskId
  sha256 : String
  filename : Option String := none
  /-- User-wide rather than session-scoped. -/
  persistent : Bool := false
  /-- What to do about a collision. -/
  dedup : Dedup := .appendCount
  deriving DecidableEq, Repr

/-- Answer to a file operation. -/
structure FileResultFrame where
  header : Header
  refCorrelationId : CorrelationId
  error : Option String := none
  savedName : Option String := none
  deriving DecidableEq, Repr

/-- The frames of the task protocol. -/
inductive Frame
  | newTask (f : NewTaskFrame)
  | result (f : ResultFrame)
  | progress (f : ProgressFrame)
  | cancel (f : CancelFrame)
  | ack (f : AckFrame)
  | ping (f : PingFrame)
  | pong (f : PongFrame)
  | fileStore (f : FileStoreFrame)
  | fileResult (f : FileResultFrame)
  deriving DecidableEq

/-- A frame with its correlation id. -/
structure Envelope where
  correlationId : CorrelationId
  frame : Frame
  deriving DecidableEq

namespace AckFrame

variable {h : Header} {ref : CorrelationId} {acc : Bool} {r : Option String} {t : Option TaskId}

theorem build_eq_some {a : AckFrame} (hb : build h ref acc r t = some a) :
    a.header = h ∧ a.refCorrelationId = ref ∧ a.accepted = acc ∧ a.reason = r ∧ a.taskId = t := by
  unfold build at hb
  split_ifs at hb
  obtain rfl := Option.some.inj hb
  exact ⟨rfl, rfl, rfl, rfl, rfl⟩

theorem build_eq_none : build h ref acc r t = none ↔ ∃ s ∈ r, ackReasonMax < s.length := by
  unfold build
  split_ifs with hr
  · simpa using hr
  · simpa using hr

end AckFrame

end Backplane
