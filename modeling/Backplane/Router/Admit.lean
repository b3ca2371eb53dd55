import Backplane.Router.Tasks

/-!
# Admitting tasks

`admit_task` validates a NewTask frame, creates the row, hands the frame to the destination and
waits for its ack; a frame that names a task delegates that task instead.

* `Exn` : what can propagate out of `admit_task`.
* `deliverFrame` : hand a frame over and wait for the frame that settles its future.
* `safeFail` : the compensation of a failed hand-over.
* `admitDelegation`, `admitTask`.
-/

namespace Backplane

open Concur Prog

/-- The exceptions `deliver_frame` raises when it awaits an ack. -/
inductive DeliverExn
  | agentNotConnected | queueFull | timeout | connectionError
  deriving DecidableEq, Repr

/-- What can propagate out of `admit_task`. -/
inductive Exn
  | admitError (e : AdmitError)
  /-- `asyncio.QueueFull` from the hand-over. -/
  | queueFull
  /-- `ConnectionError` from the hand-over: the socket went away. -/
  | connectionError
  /-- `AttributeError`: the frame that settled the future has no `accepted`. -/
  | attributeError
  /-- `asyncpg.UniqueViolationError` without a row to join. -/
  | uniqueViolation
  /-- `asyncpg.CheckViolationError`. -/
  | checkViolation
  deriving DecidableEq, Repr

/-- What `admit_task` hands back. -/
structure AdmitResult where
  taskId : TaskId
  /-- The terminal Result to replay, when a retry hits a task that has ended. -/
  replayResult : Option ResultFrame := none
  deriving DecidableEq, Repr

/-- Perform an action in a program that may raise. -/
def call {ε β : Type} (a : Act β) : Raising ε β := ExceptT.lift (perform a)

/-- Raise a typed refusal. -/
def refuse {α : Type} (code : AdmitCode) (message : String) (retryAfter : Option ℕ := none) :
    Raising Exn α :=
  throw (.admitError ⟨code, message, retryAfter⟩)

/-- Code replayed for a status whose row stores none. -/
def defaultTerminalStatusCode : TaskStatus → ℕ
  | .succeeded => 200
  | .failed => 500
  | .cancelled => 499
  | .timedOut => 504

/-- The answer to a retry that hit `existing`: replay a terminal Result, join a live task. -/
def idempotentAdmitResult (existing : TaskRow) (f : NewTaskFrame) : AdmitResult where
  taskId := existing.taskId
  replayResult := (statusFromState existing.state).map fun status =>
    { header := { f.header with agentId := existing.agentId }
      taskId := existing.taskId
      parentTaskId := existing.parentTaskId
      status := status
      statusCode := existing.statusCode.getD (defaultTerminalStatusCode status)
      output := existing.output
      error := existing.error }

/-- Hand a frame to an agent and wait for the frame that settles its future. -/
def deliverFrame (dst : AgentId) (f : Frame) : Coroutine (Except DeliverExn Frame) := do
  match ← perform (.deliverAwait dst f) with
  | .error .queueFull => pure (.error .queueFull)
  | .error _ => pure (.error .agentNotConnected)
  | .ok ticket =>
    match ← perform (.awaitAck ticket) with
    | .frame ack => pure (.ok ack)
    | .timeout => pure (.error .timeout)
    | .connectionError => pure (.error .connectionError)

variable (cfg : Config)

/-- Look up the caller and an active destination. -/
def lookupAgents (callerAgentId destination : AgentId) : Raising Exn (AgentRow × AgentRow) := do
  let (caller, callee) ← call (.read fun s =>
    (s.db.agents.lookup callerAgentId, s.db.agents.lookup destination))
  match caller, callee with
  | none, _ => refuse .agentNotFound s!"caller '{callerAgentId}' unknown"
  | some _, none => refuse .agentNotFound s!"destination '{destination}' unknown"
  | some caller, some callee =>
    if callee.status ≠ .active then
      refuse .agentNotFound s!"destination '{destination}' not active"
    else pure (caller, callee)

/-- The level of the frame's user. -/
def requireLevel (f : NewTaskFrame) : Raising Exn String := do
  match ← call (.sessionLevel f.userId) with
  | none => refuse .userUnknown s!"user '{f.userId}' is unknown or suspended"
  | some level => pure level

/-- The access check of a spawn (`verb` is `invoke`) or a delegation (`delegate to`). -/
def requireAllowed (verb : String) (f : NewTaskFrame) (callerAgentId : AgentId)
    (caller callee : AgentRow) (level : String) : Raising Exn Unit := do
  let decision ← call (.read fun s => isAllowed s.rules caller.view callee.view level)
  if decision.allow then pure ()
  else refuse .aclDenied (s!"caller '{callerAgentId}' may not {verb} " ++
    s!"'{f.destinationAgentId}' (rule={decision.ruleName})")

/-- The frame delivered to a delegate. -/
def delegationFrame (f : NewTaskFrame) (p : DelegationPlan) (callerAgentId : AgentId)
    (level : String) : NewTaskFrame where
  header := f.header.fromRouter
  taskId := some p.taskId
  parentTaskId := p.parentTaskId
  destinationAgentId := f.destinationAgentId
  userId := f.userId
  userLevel := level
  sessionId := f.sessionId
  priority := p.priority
  deadline := some p.deadline
  payload := f.payload
  delegatingAgentId := some callerAgentId
  inputMode := f.inputMode

/-- Delegation branch of `admit_task`: validate (phase A), ask the destination (phase B), flip the
executor (phase C). -/
def admitDelegation (f : NewTaskFrame) (taskId : TaskId) (callerAgentId : AgentId) :
    Raising Exn TaskId := do
  let (caller, callee) ← lookupAgents callerAgentId f.destinationAgentId
  let level ← requireLevel f
  requireAllowed "delegate to" f callerAgentId caller callee level
  match ← call (.delegationPhaseA f taskId callerAgentId) with
  | .error e => throw (.admitError e)
  | .ok plan =>
    match ← ExceptT.lift (deliverFrame f.destinationAgentId
        (.newTask (delegationFrame f plan callerAgentId level))) with
    | .error .agentNotConnected =>
      refuse .agentDisconnected "destination agent has no live socket"
    | .error .timeout => refuse .ackTimeout "destination agent did not ack delegation in time"
    | .error .queueFull => throw .queueFull
    | .error .connectionError => throw .connectionError
    | .ok (.ack ack) =>
      if !ack.accepted then
        refuse .rejected ((ack.reason.filter (· ≠ "")).getD "destination rejected the delegation")
      else
        match ← call (.delegationPhaseC f plan.taskId callerAgentId) with
        | .error e => throw (.admitError e)
        | .ok () => pure plan.taskId
    | .ok _ => throw .attributeError

/-- Pick the schema the payload has to match, if any. -/
def schemaForAdmit (callee : AgentRow) (f : NewTaskFrame) : Except AdmitError (Option Json) :=
  match callee.acceptsSchema with
  | none | some [] => .ok none
  | some schemas =>
    let modes := pyReprList cfg.isPrintable ((schemas.map Prod.fst).insertionSort (· ≤ ·))
    match f.inputMode with
    | none =>
      match schemas with
      | [(_, schema)] => .ok schema
      | _ => .error ⟨.schemaMismatch, "destination exposes multiple modes (" ++ modes ++
          "); NewTaskFrame.input_mode is required", none⟩
    | some mode =>
      match schemas.lookup mode with
      | none => .error ⟨.schemaMismatch, "unknown input_mode " ++ pyRepr cfg.isPrintable mode ++
          "; destination modes: " ++ modes, none⟩
      | some schema => .ok schema

/-- Validate the payload against the destination's schema. -/
def checkPayload (callee : AgentRow) (f : NewTaskFrame) : Except AdmitError Unit :=
  match schemaForAdmit cfg callee f with
  | .error e => .error e
  | .ok none | .ok (some []) => .ok ()
  | .ok (some schema) =>
    match cfg.validate f.payload schema with
    | .ok () => .ok ()
    | .error (.validation message) => .error ⟨.schemaMismatch,
        "payload does not match destination's accepts_schema[" ++
          pyReprOption cfg.isPrintable f.inputMode ++ "]: " ++ message, none⟩
    | .error (.schema message) => .error ⟨.internalError,
        "destination's accepts_schema[" ++ pyReprOption cfg.isPrintable f.inputMode ++
          "] is invalid: " ++ message, none⟩

/-- The pre-flight check of the session: it is the user's and still open. -/
def requireOpenSession (f : NewTaskFrame) : Raising Exn Unit := do
  match ← call (.read fun s => s.db.getSession f.userId f.sessionId) with
  | none => throw (.admitError (sessionUnknown f))
  | some row =>
    if row.closedAt.isSome then
      refuse .sessionClosed s!"session '{f.sessionId}' is closed; open a new session"
    else pure ()

/-- The admit-rate bucket of the user. -/
def requireQuota (level : String) : Raising Exn Unit := do
  if cfg.admitRateLimited level then
    match ← call (.env Env.quotaRetryAfter) with
    | none => pure ()
    | some retryAfter =>
      refuse .quotaExceeded
        ("per-user admit rate exceeded (level=" ++ level ++ ", retry after " ++
          twoDecimals retryAfter ++ "s)") (some retryAfter)
  else pure ()

/-- The bound on the ancestor chain of a spawned task. -/
def requireSpawnDepth (f : NewTaskFrame) : Raising Exn Unit :=
  match f.parentTaskId with
  | none => pure ()
  | some parent => do
    let parentDepth ← call (.countTaskChainDepth f.userId parent)
    if parentDepth ≥ cfg.spawnMaxDepth then
      refuse .spawnDepthExceeded (s!"spawn would exceed max depth ({parentDepth + 1} > " ++
        s!"{cfg.spawnMaxDepth}); agents may have entered a recursion cycle")
    else pure ()

/-- The frame delivered to the destination of a spawn. -/
def spawnFrame (f : NewTaskFrame) (row : TaskRow) (level : String) : NewTaskFrame where
  header := f.header.fromRouter
  taskId := some row.taskId
  parentTaskId := row.parentTaskId
  destinationAgentId := f.destinationAgentId
  userId := f.userId
  userLevel := level
  sessionId := f.sessionId
  priority := f.priority
  deadline := some row.deadline
  payload := f.payload
  inputMode := f.inputMode

/-- Best-effort terminal transition on an admission failure: `fail_task`, and if the database
fails in it, the single-statement fallback, whose own failure is swallowed. -/
def safeFail (t : TaskId) (userId : UserId) (statusCode : ℕ) (reason : String) (error : Json) :
    Coroutine Unit := do
  let failed ← (failTask t (some userId) { statusCode, reason, error := some error }).interruptible
    .fault
  match failed with
  | some () => pure ()
  | none =>
    if ← perform .fault then pure ()
    else do
      let _ ← perform (.forceFailTask userId t statusCode (some error))

/-- Hand a created task to its destination, compensate when that fails, and mark it running. -/
def dispatchTask (f : NewTaskFrame) (row : TaskRow) (level : String) : Raising Exn AdmitResult := do
  match ← ExceptT.lift (deliverFrame f.destinationAgentId (.newTask (spawnFrame f row level))) with
  | .error .agentNotConnected => do
    ExceptT.lift (safeFail row.taskId f.userId 503 "agent_disconnected"
      [("code", "agent_disconnected")])
    refuse .agentDisconnected "destination agent has no live socket"
  | .error .timeout => do
    ExceptT.lift (safeFail row.taskId f.userId 504 "ack_timeout" [("code", "ack_timeout")])
    refuse .ackTimeout "destination agent did not ack in time"
  | .error .queueFull => throw .queueFull
  | .error .connectionError => throw .connectionError
  | .ok (.ack ack) =>
    if !ack.accepted then do
      let reason := (ack.reason.filter (· ≠ "")).getD "rejected"
      let bounded := String.ofList (reason.toList.take 240)
      ExceptT.lift (safeFail row.taskId f.userId 400 bounded
        [("code", "rejected"), ("reason", bounded)])
      refuse .rejected bounded
    else do
      -- a very fast handler may have ended the task already
      let _ ← call (.transition row.taskId .running
        { reason := "agent_accepted", actor := some f.destinationAgentId })
      pure { taskId := row.taskId }
  | .ok _ => throw .attributeError

/-- Create the row and hand it to the destination, or join the task that holds the key. -/
def createAndDispatch (f : NewTaskFrame) (callerAgentId : AgentId) (level : String) :
    Raising Exn AdmitResult := do
  let now ← call (.env Env.now)
  let deadline := f.deadline.getD (now + cfg.defaultTaskDeadlineS)
  match ← call (.createTask f callerAgentId deadline) with
  | .refused e => throw (.admitError e)
  | .checkViolation => throw .checkViolation
  | .uniqueViolation => do
    let racer ← call (.read fun s =>
      f.idempotencyKey.bind fun key => s.db.findIdempotent f.userId key callerAgentId)
    match racer with
    | none => throw .uniqueViolation
    | some existing => pure (idempotentAdmitResult existing f)
  | .created row => do
    call (.cacheCallerAgent row.taskId callerAgentId f.destinationAgentId)
    dispatchTask f row level

/-- The checks of a spawn up to the insert; answers the user's level. -/
def preflight (f : NewTaskFrame) (callerAgentId : AgentId) : Raising Exn String := do
  let (caller, callee) ← lookupAgents callerAgentId f.destinationAgentId
  match checkPayload cfg callee f with
  | .error e => throw (.admitError e)
  | .ok () =>
    let level ← requireLevel f
    requireOpenSession f
    requireAllowed "invoke" f callerAgentId caller callee level
    requireQuota cfg level
    requireSpawnDepth cfg f
    pure level

/-- The task an earlier request with the frame's key created. -/
def joinExisting (f : NewTaskFrame) (callerAgentId : AgentId) : Raising Exn (Option TaskRow) :=
  match f.idempotencyKey.filter (· ≠ "") with
  | none => pure none
  | some key => call (.read fun s => s.db.findIdempotent f.userId key callerAgentId)

/-- Validate, ACL-check, persist and dispatch a new task; hand on an existing one. -/
def admitTask (f : NewTaskFrame) (callerAgentId : AgentId) : Raising Exn AdmitResult :=
  match f.taskId with
  | some t => do
    let t ← admitDelegation f t callerAgentId
    pure { taskId := t }
  | none => do
    match ← joinExisting f callerAgentId with
    | some existing => pure (idempotentAdmitResult existing f)
    | none =>
      let level ← preflight cfg f callerAgentId
      createAndDispatch cfg f callerAgentId level

end Backplane
