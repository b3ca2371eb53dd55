import Backplane.Concur.Discipline
import Backplane.Data.Table
import Backplane.Protocol.Frames

/-!
# Running the handler of a NewTask

The agent's side of a task.  The receive loop accepts a NewTask: it notes the task as active, sends the
Ack and creates an asyncio task for `_run_handler`, which runs the handler and answers with a Result.
An asyncio task that is cancelled gets a `CancelledError` at the next await at which it is suspended;
one that is cancelled before its first step never runs.

* `HandlerEnd`, `HandlerEnd.report` : how a handler ends, and what the Result says then.
* `HandlerAct` : what a handler does on the way, as far as the dispatcher has to clean up after it.
* `SdkAct`, `SdkAct.exec` : the atomic actions on the dispatcher's bookkeeping.
* `handleNewTask`, `runHandler` : the two coroutines, one after the other.
* `agentLoop` : the machine, for an agent with any handlers.
-/

namespace Backplane

open Concur Prog

/-! ### How a handler ends -/

/-- What a handler returns. -/
inductive HandlerReturn
  /-- An `AgentOutput`. -/
  | output (o : AgentOutput)
  /-- Another model, with its dump; `none`: the dump raises. -/
  | model (metadata : Option Json)
  /-- `None` -/
  | nothing
  /-- Anything else, as a string; `none`: `str` raises. -/
  | text (s : Option String)
  /-- A value that is not of the declared type; the names of the two. -/
  | mistyped (actual declared : String)
  deriving DecidableEq

/-- How a handler ends. -/
inductive HandlerEnd
  | returned (r : HandlerReturn)
  /-- `CancellationError`: code and text; `none`: an attribute of the exception raises or is no
  integer. -/
  | cancellation (statusCode : Option ℕ) (message : Option String)
  /-- `asyncio.CancelledError` -/
  | cancelled
  /-- Another `HandlerError`. -/
  | handlerError (name : String) (statusCode : Option ℕ) (message : Option String)
  | fileStoreError (code : String)
  /-- Any other `Exception`. -/
  | exception
  /-- Any other `BaseException`, such as `SystemExit`. -/
  | baseException
  deriving DecidableEq

/-- What a Result says. -/
structure TaskReport where
  status : TaskStatus
  statusCode : ℕ
  output : Option AgentOutput := none
  error : Option Json := none
  deriving DecidableEq

/-- The report of an exception nobody has classified. -/
def TaskReport.internalError : TaskReport where
  status := .failed
  statusCode := 500
  error := some [("code", "InternalError"), ("message", "internal_error")]

/-- The report of a value. -/
def HandlerReturn.report : HandlerReturn → TaskReport
  | output o => { status := .succeeded, statusCode := 200, output := some o }
  | model (some metadata) =>
    { status := .succeeded, statusCode := 200, output := some { content := "", metadata } }
  | nothing => { status := .succeeded, statusCode := 200, output := some { content := "" } }
  | text (some s) => { status := .succeeded, statusCode := 200, output := some { content := s } }
  | mistyped actual declared =>
    { status := .failed
      statusCode := 500
      error := some [("code", "HandlerError"),
        ("message", s!"handler returned {actual}; declared return type {declared}")] }
  | model none | text none => .internalError

/-- The report of how a handler ended; `none`: the exception goes on, and no Result is built. -/
def HandlerEnd.report : HandlerEnd → Option TaskReport
  | returned r => some r.report
  | cancellation statusCode message => do
    let statusCode ← statusCode
    let message ← message
    some { status := .cancelled, statusCode, error := some [("code", "cancelled"), ("message", message)] }
  | cancelled =>
    some { status := .cancelled
           statusCode := 499
           error := some [("code", "cancelled"), ("message", "handler task cancelled")] }
  | handlerError name statusCode message => do
    let statusCode ← statusCode
    let message ← message
    some { status := .failed, statusCode, error := some [("code", name), ("message", message)] }
  | fileStoreError code =>
    some { status := .failed
           statusCode := if code = "not_found" then 404 else 400
           error := some [("code", code), ("message", s!"file operation failed: {code}")] }
  | exception => some .internalError
  | baseException => none

/-! ### What a handler does -/

/-- A key of `pending_acks` or of `pending_results`. -/
inductive PendingKey
  | ack (correlationId : CorrelationId)
  /-- A task or a request whose Result is awaited. -/
  | result (key : String)
  deriving DecidableEq

/-- What a handler does on the way, by the type of the answer. -/
inductive HandlerAct : Type → Type 1
  /-- Wait at an await: does it raise `CancelledError`? -/
  | suspend : HandlerAct Bool
  | register (k : PendingKey) : HandlerAct Unit
  | openStream (child : TaskId) : HandlerAct Unit
  | closeStream (child : TaskId) : HandlerAct Unit
  /-- Have itself cancelled, as `asyncio.timeout` does. -/
  | cancelSelf : HandlerAct Unit
  /-- `cancel_token` -/
  | tripped : HandlerAct (Option String)

/-- A registered handler. -/
structure RegisteredHandler where
  /-- `input_model.model_validate`, with the reason of a refusal. -/
  validate : Json → Except String Unit
  fn : NewTaskFrame → Prog HandlerAct HandlerEnd

/-- An agent. -/
structure SdkAgent where
  agentId : AgentId
  /-- `_handlers_by_mode`, in order. -/
  handlersByMode : List (String × RegisteredHandler)

/-- `resolve_handler` -/
def SdkAgent.resolveHandler (agent : SdkAgent) : Option String → Option RegisteredHandler
  | none =>
    match agent.handlersByMode with
    | [(_, h)] => some h
    | _ => none
  | some mode => (agent.handlersByMode.find? fun x => x.1 = mode).map Prod.snd

/-! ### The dispatcher -/

/-- `_ActiveTask` -/
structure ActiveTask where
  /-- Which accepted NewTask it stands for. -/
  handler : ℕ
  /-- Why `cancel_token` was tripped. -/
  tripped : Option String := none
  handlerTask : Bool := false
  deriving DecidableEq

/-- An accepted NewTask and its asyncio task. -/
structure HandlerTask where
  frame : NewTaskFrame
  /-- `create_task` was called. -/
  created : Bool := false
  /-- A cancellation has been requested and not been delivered. -/
  cancelRequested : Bool := false
  done : Bool := false
  deriving DecidableEq

/-- A frame that the dispatcher sends. -/
inductive SdkFrame
  | ack (frame : AckFrame)
  | result (n : ℕ) (frame : ResultFrame)
  deriving DecidableEq

/-- The dispatcher's bookkeeping. -/
structure SdkState where
  /-- The size of the transport's outbox; zero is no bound. -/
  outboxSize : ℕ
  draining : Bool := false
  /-- The NewTasks accepted so far. -/
  tasks : List HandlerTask := []
  active : Table TaskId ActiveTask := ∅
  /-- `_task_correlations`; a key stands under the task of the NewTask that registered it. -/
  tracked : List (ℕ × PendingKey) := []
  /-- `_pending` of the two maps, with who registered the future. -/
  pending : Table PendingKey ℕ := ∅
  /-- `_untrack` callbacks that are due. -/
  callbacks : List (TaskId × PendingKey) := []
  /-- The streams that were opened, each with who opened it. -/
  opened : List (ℕ × TaskId) := []
  /-- `_progress_subscribers`, with who opened the stream. -/
  subscribers : Table TaskId ℕ := ∅
  /-- The frames put into the outbox. -/
  sent : List SdkFrame := []
  /-- How many of them the send pump has taken. -/
  taken : ℕ := 0

/-- What a step learns from outside. -/
structure SdkEnv where
  suspends : Bool := true
  /-- Whoever waits for room in the outbox and is no handler is cancelled. -/
  fault : Bool := false
  /-- The streams, by their child, that somebody still refers to. -/
  alive : List TaskId := []

/-- The atomic actions, by the type of their answer. -/
inductive SdkAct : Type → Type 1
  | draining : SdkAct Bool
  /-- Build the context of the task and note it in `_active`. -/
  | accept (frame : NewTaskFrame) : SdkAct ℕ
  /-- `transport.send`, as far as it gets at once: does it find room? -/
  | put (frame : SdkFrame) : SdkAct Bool
  /-- Wait in `transport.send` until there is room; `false`: it raises `CancelledError`. -/
  | awaitRoom (who : Option ℕ) (frame : SdkFrame) : SdkAct Bool
  | createTask (n : ℕ) : SdkAct Unit
  /-- The first step of the asyncio task; `false`: it was cancelled before. -/
  | begin (n : ℕ) : SdkAct Bool
  | handler (n : ℕ) {β : Type} (a : HandlerAct β) : SdkAct β
  /-- Leave the handler, and with it the first part of the `finally`. -/
  | finish (n : ℕ) (ended : HandlerEnd) : SdkAct Unit
  /-- Wait in the rest of the `finally`: is a `CancelledError` captured? -/
  | suspend (n : ℕ) : SdkAct Bool
  | exit (n : ℕ) : SdkAct Unit
  /-- `_handle_cancel` -/
  | cancelFrame (taskId : TaskId) (reason : String) : SdkAct Unit
  /-- `Task.cancel` -/
  | cancelTask (n : ℕ) : SdkAct Unit
  /-- `run_until` stops admitting. -/
  | drain : SdkAct Unit
  | settle (k : PendingKey) : SdkAct Unit
  /-- An `_untrack` callback runs. -/
  | untrack : SdkAct Unit
  | endSubscription (child : TaskId) : SdkAct Unit
  | pump : SdkAct Unit

namespace SdkState

variable (s : SdkState) (n : ℕ)

/-- The id of the task; `none` also where it is the placeholder that is not tracked. -/
def trackedId : Option TaskId := do
  let task ← s.tasks[n]?
  let taskId ← task.frame.taskId
  if taskId = "<spawn>" then none else some taskId

/-- A cancellation has been requested. -/
def struck : Bool := s.tasks[n]?.any HandlerTask.cancelRequested

/-- Change an asyncio task. -/
def setTask (f : HandlerTask → HandlerTask) : SdkState := { s with tasks := s.tasks.modify n f }

/-- The outbox is full. -/
def outboxFull : Bool := s.outboxSize ≠ 0 && decide (s.outboxSize ≤ s.sent.length - s.taken)

/-- Settle the futures under these keys. -/
def settle (ks : List PendingKey) : SdkState :=
  ks.foldl (fun s k =>
    match s.pending.lookup k with
    | none => s
    | some n =>
      { s with
        pending := s.pending.erase k
        callbacks := s.callbacks ++ ((s.trackedId n).map fun t => (t, k)).toList }) s

/-- The keys that stand under a task. -/
def keysOf (t : TaskId) : List PendingKey :=
  (s.tracked.filter fun x => s.trackedId x.1 = some t).map Prod.snd

/-- `_drain_task_correlations` -/
def drainTaskCorrelations (t : TaskId) : SdkState :=
  let keys := s.keysOf t
  { s with tracked := s.tracked.filter fun x => s.trackedId x.1 ≠ some t }.settle keys

/-- The streams of a handler that nobody refers to any more are finalized. -/
def finalize (alive : List TaskId) : SdkState :=
  { s with
    subscribers := s.subscribers.deleteWhere fun child _ =>
      decide ((n, child) ∈ s.opened) && !alive.contains child }

end SdkState

/-- What a handler's action does; `none` when it has to wait. -/
def HandlerAct.exec (n : ℕ) : {β : Type} → HandlerAct β → SdkState → SdkState × β
  | _, suspend, s => (s.setTask n fun task => { task with cancelRequested := false }, s.struck n)
  | _, register k, s =>
    ({ s with
        pending := s.pending.insert k n
        tracked := s.tracked ++ ((s.trackedId n).map fun _ => (n, k)).toList }, ())
  | _, openStream child, s =>
    ({ s with
        opened := s.opened ++ [(n, child)]
        subscribers := s.subscribers.insert child n }, ())
  | _, closeStream child, s => ({ s with subscribers := s.subscribers.erase child }, ())
  | _, cancelSelf, s => (s.setTask n fun task => { task with cancelRequested := true }, ())
  | _, tripped, s =>
    (s, do
      let task ← s.tasks[n]?
      let taskId ← task.frame.taskId
      (← s.active.lookup taskId).tripped)

/-- What an action does; `none` when it has to wait. -/
def SdkAct.exec : {β : Type} → SdkAct β → SdkEnv → SdkState → Option (SdkState × β)
  | _, draining, _, s => some (s, s.draining)
  | _, accept frame, _, s =>
    let n := s.tasks.length
    some ({ s with
      tasks := s.tasks ++ [{ frame }]
      active := match frame.taskId with
        | none => s.active
        | some taskId => s.active.insert taskId { handler := n } }, n)
  | _, put frame, _, s =>
    if s.outboxFull then some (s, false) else some ({ s with sent := s.sent ++ [frame] }, true)
  | _, awaitRoom who frame, e, s =>
    -- a cancellation comes first, even when there is room by now
    if who.elim e.fault s.struck then
      some (who.elim s fun n => s.setTask n fun task => { task with cancelRequested := false }, false)
    else if s.outboxFull then none
    else some ({ s with sent := s.sent ++ [frame] }, true)
  | _, createTask n, _, s =>
    let s := s.setTask n fun task => { task with created := true }
    some ({ s with
      active := match s.tasks[n]?.bind fun task => task.frame.taskId with
        | none => s.active
        | some taskId =>
          s.active.mapRows fun t x => if t = taskId then { x with handlerTask := true } else x }, ())
  | _, begin n, _, s =>
    if s.struck n then some (s.setTask n fun task => { task with done := true }, false)
    else some (s, true)
  | _, handler n a, _, s => some (a.exec n s)
  | _, finish n _, e, s =>
    let s := match s.tasks[n]?.bind fun task => task.frame.taskId with
      | none => s
      | some taskId =>
        { s with active := s.active.erase taskId }.drainTaskCorrelations taskId
    some (s.finalize n e.alive, ())
  | _, suspend n, e, s =>
    if e.suspends && s.struck n then
      some (s.setTask n fun task => { task with cancelRequested := false }, true)
    else some (s, false)
  | _, exit n, _, s => some (s.setTask n fun task => { task with done := true }, ())
  | _, cancelFrame taskId reason, _, s =>
    some ({ s with
      active := s.active.mapRows fun t x =>
        if t = taskId then { x with tripped := some (x.tripped.getD reason) } else x }, ())
  | _, cancelTask n, _, s =>
    if s.tasks[n]?.any fun task => task.created && !task.done then
      some (s.setTask n fun task => { task with cancelRequested := true }, ())
    else none
  | _, drain, _, s => some ({ s with draining := true }, ())
  | _, settle k, _, s => some (s.settle [k], ())
  | _, untrack, _, s =>
    match s.callbacks with
    | [] => none
    | (t, k) :: callbacks =>
      some ({ s with
        tracked := s.tracked.filter fun x => ¬(s.trackedId x.1 = some t ∧ x.2 = k)
        callbacks }, ())
  | _, endSubscription child, _, s =>
    some ({ s with subscribers := s.subscribers.erase child }, ())
  | _, pump, _, s => if s.taken < s.sent.length then some ({ s with taken := s.taken + 1 }, ()) else none

/-! ### The coroutines -/

/-- A program of the dispatcher. -/
abbrev SdkProg := Prog SdkAct

/-- `transport.send`; `false`: it raises `CancelledError`. -/
def SdkFrame.send (who : Option ℕ) (frame : SdkFrame) : SdkProg Bool := do
  if ← perform (.put frame) then pure true
  else perform (.awaitRoom who frame)

/-- The header of the answer to a frame. -/
def SdkAgent.header (agent : SdkAgent) (frame : NewTaskFrame) : Header :=
  { frame.header with agentId := agent.agentId }

/-- `_reject_new_task`; a reason that is too long raises. -/
def SdkAgent.rejectNewTask (agent : SdkAgent) (correlationId : CorrelationId) (frame : NewTaskFrame)
    (reason : String) : SdkProg Unit :=
  match AckFrame.build (agent.header frame) correlationId false (some reason) none with
  | none => pure ()
  | some ack => do
    let _ ← (SdkFrame.ack ack).send none
    pure ()

/-- The Result of a task. -/
def SdkAgent.resultFrame (agent : SdkAgent) (frame : NewTaskFrame) (report : TaskReport) :
    ResultFrame where
  header := agent.header frame
  taskId := frame.taskId.getD ""
  parentTaskId := frame.parentTaskId
  status := report.status
  statusCode := report.statusCode
  output := report.output
  error := report.error

/-- `_run_handler`; what it raises in the end concerns nobody. -/
def SdkAgent.runHandler (agent : SdkAgent) (handler : RegisteredHandler) (frame : NewTaskFrame)
    (n : ℕ) : SdkProg Unit := do
  if ← perform (.begin n) then
    let ended ← (handler.fn frame).mapAct fun a => SdkAct.handler n a
    perform (.finish n ended)
    -- `files.cleanup` and `progress.aclose`
    let _ ← perform (.suspend n)
    let _ ← perform (.suspend n)
    match ended.report with
    | none => pure ()
    | some report =>
      let _ ← (SdkFrame.result n (agent.resultFrame frame report)).send (some n)
      pure ()
    perform (.exit n)
  else pure ()

/-- `_handle_new_task`; from `create_task` on it is an asyncio task of its own. -/
def SdkAgent.handleNewTask (agent : SdkAgent) (correlationId : CorrelationId) (frame : NewTaskFrame) :
    SdkProg Unit := do
  if ← perform .draining then agent.rejectNewTask correlationId frame "agent_shutting_down"
  else
    match agent.resolveHandler frame.inputMode with
    | none => agent.rejectNewTask correlationId frame "no_handler"
    | some handler =>
      match handler.validate frame.payload with
      | .error reason => agent.rejectNewTask correlationId frame s!"validation_error: {reason}"
      | .ok () =>
        match AckFrame.build (agent.header frame) correlationId true none frame.taskId with
        | none => pure ()
        | some ack =>
          let n ← perform (.accept frame)
          if ← (SdkFrame.ack ack).send none then
            perform (.createTask n)
            agent.runHandler handler frame n
          else pure ()

/-- What can start at any time. -/
inductive SdkCall
  | newTask (correlationId : CorrelationId) (frame : NewTaskFrame)
  | cancel (taskId : TaskId) (reason : String)
  | cancelTask (n : ℕ)
  | drain
  /-- An answer arrives, or the reaper times its future out. -/
  | settle (k : PendingKey)
  /-- The event loop runs a callback. -/
  | untrack
  | childResult (child : TaskId)
  | pump

/-- The program of a call. -/
def SdkCall.body (agent : SdkAgent) : SdkCall → SdkProg Unit
  | newTask correlationId frame => agent.handleNewTask correlationId frame
  | cancel taskId reason => perform (.cancelFrame taskId reason)
  | cancelTask n => perform (.cancelTask n)
  | drain => perform .drain
  | settle k => perform (.settle k)
  | untrack => perform .untrack
  | childResult child => perform (.endSubscription child)
  | pump => perform .pump

/-- The event loop of an agent. -/
def agentLoop (agent : SdkAgent) : Machine SdkAct SdkEnv SdkState SdkCall Unit where
  exec := SdkAct.exec
  body := SdkCall.body agent

end Backplane
