import Backplane.Protocol.Frames
import Backplane.Sdk.Correlation

/-!
# Spawn streams

An agent that spawns a child task with `stream=True` awaits the Ack, and then subscribes to the
child's progress: from there on the dispatcher puts every Progress frame of the task, and at last
its Result, into the queue that the stream iterates.  Progress that comes before the subscription
waits in a buffer, a Result that comes before it waits in the `PendingMap` of the results.

* `Dispatcher` : the part of the dispatcher that streams need, with the streams it has opened.
* `Dispatcher.openSpawnStream`, `Dispatcher.handleProgress`, `Dispatcher.handleResult` : the two
  ends of the queue.
* `Dispatcher.anext` : one step of the caller's iteration.
* `StreamEvent`, `Dispatcher.run` : what can happen on the event loop, in any order.
-/

namespace Backplane

variable {E : Type} {α : Type}

/-- `asyncio.Queue`; a maximal size of zero is none. -/
structure BoundedQueue (α : Type) where
  maxsize : ℕ
  items : List α := []
  deriving DecidableEq

/-- `full` -/
def BoundedQueue.full (q : BoundedQueue α) : Bool :=
  q.maxsize ≠ 0 && decide (q.maxsize ≤ q.items.length)

/-- `put_nowait`; `none`: it raises `QueueFull`. -/
def BoundedQueue.putNowait (q : BoundedQueue α) (x : α) : Option (BoundedQueue α) :=
  if q.full then none else some { q with items := q.items ++ [x] }

theorem BoundedQueue.putNowait_eq_some {q q' : BoundedQueue α} {x : α}
    (h : q.putNowait x = some q') : q' = { q with items := q.items ++ [x] } := by
  unfold putNowait at h
  split_ifs at h
  exact (Option.some.inj h).symm

/-- `put_nowait`, with a `QueueFull` swallowed. -/
def BoundedQueue.offer (q : BoundedQueue α) (x : α) : BoundedQueue α := (q.putNowait x).getD q

/-- Put one after the other, up to the first that meets a full queue; and what is left. -/
def BoundedQueue.putEach (q : BoundedQueue α) : List α → BoundedQueue α × List α
  | [] => (q, [])
  | x :: xs =>
    match q.putNowait x with
    | some q => q.putEach xs
    | none => (q, x :: xs)

/-- What the queue of a stream holds. -/
inductive StreamItem
  | progress (frame : ProgressFrame)
  | result (frame : ResultFrame)
  | closed
  deriving DecidableEq

/-- The Progress frame that it is. -/
def StreamItem.progress? : StreamItem → Option ProgressFrame
  | progress frame => some frame
  | _ => none

/-- `SpawnStream`, with what its iteration has yielded. -/
structure SpawnStream where
  taskId : TaskId
  queue : BoundedQueue StreamItem
  /-- `_result_fut`, by its place among the futures. -/
  resultFut : ℕ
  result : Option ResultFrame := none
  closed : Bool := false
  /-- The iteration waits in `queue.get()`. -/
  parked : Bool := false
  yielded : List ProgressFrame := []
  deriving DecidableEq

/-- Why a Progress frame is dropped. -/
inductive DropReason
  /-- `progress_buffer_per_task_cap` -/
  | perTaskCap
  /-- `progress_buffer_task_cap_evicted_oldest` -/
  | evictedOldest
  /-- `progress_buffer_drain_subscriber_full` -/
  | drainSubscriberFull
  | subscriberFull
  /-- The Result is awaited without progress. -/
  | unwanted
  deriving DecidableEq

/-- A Progress frame that was dropped, as it is logged. -/
structure ProgressDrop where
  taskId : TaskId
  reason : DropReason
  frame : ProgressFrame
  deriving DecidableEq

/-- What a spawn raises. -/
inductive SpawnError (E : Type)
  | ackTimeout
  | spawnRejected (reason : Option String)
  | unexpectedResponse
  /-- Whatever else the future of the Ack raises. -/
  | other (exc : E)
  | cancelled
  deriving DecidableEq

/-- How a spawn goes on once it has its Ack. -/
inductive SpawnNext (E : Type)
  | raises (exc : SpawnError E)
  | returns (taskId : TaskId)
  | streams (taskId : TaskId)
  | awaits (taskId : TaskId)
  deriving DecidableEq

/-- A call of `peers.spawn` that awaits its Ack. -/
structure SpawnCall where
  ackFut : ℕ
  wait : Bool
  stream : Bool
  timeout : Option ℕ
  resumed : Bool := false
  deriving DecidableEq

/-- The settings of the dispatcher's maps. -/
structure DispatcherSettings (E : Type) where
  /-- Those of `pending_acks`. -/
  acks : PendingSettings
  /-- Those of `pending_results`. -/
  results : PendingSettings
  /-- `TimeoutError`, as the reaper raises it. -/
  timedOut : E

/-- `_PROGRESS_BUFFER_PER_TASK` -/
def progressBufferPerTask : ℕ := 16

/-- `_PROGRESS_BUFFER_MAX_TASKS` -/
def progressBufferMaxTasks : ℕ := 256

/-- `Dispatcher`, as far as streams need it, with the streams and the calls there have been. -/
structure Dispatcher (E : Type) where
  pendingAcks : PendingMap CorrelationId AckFrame E := {}
  pendingResults : PendingMap TaskId ResultFrame E := {}
  /-- `_progress_subscribers`; a subscriber by the stream that has its queue. -/
  progressSubscribers : Table TaskId ℕ := ∅
  pendingProgressBuffer : Table TaskId (List ProgressFrame) := ∅
  streams : List SpawnStream := []
  spawns : List SpawnCall := []
  dropped : List ProgressDrop := []
  /-- The tasks whose Result has been dispatched. -/
  finished : List TaskId := []

namespace Dispatcher

variable (cfg : DispatcherSettings E) (now : ℕ) (d : Dispatcher E)

/-- Replace a stream. -/
def setStream (s : ℕ) (st : SpawnStream) : Dispatcher E :=
  { d with streams := d.streams.set s st }

/-- Drop frames of a task, and say why. -/
def drop (taskId : TaskId) (reason : DropReason) (frames : List ProgressFrame) : Dispatcher E :=
  { d with dropped := d.dropped ++ frames.map (ProgressDrop.mk taskId reason) }

/-- `unsubscribe_progress` -/
def unsubscribeProgress (taskId : TaskId) : Dispatcher E :=
  { d with progressSubscribers := d.progressSubscribers.erase taskId }

/-! ### The dispatcher's end of the queue -/

/-- Make room in the buffer for another task. -/
def evictOldest : Dispatcher E :=
  match d.pendingProgressBuffer.entries.getLast? with
  | none => d
  | some oldest =>
    { d with pendingProgressBuffer := d.pendingProgressBuffer.dropOldest }.drop oldest.1
      .evictedOldest oldest.2

/-- `_buffer_pending_progress` -/
def bufferPendingProgress (frame : ProgressFrame) : Dispatcher E :=
  match d.pendingProgressBuffer.lookup frame.taskId with
  | none =>
    let d := if progressBufferMaxTasks ≤ d.pendingProgressBuffer.entries.length then d.evictOldest
      else d
    { d with pendingProgressBuffer := d.pendingProgressBuffer.assign frame.taskId [frame] }
  | some existing =>
    if progressBufferPerTask ≤ existing.length then d.drop frame.taskId .perTaskCap [frame]
    else
      { d with
        pendingProgressBuffer := d.pendingProgressBuffer.assign frame.taskId (existing ++ [frame]) }

/-- `_handle_progress` -/
def handleProgress (frame : ProgressFrame) : Dispatcher E :=
  match d.progressSubscribers.lookup frame.taskId with
  | none =>
    -- a spawn that waits without a stream does not want progress
    if (d.pendingResults.pending.lookup frame.taskId).isSome then
      d.drop frame.taskId .unwanted [frame]
    else d.bufferPendingProgress frame
  | some s =>
    match d.streams[s]? with
    | none => d
    | some st =>
      match st.queue.putNowait (.progress frame) with
      | some queue => d.setStream s { st with queue }
      | none => d.drop frame.taskId .subscriberFull [frame]

/-- End the subscription of the task with its Result, if there is one. -/
def endSubscription (frame : ResultFrame) : Dispatcher E :=
  match d.progressSubscribers.lookup frame.taskId with
  | none => d
  | some s =>
    { d.unsubscribeProgress frame.taskId with
      streams := d.streams.modify s fun st => { st with queue := st.queue.offer (.result frame) } }

/-- `_dispatch` of a Result. -/
def handleResult (frame : ResultFrame) : Dispatcher E :=
  let (pendingResults, found) := d.pendingResults.resolve cfg.results now frame.taskId frame
  let d := { d with pendingResults, finished := frame.taskId :: d.finished }
  match found with
  | none => d
  | some _ =>
    let d := d.endSubscription frame
    { d with pendingProgressBuffer := d.pendingProgressBuffer.erase frame.taskId }

/-! ### The caller's end of the queue -/

/-- A second subscription to a task displaces the first. -/
def displace (taskId : TaskId) : Dispatcher E :=
  match d.progressSubscribers.lookup taskId with
  | none => d
  | some s =>
    { d with
      streams := d.streams.modify s fun st => { st with queue := st.queue.offer .closed } }

/-- `subscribe_progress`; the queue is the one of the next stream. -/
def subscribeProgress (taskId : TaskId) (maxsize : ℕ) : Dispatcher E × BoundedQueue StreamItem :=
  let d := d.displace taskId
  let buffered := (d.pendingProgressBuffer.lookup taskId).getD []
  let (queue, left) := BoundedQueue.putEach ⟨maxsize, []⟩ (buffered.map StreamItem.progress)
  ({ d with
      progressSubscribers := d.progressSubscribers.assign taskId d.streams.length
      pendingProgressBuffer := d.pendingProgressBuffer.erase taskId }.drop taskId .drainSubscriberFull
        (left.filterMap StreamItem.progress?), queue)

/-- `open_spawn_stream` -/
def openSpawnStream (taskId : TaskId) (timeout : Option ℕ) (maxsize : ℕ) : Dispatcher E :=
  let (d, queue) := d.subscribeProgress taskId maxsize
  let (pendingResults, resultFut) := d.pendingResults.register cfg.results now taskId timeout
  { d with pendingResults, streams := d.streams ++ [{ taskId, queue, resultFut }] }

/-- What one call of `__anext__` comes to. -/
inductive NextOutcome
  /-- It returns a frame. -/
  | yields (frame : ProgressFrame)
  | stops
  deriving DecidableEq

/-- `__anext__`, up to its return; `none`: it waits in `queue.get()`, and is called again to go
on. -/
def anext (s : ℕ) : Dispatcher E × Option NextOutcome :=
  match d.streams[s]? with
  | none => (d, none)
  | some st =>
    if st.result.isSome && !st.parked then (d.unsubscribeProgress st.taskId, some .stops)
    else
      match st.queue.items with
      | [] => (d.setStream s { st with parked := true }, none)
      | item :: items =>
        let st := { st with queue.items := items, parked := false }
        match item with
        | .closed => (d.setStream s st, some .stops)
        | .result frame =>
          ((d.setStream s { st with result := some frame }).unsubscribeProgress st.taskId,
            some .stops)
        | .progress frame =>
          (d.setStream s { st with yielded := st.yielded ++ [frame] }, some (.yields frame))

/-- `result`, once the future has a value. -/
def readResult (s : ℕ) : Dispatcher E :=
  match d.streams[s]? with
  | none => d
  | some st =>
    match st.result, d.pendingResults.futures[st.resultFut]? with
    | none, some (_, .settled (.ok frame)) =>
      (d.setStream s { st with result := some frame }).unsubscribeProgress st.taskId
    | _, _ => d

/-- `result`, when it times out; also what `__del__` does. -/
def release (s : ℕ) : Dispatcher E :=
  match d.streams[s]? with
  | none => d
  | some st => d.unsubscribeProgress st.taskId

/-- `aclose` -/
def aclose (s : ℕ) : Dispatcher E :=
  match d.streams[s]? with
  | none => d
  | some st =>
    if st.closed then d
    else
      { (d.setStream s { st with closed := true, queue := st.queue.offer .closed }).unsubscribeProgress
          st.taskId with
        pendingResults := d.pendingResults.settle st.resultFut .cancelled }

/-! ### Spawning -/

/-- The first part of `spawn`: register the Ack and send the frame. -/
def spawn (correlationId : CorrelationId) (wait stream : Bool) (timeout : Option ℕ) :
    Dispatcher E :=
  if stream && !wait then d
  else
    let (pendingAcks, ackFut) := d.pendingAcks.register cfg.acks now correlationId none
    { d with pendingAcks, spawns := d.spawns ++ [{ ackFut, wait, stream, timeout }] }

/-- How a spawn goes on with what has become of its Ack. -/
def SpawnCall.next [DecidableEq E] (call : SpawnCall) :
    FutureState AckFrame E → Option (SpawnNext E)
  | .waiting => none
  | .cancelled => some (.raises .cancelled)
  | .settled (.error exc) =>
    some (.raises (if exc = cfg.timedOut then .ackTimeout else .other exc))
  | .settled (.ok ack) =>
    if ack.accepted then
      match ack.taskId with
      | none => some (.raises .unexpectedResponse)
      | some taskId =>
        some (if !call.wait then .returns taskId
          else if call.stream then .streams taskId else .awaits taskId)
    else some (.raises (.spawnRejected ack.reason))

/-- How a spawn goes on, if it can. -/
def resumption [DecidableEq E] (i : ℕ) : Option (SpawnCall × SpawnNext E) := do
  let call ← d.spawns[i]?
  let ack ← d.pendingAcks.futures[call.ackFut]?
  if call.resumed then none
  else (SpawnCall.next cfg call ack.2).map (Prod.mk call)

/-- The second part of `spawn`. -/
def resumeSpawn [DecidableEq E] (i : ℕ) : Dispatcher E :=
  match d.resumption cfg i with
  | none => d
  | some (call, next) =>
    let d := { d with spawns := d.spawns.set i { call with resumed := true } }
    match next with
    | .raises _ => d
    | .returns _ => d
    | .streams taskId => d.openSpawnStream cfg now taskId call.timeout 0
    | .awaits taskId =>
      { d with
        pendingResults := (d.pendingResults.register cfg.results now taskId call.timeout).1 }

end Dispatcher

/-! ### What can happen -/

/-- What else happens to the futures of a map. -/
inductive FutureOp (K E : Type)
  | reject (k : K) (exc : E)
  | rejectAll (exc : E)
  /-- One round of `_reap`. -/
  | reap
  /-- Who awaits this future is cancelled. -/
  | cancel (i : ℕ)

/-- As an operation on the map. -/
def FutureOp.toPendingOp {K V : Type} : FutureOp K E → PendingOp K V E
  | reject k exc => .reject k exc
  | rejectAll exc => .rejectAll exc
  | reap => .reap
  | cancel i => .cancel i

/-- What happens on the event loop. -/
inductive StreamEvent (E : Type)
  /-- `peers.spawn` is called. -/
  | spawn (correlationId : CorrelationId) (wait stream : Bool) (timeout : Option ℕ)
  | ack (frame : AckFrame)
  /-- A spawn goes on after its Ack. -/
  | resume (i : ℕ)
  /-- `open_spawn_stream`, for a task that was admitted elsewhere. -/
  | openStream (taskId : TaskId) (timeout : Option ℕ) (maxsize : ℕ)
  | progress (frame : ProgressFrame)
  | result (frame : ResultFrame)
  | next (s : ℕ)
  /-- The caller's `result()` returns. -/
  | readResult (s : ℕ)
  /-- The caller's `result()` times out. -/
  | giveUp (s : ℕ)
  | aclose (s : ℕ)
  | del (s : ℕ)
  /-- Something else happens to the futures of the Acks. -/
  | acks (op : FutureOp CorrelationId E)
  /-- Something else happens to the futures of the Results. -/
  | results (op : FutureOp TaskId E)

namespace Dispatcher

variable [DecidableEq E] (cfg : DispatcherSettings E)

/-- What an event does at a time. -/
def apply (d : Dispatcher E) (now : ℕ) : StreamEvent E → Dispatcher E
  | .spawn c wait stream timeout => d.spawn cfg now c wait stream timeout
  | .ack frame =>
    { d with
      pendingAcks := (d.pendingAcks.resolve cfg.acks now frame.refCorrelationId frame).1 }
  | .resume i => d.resumeSpawn cfg now i
  | .openStream taskId timeout maxsize => d.openSpawnStream cfg now taskId timeout maxsize
  | .progress frame => d.handleProgress frame
  | .result frame => d.handleResult cfg now frame
  | .next s => (d.anext s).1
  | .readResult s => d.readResult s
  | .giveUp s => d.release s
  | .aclose s => d.aclose s
  | .del s => d.release s
  | .acks op =>
    { d with pendingAcks := d.pendingAcks.apply cfg.acks cfg.timedOut now op.toPendingOp }
  | .results op =>
    { d with
      pendingResults := d.pendingResults.apply cfg.results cfg.timedOut now op.toPendingOp }

/-- What a sequence of events leaves, each at its time. -/
def run (d : Dispatcher E) (events : List (ℕ × StreamEvent E)) : Dispatcher E :=
  events.foldl (fun d x => d.apply cfg x.1 x.2) d

end Dispatcher

end Backplane
