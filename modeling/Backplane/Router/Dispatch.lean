import Backplane.Router.Admit

/-!
# Inbound frames

The handlers that `dispatch_frame` routes a frame to.  Each runs on behalf of the socket `k` of the
authenticated agent `agentId`; `cid` is the correlation id of the inbound frame.

* `handleNewTask`, `handleResult`, `handleProgress`, `handleCancel`.
* `handleAck`, `handlePong`, `handlePing`.
* `handleFileStore`.
* `dispatchFrame` : the routing.
-/

namespace Backplane

open Concur Prog

/-- Validate an Ack and enqueue it; a `ValidationError` ends the handler without one. -/
def putAck (k : SocketId) (h : Header) (cid : CorrelationId) (accepted : Bool)
    (reason : Option String) (taskId : Option TaskId) : Coroutine Bool :=
  match AckFrame.build h.fromRouter cid accepted reason taskId with
  | none => pure false
  | some ack => do
    perform (.put k (.ack ack))
    pure true

/-- Answer an admission: a refusal with its text, any other exception as `internal_error`, a success
with the task id and, after a retry of an ended task, the replayed Result. -/
def answerNewTask (k : SocketId) (cid : CorrelationId) (f : NewTaskFrame) :
    Except Exn AdmitResult → Coroutine Unit
  | .error (.admitError e) => do
    let _ ← putAck k f.header cid false (some e.message) none
  | .error _ => do
    let _ ← putAck k f.header cid false (some "internal_error") none
  | .ok r => do
    if ← putAck k f.header cid true none (some r.taskId) then
      match r.replayResult with
      | some replay => perform (.put k (.result replay))
      | none => pure ()
    else pure ()

/-- Persist and propagate a Result, and ack it. -/
def handleResult (k : SocketId) (agentId : AgentId) (cid : CorrelationId) (f : ResultFrame) :
    Coroutine Unit := do
  completeTask f agentId
  let _ ← putAck k f.header cid true none none

/-- The caller and the executor of a task, from the cache or else from the row; an open task is
cached on the way. -/
def progressTarget (t : TaskId) : Coroutine (Option (AgentId × AgentId)) := do
  match ← perform (.read fun s => s.callerAgentCache.lookup t) with
  | some p => pure (some p)
  | none =>
    match ← perform (.read fun s => s.db.tasks.lookup t) with
    | none => pure none
    | some row =>
      -- an ended task must not come back into the cache
      if row.state.isTerminal then pure (some (row.callerAgentId, row.activeAgentId))
      else do
        perform (.cacheCallerAgent t row.callerAgentId row.activeAgentId)
        pure (some (row.callerAgentId, row.activeAgentId))

/-- Fan an interim event out to the task's caller, if the sender executes the task.  No
persistence. -/
def handleProgress (agentId : AgentId) (f : ProgressFrame) : Coroutine Unit := do
  match ← progressTarget f.taskId with
  | none => pure ()
  | some (callerAgentId, activeAgentId) =>
    if agentId ≠ activeAgentId then pure ()
    else deliverQuietly callerAgentId (.progress f)

/-- Cancel a task on behalf of an agent that owns it or one of its ancestors. -/
def handleCancel (agentId : AgentId) (f : CancelFrame) : Coroutine Unit :=
  match f.refCorrelationId, f.taskId with
  | some _, _ => pure ()
  | none, none => pure ()
  | none, some t => do
    match ← perform (.userOf t) with
    | none => pure ()
    | some u =>
      if ← perform (.read fun s => s.db.taskHasAncestorWithAgent t agentId u) then do
        let _ ← cancelTask t u f.reason agentId
      else pure ()

/-- Resolve the pending ack the frame refers to. -/
def handleAck (k : SocketId) (f : AckFrame) : Coroutine Unit :=
  perform (.settle k f.refCorrelationId (.ack f))

/-- Resolve the pending Ping the frame refers to. -/
def handlePong (k : SocketId) (f : PongFrame) : Coroutine Unit :=
  perform (.settle k f.refCorrelationId (.pong f))

/-- Answer a Ping. -/
def handlePing (k : SocketId) (cid : CorrelationId) (f : PingFrame) : Coroutine Unit :=
  perform (.put k (.pong ⟨f.header.fromRouter, cid⟩))

variable (cfg : Config)

/-- Admit the task and answer. -/
def handleNewTask (k : SocketId) (agentId : AgentId) (cid : CorrelationId) (f : NewTaskFrame) :
    Coroutine Unit := do
  answerNewTask k cid f (← (admitTask cfg f agentId).run)

/-- `_quota_ok`: whether `added` more bytes keep the user under the ceiling of their level. -/
def quotaOk (userId : UserId) (added : ℕ) : Coroutine Bool := do
  if added = 0 then pure true
  else do
    let level ← perform (.sessionLevel userId)
    match cfg.fileStorageQuotaBytes (level.getD "") with
    | none => pure true
    | some ceiling => do
      let usage ← perform (.read fun s => s.db.countUserStorageBytes userId)
      pure (decide (usage + added ≤ ceiling))

/-- The user and the session of a task, for its current executor only. -/
def deriveTaskFileScope (t : TaskId) (agentId : AgentId) :
    Coroutine (Option (UserId × SessionId)) :=
  perform (.read fun s => ((s.db.tasks.lookup t).filter fun r => r.activeAgentId = agentId).map
    fun r => (r.userId, r.sessionId))

/-- Bind an uploaded blob to a name under the authority of a task; `Except` carries the error. -/
def storeName (agentId : AgentId) (f : FileStoreFrame) : Coroutine (Except String String) := do
  match ← deriveTaskFileScope f.taskId agentId with
  | none => pure (.error "denied")
  | some (userId, sessionId) =>
    match ← perform (.read fun s => s.db.getFileBySha256 userId f.sha256) with
    | none => pure (.error "not_found")
    | some blob =>
      let filename := ((f.filename.filter (· ≠ "")) <|>
        (blob.originalFilename.filter (· ≠ ""))).getD blob.fileId
      if !validBareFilename filename then pure (.error "invalid_filename")
      else do
        let scope := scopeFor f.persistent sessionId
        let existing ← perform (.read fun s => s.db.fileNames.lookup (userId, scope, filename))
        let isIdempotent := existing.any fun e => e.fileId = blob.fileId
        if ← quotaOk cfg userId (if isIdempotent then 0 else blob.byteSize) then
          match ← perform (.allocateName userId scope filename ⟨blob.fileId, blob.byteSize⟩
              f.dedup) with
          | .error e => pure (.error e)
          | .ok saved => pure (.ok (displayName f.persistent saved))
        else pure (.error "quota_exceeded")

/-- The reply to a file operation. -/
def fileResult (f : FileStoreFrame) (cid : CorrelationId) (error savedName : Option String) :
    FileResultFrame where
  header := f.header.fromRouter
  refCorrelationId := cid
  error := error
  savedName := savedName

/-- Bind a name and reply the actual saved name. -/
def handleFileStore (k : SocketId) (agentId : AgentId) (cid : CorrelationId) (f : FileStoreFrame) :
    Coroutine Unit := do
  match ← storeName cfg agentId f with
  | .error e => perform (.put k (.fileResult (fileResult f cid (some e) none)))
  | .ok saved => perform (.put k (.fileResult (fileResult f cid none (some saved))))

/-- Route an inbound frame to its handler; other frames are logged and dropped. -/
def dispatchFrame (k : SocketId) (agentId : AgentId) (m : Envelope) : Coroutine Unit :=
  match m.frame with
  | .newTask f => handleNewTask cfg k agentId m.correlationId f
  | .result f => handleResult k agentId m.correlationId f
  | .progress f => handleProgress agentId f
  | .cancel f => handleCancel agentId f
  | .ack f => handleAck k f
  | .ping f => handlePing k m.correlationId f
  | .pong f => handlePong k f
  | .fileStore f => handleFileStore cfg k agentId m.correlationId f
  | .fileResult _ => pure ()

end Backplane
