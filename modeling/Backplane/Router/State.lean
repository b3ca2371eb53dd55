import Backplane.Db.Sessions

/-!
# The router's state

What one router process keeps: the database it talks to, the sockets of its agents, the acks it
waits for and its caches.

* `Config` : the settings the task protocol reads, with the bounds they are validated against.
* `Env` : what a step learns from outside (time, fresh identifiers, a bucket's answer, a fault).
* `Channel`, `SocketEntry`, `SocketRegistry`, `PendingAcks` : the in-memory side.
* `Router` : all of it, with the operations of the in-memory side.
-/

namespace Backplane

/-- Identity of a socket. -/
abbrev SocketId := ℕ

/-- Identity of an outbox with its in-flight set; a resumed socket takes over its predecessor's. -/
abbrev ChannelId := ℕ

/-- How `jsonschema.validate` fails. -/
inductive SchemaFailure
  /-- `ValidationError` with its message: the payload does not match. -/
  | validation (message : String)
  /-- `SchemaError` with its message: the schema itself is malformed. -/
  | schema (message : String)
  deriving DecidableEq, Repr

/-- The settings the task protocol reads. -/
structure Config where
  /-- Bound on the ancestor chain of a spawned task. -/
  spawnMaxDepth : ℕ := 16
  taskDelegationMaxDepth : ℕ := 32
  perSocketOutboxMax : ℕ := 256
  /-- How long the router waits for an ack. -/
  pendingAckTimeoutS : ℕ := 30
  /-- Deadline of a task whose frame sets none. -/
  defaultTaskDeadlineS : ℕ := 900
  userLevelTtlS : ℕ := 60
  /-- Levels whose admissions are rate-limited. -/
  admitRateLimited : String → Bool := fun _ => false
  /-- Ceiling on the storage of a user of a level. -/
  fileStorageQuotaBytes : String → Option ℕ := fun _ => none
  /-- `str.isprintable` on one character. -/
  isPrintable : Char → Bool := fun c => decide (31 < c.toNat) && decide (c.toNat < 127)
  /-- `jsonschema.validate` on a payload and a schema. -/
  validate : Json → Json → Except SchemaFailure Unit := fun _ _ => .ok ()
  /-- Startup validation. -/
  spawnMaxDepth_pos : 1 ≤ spawnMaxDepth := by decide
  /-- Startup validation: not above the bound of the recursive queries. -/
  spawnMaxDepth_le : spawnMaxDepth ≤ maxTaskTreeDepth := by decide
  /-- Startup validation. -/
  taskDelegationMaxDepth_pos : 1 ≤ taskDelegationMaxDepth := by decide
  /-- Startup validation. -/
  taskDelegationMaxDepth_le : taskDelegationMaxDepth ≤ 128 := by decide
  /-- Startup validation. -/
  perSocketOutboxMax_pos : 1 ≤ perSocketOutboxMax := by decide

/-- What a step learns from outside the router. -/
structure Env where
  now : ℕ := 0
  /-- The next identifier the generator yields. -/
  freshId : String := ""
  /-- The admit bucket is empty for so many hundredths of a second. -/
  quotaRetryAfter : Option ℕ := none
  /-- The database statement about to run fails. -/
  fault : Bool := false
  /-- The socket breaks while a frame is being sent. -/
  sendFails : Bool := false
  deriving DecidableEq, Repr

instance : Inhabited Env := ⟨{}⟩

/-- How a pending-ack future is settled. -/
inductive Settled
  /-- `set_result` with the frame that referred to it. -/
  | frame (f : Frame)
  /-- `TimeoutError("ack_timeout")`, by the reaper. -/
  | timeout
  /-- `ConnectionError("agent_disconnected")`, when the socket goes away. -/
  | connectionError
  deriving DecidableEq

/-- An outbox and the correlation ids sent through it that still await their ack. -/
structure Channel where
  outbox : List Envelope := []
  inflight : List CorrelationId := []
  deriving DecidableEq

/-- One socket of an agent. -/
structure SocketEntry where
  agentId : AgentId
  /-- The token that resumes this socket's session. -/
  sessionToken : String
  /-- Its outbox and in-flight set. -/
  channel : ChannelId
  closed : Bool := false
  deriving DecidableEq, Repr

/-- Which socket is live and which is parked, per agent. -/
structure SocketRegistry where
  live : Table AgentId SocketId := ∅
  resume : Table AgentId SocketId := ∅

/-- The futures of the frames the router waits to see acknowledged. -/
structure PendingAcks where
  /-- Unsettled futures with their deadlines. -/
  pending : Table CorrelationId ℕ := ∅
  /-- Settled futures that may still be awaited. -/
  settled : Table CorrelationId Settled := ∅

/-- The state of one router process. -/
structure Router where
  db : Db := {}
  rules : List Rule := []
  /-- Which socket of an agent is live or parked. -/
  registry : SocketRegistry := {}
  sockets : Table SocketId SocketEntry := ∅
  /-- Every outbox there has been. -/
  channels : Table ChannelId Channel := ∅
  correlation : PendingAcks := {}
  /-- Task to caller and executor, for Progress fan-out. -/
  callerAgentCache : Table TaskId (AgentId × AgentId) := ∅
  /-- User to level, with the time the entry expires. -/
  userLevelCache : Table UserId (String × ℕ) := ∅
  /-- Task ids that requests have named.  Generated ids carry 128 random bits, so a new task never
  gets one of these. -/
  named : List TaskId := []

namespace PendingAcks

variable (p : PendingAcks)

/-- Reserve a slot. -/
def register (cid : CorrelationId) (deadline : ℕ) : PendingAcks :=
  { p with pending := p.pending.insert cid deadline }

/-- Settle an awaiting future, if there is one. -/
def settle (cid : CorrelationId) (v : Settled) : PendingAcks :=
  match p.pending.lookup cid with
  | none => p
  | some _ => { pending := p.pending.erase cid, settled := p.settled.insert cid v }

/-- Fail the futures of these correlation ids. -/
def rejectIds (cids : List CorrelationId) : PendingAcks :=
  cids.foldl (fun p cid => p.settle cid .connectionError) p

/-- One pass of the reaper. -/
def reap (now : ℕ) : PendingAcks :=
  (p.pending.select fun _ d => decide (d ≤ now)).foldl (fun p r => p.settle r.1 .timeout) p

end PendingAcks

/-- How handing a frame to an agent's outbox ends. -/
inductive Delivery
  | sent
  /-- `AgentNotConnected`: no live socket. -/
  | notConnected
  /-- `asyncio.QueueFull`: the outbox is full. -/
  | queueFull
  deriving DecidableEq, Repr

/-- A frame in the outbox whose ack is awaited. -/
structure Ticket where
  correlationId : CorrelationId
  /-- Where it was put. -/
  channel : ChannelId
  deriving DecidableEq, Repr

namespace Router

variable (s : Router)

/-- The contents of a channel. -/
def channel (ch : ChannelId) : Channel := (s.channels.lookup ch).getD {}

/-- Replace the contents of a channel. -/
def setChannel (ch : ChannelId) (c : Channel) : Router :=
  { s with channels := s.channels.insert ch c }

/-- `put_nowait`: append to an outbox unless it is full. -/
def putNowait (cap : ℕ) (ch : ChannelId) (e : Envelope) : Option Router :=
  if (s.channel ch).outbox.length < cap then
    some (s.setChannel ch { s.channel ch with outbox := (s.channel ch).outbox ++ [e] })
  else none

/-- The channel of an agent's live socket. -/
def liveChannel (a : AgentId) : Option ChannelId :=
  (s.registry.live.lookup a).bind fun k => (s.sockets.lookup k).map SocketEntry.channel

/-- `deliver_frame` without an ack. -/
def deliver (cap : ℕ) (dst : AgentId) (e : Envelope) : Router × Delivery :=
  match s.liveChannel dst with
  | none => (s, .notConnected)
  | some ch =>
    match s.putNowait cap ch e with
    | some s' => (s', .sent)
    | none => (s, .queueFull)

/-- `deliver_frame` up to the point where it awaits the ack: register, mark in flight, enqueue.
On a full outbox the registration is undone. -/
def deliverAwait (cap deadline : ℕ) (dst : AgentId) (e : Envelope) :
    Router × Except Delivery Ticket :=
  match s.liveChannel dst with
  | none => (s, .error .notConnected)
  | some ch =>
    match s.putNowait cap ch e with
    | none => (s, .error .queueFull)
    | some s' =>
      ({ s'.setChannel ch { s'.channel ch with
            inflight := e.correlationId :: (s'.channel ch).inflight } with
          correlation := s'.correlation.register e.correlationId deadline },
        .ok ⟨e.correlationId, ch⟩)

/-- Drop a correlation id from a channel's in-flight set. -/
def discardInflight (t : Ticket) : Router :=
  s.setChannel t.channel { s.channel t.channel with
    inflight := (s.channel t.channel).inflight.filter (· ≠ t.correlationId) }

/-- The part `_handle_ack` and `_handle_pong` share: settle the future the frame refers to, if it
was sent through this socket. -/
def settleFrom (k : SocketId) (ref : CorrelationId) (f : Frame) : Router :=
  match s.sockets.lookup k with
  | none => s
  | some e =>
    if ref ∈ (s.channel e.channel).inflight then
      { s with correlation := s.correlation.settle ref (.frame f) }
    else s

/-- `_cache_caller_agent`. -/
def cacheCallerAgent (t : TaskId) (caller active : AgentId) : Router :=
  { s with callerAgentCache := s.callerAgentCache.insert t (caller, active) }

/-- `_recache_active_agent`: keep the caller, and do not resurrect an evicted entry. -/
def recacheActiveAgent (t : TaskId) (active : AgentId) : Router :=
  { s with callerAgentCache := s.callerAgentCache.update t fun p => (p.1, active) }

/-- `_notify_task_terminal`: evict the cache entry. -/
def notifyTaskTerminal (t : TaskId) : Router :=
  { s with callerAgentCache := s.callerAgentCache.erase t }

/-- `_session_level`: the cached level while it is fresh, else the level of an active user. -/
def sessionLevel (now ttl : ℕ) (u : UserId) : Router × Option String :=
  if u = "" then (s, none)
  else match (s.userLevelCache.lookup u).filter fun e => now < e.2 with
    | some e => (s, some e.1)
    | none =>
      match s.db.users.lookup u with
      | none => (s, none)
      | some r =>
        if r.suspendedAt.isSome || r.deletedAt.isSome then (s, none)
        else ({ s with userLevelCache := s.userLevelCache.insert u (r.level, now + ttl) },
          some r.level)

/-- `consume_resume` before it removes anything: the parked socket of `a`, if the token is its own. -/
def consumable (a : AgentId) (resumeToken : Option String) : Option SocketEntry :=
  (resumeToken.filter (· ≠ "")).bind fun tok =>
    (s.registry.resume.lookup a).bind fun k =>
      (s.sockets.lookup k).filter fun e => e.sessionToken = tok

/-- Attach a new socket for `a`.  With the token of the parked socket it takes over that socket's
channel and token; in any other case the parked socket stays parked.  Answers the new socket and
the one it superseded. -/
def attach (a : AgentId) (resumeToken : Option String) (newToken : String) :
    Router × SocketId × Option SocketId :=
  let parked := s.consumable a resumeToken
  let new := s.sockets.entries.length
  let entry : SocketEntry := match parked with
    | some e => ⟨a, e.sessionToken, e.channel, false⟩
    | none => ⟨a, newToken, s.channels.entries.length, false⟩
  ({ s with
      registry :=
        { live := s.registry.live.insert a new
          resume := if parked.isSome then s.registry.resume.erase a else s.registry.resume }
      sockets := s.sockets.insert new entry
      channels := if parked.isSome then s.channels else s.channels.insert entry.channel {} },
    new, s.registry.live.lookup a)

/-- `entry.closed.set()`. -/
def markClosed (k : SocketId) : Router :=
  { s with sockets := s.sockets.update k fun e => { e with closed := true } }

/-- The end of `_on_disconnect`: reject the socket's pending acks, and park the socket if it is
still its agent's live one.  Answers whether it was parked. -/
def detach (k : SocketId) : Router × Bool :=
  match s.sockets.lookup k with
  | none => (s, false)
  | some e =>
    let s := { s with correlation := s.correlation.rejectIds (s.channel e.channel).inflight }
    if s.registry.live.lookup e.agentId = some k then
      ({ s with registry :=
          { live := s.registry.live.erase e.agentId
            resume := s.registry.resume.insert e.agentId k } }, true)
    else (s, false)

/-- `expire_resume`: unpark the socket if it is still the one parked for its agent. -/
def expireResume (a : AgentId) (k : SocketId) : Router × Bool :=
  if s.registry.resume.lookup a = some k then
    ({ s with registry := { s.registry with resume := s.registry.resume.erase a } }, true)
  else (s, false)

/-- One round of `_send_loop`: take the next frame; a frame that could not be sent goes back to the
end of the outbox.  Blocks on an empty outbox. -/
def sendNext (k : SocketId) (fails : Bool) : Option Router :=
  (s.sockets.lookup k).bind fun e =>
    match (s.channel e.channel).outbox with
    | [] => none
    | m :: rest => some (s.setChannel e.channel { s.channel e.channel with
        outbox := if fails then rest ++ [m] else rest })

end Router

end Backplane
