import Backplane.Router.State
import Backplane.Concur.Discipline

/-!
# The atomic actions of the router

Everything a handler does to the router's state is one of these actions.  A database transaction is
one action, and so is a stretch of coroutine code without an `await`; between two actions any other
coroutine may run.

* `Act β` : the actions, answered by a `β`.
* `Act.exec` : what an action does to the state; `none` when it has to wait.
-/

namespace Backplane

/-- The atomic actions of the router, by the type of their answer. -/
inductive Act : Type → Type 1
  | read {β : Type} (f : Router → β) : Act β
  /-- Something decided outside: the clock, a rate-limit bucket. -/
  | env {β : Type} (f : Env → β) : Act β
  /-- Does the database fail here? -/
  | fault : Act Bool
  | sessionLevel (u : UserId) : Act (Option String)
  /-- `count_task_chain_depth` of the parent a request names. -/
  | countTaskChainDepth (u : UserId) (parent : TaskId) : Act ℕ
  /-- The insert transaction of `admit_task`. -/
  | createTask (f : NewTaskFrame) (caller : AgentId) (deadline : ℕ) : Act Created
  /-- A transaction around `task_transition`. -/
  | transition (t : TaskId) (new : TaskState) (c : Cause) : Act Transitioned
  /-- The transaction of `complete_task`. -/
  | complete (f : ResultFrame) (reporter : AgentId) : Act Completed
  | forceFailTask (u : UserId) (t : TaskId) (statusCode : ℕ) (error : Option Json) : Act Bool
  | delegationPhaseA (f : NewTaskFrame) (t : TaskId) (caller : AgentId) :
      Act (Except AdmitError DelegationPlan)
  /-- Phase C of a delegation, with the cache update it makes inside the transaction. -/
  | delegationPhaseC (f : NewTaskFrame) (t : TaskId) (caller : AgentId) :
      Act (Except AdmitError Unit)
  /-- `SELECT user_id FROM tasks WHERE task_id = …`. -/
  | userOf (t : TaskId) : Act (Option UserId)
  | getTask (u : UserId) (t : TaskId) : Act (Option TaskRow)
  | findExpiredTasks (now limit : ℕ) : Act (List TaskRow)
  | listDescendants (u : UserId) (t : TaskId) : Act (List TaskId)
  /-- The open tasks that were admitted for an agent. -/
  | inflightOf (a : AgentId) : Act (List TaskId)
  /-- `SELECT agent_id FROM tasks WHERE task_id = …`. -/
  | agentOf (t : TaskId) : Act (Option AgentId)
  /-- What a close request reads first. -/
  | closingView (u : UserId) (x : SessionId) : Act (Option (Bool × List TaskId))
  | closeSession (u : UserId) (x : SessionId) : Act Unit
  | reopenSession (u : UserId) (x : SessionId) : Act Bool
  | openSession (u : UserId) : Act SessionId
  | allocateName (u : UserId) (scope name : String) (row : FileNameRow) (dedup : Dedup) :
      Act (Except String String)
  | notifyTaskTerminal (t : TaskId) : Act Unit
  /-- `_cache_caller_agent`, and the back-fill of `_handle_progress`. -/
  | cacheCallerAgent (t : TaskId) (caller active : AgentId) : Act Unit
  /-- `deliver_frame` without an ack, and `fanout_frame` to one agent. -/
  | deliver (dst : AgentId) (f : Frame) : Act Delivery
  /-- `deliver_frame` with an ack, up to the wait. -/
  | deliverAwait (dst : AgentId) (f : Frame) : Act (Except Delivery Ticket)
  | awaitAck (t : Ticket) : Act Settled
  /-- `await entry.outbox.put(frame)`. -/
  | put (k : SocketId) (f : Frame) : Act Unit
  /-- Settle the future a received Ack or Pong refers to. -/
  | settle (k : SocketId) (ref : CorrelationId) (f : Frame) : Act Unit
  /-- One pass of the pending-ack reaper. -/
  | reap : Act Unit
  /-- One round of `_send_loop`. -/
  | sendNext (k : SocketId) : Act Unit
  /-- The registration step of `_handshake`. -/
  | attach (a : AgentId) (resumeToken : Option String) : Act (SocketId × Option SocketId)
  /-- `entry.closed.set()`. -/
  | markClosed (k : SocketId) : Act Unit
  /-- The deregistration step of `_on_disconnect`. -/
  | detach (k : SocketId) : Act Bool
  | expireResume (a : AgentId) (k : SocketId) : Act Bool
  /-- `agent_disconnect_finalised`: the expiry has failed the agent's tasks. -/
  | finalised (a : AgentId) : Act Unit

/-- A program of the router. -/
abbrev Coroutine := Concur.Prog Act

/-- A program of the router that may raise an `ε`. -/
abbrev Raising (ε : Type) := ExceptT ε (Concur.Prog Act)

/-- The state after a transaction, with what the transaction answers. -/
def Router.commit {β : Type} (s : Router) (tx : Db × β) : Router × β := ({ s with db := tx.1 }, tx.2)

namespace Act

variable (cfg : Config)

/-- What an action does; `none` when it has to wait. -/
def exec : {β : Type} → Act β → Env → Router → Option (Router × β)
  | _, read f, _, s => some (s, f s)
  | _, env f, e, s => some (s, f e)
  | _, fault, e, s => some (s, e.fault)
  | _, sessionLevel u, e, s => some (s.sessionLevel e.now cfg.userLevelTtlS u)
  | _, countTaskChainDepth u p, _, s =>
    some ({ s with named := p :: s.named }, s.db.countTaskChainDepth u p)
  | _, createTask f a d, e, s =>
    -- the generator yields an id that is not in use and that nobody has named
    if (s.db.tasks.lookup e.freshId).isSome ∨ e.freshId ∈ s.named then none
    else some (s.commit (s.db.createTaskTx cfg.isPrintable f a d e.now e.freshId))
  | _, transition t new c, _, s => some (s.commit (s.db.transitionTx t new c))
  | _, complete f a, _, s => some (s.commit (s.db.completeTx f a))
  | _, forceFailTask u t code err, _, s => some (s.commit (s.db.forceFail u t code err))
  | _, delegationPhaseA f t a, _, s =>
    some (s, s.db.delegationPhaseA cfg.taskDelegationMaxDepth f t a)
  | _, delegationPhaseC f t a, _, s =>
    match s.db.delegationPhaseC f t a with
    | (db, .ok u) => some ({ s with db }.recacheActiveAgent t f.destinationAgentId, .ok u)
    | (db, .error e) => some ({ s with db }, .error e)
  | _, userOf t, _, s => some (s, (s.db.tasks.lookup t).map TaskRow.userId)
  | _, getTask u t, _, s => some (s, s.db.getTask u t)
  | _, findExpiredTasks now limit, _, s => some (s, s.db.findExpiredTasks now limit)
  | _, listDescendants u t, _, s => some (s, s.db.listDescendants u t)
  | _, inflightOf a, _, s =>
    some (s, (s.db.tasks.openWhere fun r => decide (r.agentId = a)).map TaskRow.taskId)
  | _, agentOf t, _, s => some (s, (s.db.tasks.lookup t).map TaskRow.agentId)
  | _, closingView u x, _, s => some (s, s.db.closingView u x)
  | _, closeSession u x, e, s => some ({ s with db := s.db.closeSessionTx e.now u x }, ())
  | _, reopenSession u x, _, s => some (s.commit (s.db.reopenSessionTx u x))
  | _, openSession u, e, s =>
    if (s.db.sessions.lookup e.freshId).isSome then none
    else some ({ s with db := s.db.openSessionTx e.now u e.freshId }, e.freshId)
  | _, allocateName u scope name row d, _, s => some (s.commit (s.db.allocateName u scope name row d))
  | _, notifyTaskTerminal t, _, s => some (s.notifyTaskTerminal t, ())
  | _, cacheCallerAgent t c a, _, s => some (s.cacheCallerAgent t c a, ())
  | _, deliver dst f, e, s => some (s.deliver cfg.perSocketOutboxMax dst ⟨e.freshId, f⟩)
  | _, deliverAwait dst f, e, s =>
    -- correlation ids are generated too
    if (s.correlation.pending.lookup e.freshId).isSome ∨
        (s.correlation.settled.lookup e.freshId).isSome then none
    else some (s.deliverAwait cfg.perSocketOutboxMax (e.now + cfg.pendingAckTimeoutS) dst
      ⟨e.freshId, f⟩)
  | _, awaitAck t, _, s =>
    (s.correlation.settled.lookup t.correlationId).map fun v => (s.discardInflight t, v)
  | _, put k f, e, s =>
    (s.sockets.lookup k).bind fun entry =>
      (s.putNowait cfg.perSocketOutboxMax entry.channel ⟨e.freshId, f⟩).map fun s' => (s', ())
  | _, settle k ref f, _, s => some (s.settleFrom k ref f, ())
  | _, reap, e, s => some ({ s with correlation := s.correlation.reap e.now }, ())
  | _, sendNext k, e, s => (s.sendNext k e.sendFails).map fun s' => (s', ())
  | _, attach a tok, e, s => some (s.attach a tok e.freshId)
  | _, markClosed k, _, s => some (s.markClosed k, ())
  | _, detach k, _, s => some (s.detach k)
  | _, expireResume a k, _, s => some (s.expireResume a k)
  | _, finalised _, _, s => some (s, ())

end Act

end Backplane
