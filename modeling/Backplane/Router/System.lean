import Backplane.Router.Dispatch

/-!
# The router as a system

Everything that can start a coroutine in the router, and the machine that runs them together.

* `handshake`, `onDisconnect`, `resumeWindowExpiry` : the life of a socket.
* `closeSession`, `reopenSession`, `cancelRequest` : the session and task endpoints.
* `Call` : what can start a coroutine; `Call.body` : the program it runs.
* `router cfg` : the machine; its runs (`Concur.Run`) are the interleavings of all of these.

A call stays in the pool after it has returned.  A coroutine that is cancelled from outside (its
socket breaks while it waits) is one that makes no further step.
-/

namespace Backplane

open Concur Prog

/-- `_handshake` of an authenticated agent: register the socket, supersede the previous one. -/
def handshake (a : AgentId) (resumeToken : Option String) : Coroutine Unit := do
  match ← perform (.read fun s => s.db.agents.lookup a) with
  | none => pure ()
  | some row =>
    if row.status ≠ .active then pure ()
    else do
      let (_, previous) ← perform (.attach a resumeToken)
      match previous with
      | none => pure ()
      | some k => perform (.markClosed k)

/-- `_on_disconnect`: park the socket if it is still the live one.  The expiry of the resume window
is a coroutine of its own. -/
def onDisconnect (k : SocketId) : Coroutine Unit := do
  perform (.markClosed k)
  let _ ← perform (.detach k)

/-- `_resume_window_expiry` of a socket, from the moment its window has elapsed. -/
def resumeWindowExpiry (k : SocketId) (agentId : AgentId) : Coroutine Unit := do
  if ← perform (.expireResume agentId k) then do
    let _ ← failInflightForAgent agentId "agent_disconnected"
    perform (.finalised agentId)
  else pure ()

/-- `DELETE /v1/sessions/{id}`: cancel the open tasks, then close the session and drop its names.
Answers whether the session is the user's. -/
def closeSession (userId : UserId) (x : SessionId) : Coroutine Bool := do
  match ← perform (.closingView userId x) with
  | none => pure false
  | some (alreadyClosed, rows) => do
    each (fun t => cancelTask t userId "session_closed" userId) rows
    if alreadyClosed then pure true
    else do
      perform (.closeSession userId x)
      pure true

/-- `POST /v1/tasks/{id}/cancel`. -/
def cancelRequest (userId : UserId) (t : TaskId) : Coroutine Unit := do
  match ← perform (.getTask userId t) with
  | none => pure ()
  | some _ =>
    let _ ← cancelTask t userId "user_aborted" userId

/-- What can start a coroutine. -/
inductive Call
  | frame (k : SocketId) (agentId : AgentId) (m : Envelope)
  /-- A component of the router admits a task on its own account. -/
  | admission (f : NewTaskFrame) (callerAgentId : AgentId)
  | connect (agentId : AgentId) (resumeToken : Option String)
  | disconnect (k : SocketId)
  | resumeWindowExpiry (k : SocketId) (agentId : AgentId)
  /-- An agent is suspended, reset or evicted: fail its tasks. -/
  | failInflight (agentId : AgentId) (reason : String)
  | sweep
  | cancelTask (userId : UserId) (t : TaskId)
  | openSession (userId : UserId)
  | closeSession (userId : UserId) (x : SessionId)
  | reopenSession (userId : UserId) (x : SessionId)
  | reap
  | sendLoop (k : SocketId)
  deriving DecidableEq

/-- What a call returns. -/
inductive Ret
  | done
  | admitted (r : Except Exn AdmitResult)
  /-- Whether the session to close is the user's. -/
  | closed (existed : Bool)

variable (cfg : Config)

/-- The program a call runs. -/
def Call.body : Call → Coroutine Ret
  | .frame k a m => do dispatchFrame cfg k a m; pure .done
  | .admission f a => do pure (.admitted (← (admitTask cfg f a).run))
  | .connect a tok => do handshake a tok; pure .done
  | .disconnect k => do onDisconnect k; pure .done
  | .resumeWindowExpiry k a => do Backplane.resumeWindowExpiry k a; pure .done
  | .failInflight a reason => do let _ ← failInflightForAgent a reason; pure .done
  | .sweep => do let _ ← sweepOnce; pure .done
  | .cancelTask u t => do cancelRequest u t; pure .done
  | .openSession u => do let _ ← perform (.openSession u); pure .done
  | .closeSession u x => do pure (.closed (← Backplane.closeSession u x))
  | .reopenSession u x => do let _ ← perform (.reopenSession u x); pure .done
  | .reap => do perform .reap; pure .done
  | .sendLoop k => do perform (.sendNext k); pure .done

/-- The router: its actions and the programs of its calls. -/
def router : Machine Act Env Router Call Ret where
  exec := Act.exec cfg
  body := Call.body cfg

end Backplane
