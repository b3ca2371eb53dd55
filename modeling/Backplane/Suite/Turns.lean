import Backplane.Concur.Discipline
import Backplane.Concur.Ownership
import Backplane.Protocol.Types

/-!
# Turns of a session

A message is handled under the lock of its session: the channel sends a root task to the router,
waits for the answer and relays it.  The lock bounds how long the channel waits, and not how long
the task lives.

* `TurnBoard` : the turns that have begun, each with its task, and who has appended to the history.
* `TurnAct`, `TurnAct.exec` : what happens between two suspensions.
* `dispatchTurn`, `handle` : the channel, and an agent that works on a task.
* `turns` : the machine, whose runs are the interleavings of messages, agents and the router.
* `OneTurn` : one task at a time for each session, and no late rows.
* `patientTurns` : no turn gives up on a task that may still run, and no agent writes for one that
  has ended.
* `one_turn` : then there is one turn at a time.
-/

namespace Backplane

open Concur Prog

/-! ### The board -/

/-- How far the root task of a turn has come. -/
inductive TaskStage
  /-- Not sent. -/
  | unsent
  | sent
  | refused
  /-- The router has taken it on, and it is not terminal. -/
  | running
  | ended (status : TaskStatus)
  deriving DecidableEq, Repr

/-- The router has the task, or will have it, and it is not terminal. -/
def TaskStage.live : TaskStage → Bool
  | sent | running => true
  | unsent | refused | ended _ => false

/-- A turn, from where its lock is acquired. -/
structure Turn where
  session : SessionId
  inside : Bool := true
  /-- Its root task. -/
  stage : TaskStage := .unsent
  /-- How often the task was handed on. -/
  executor : ℕ := 0
  deriving DecidableEq, Repr

/-- What is of interest in the history of a session. -/
inductive TurnEvent
  | began (n : ℕ)
  /-- An agent has appended a row for this turn. -/
  | wrote (n : ℕ)
  deriving DecidableEq, Repr

/-- The turns in the order they began. -/
structure TurnBoard where
  turns : List Turn := []
  history : List TurnEvent := []

namespace TurnBoard

variable (s : TurnBoard)

/-- The lock of the session is held. -/
def locked (sid : SessionId) : Bool :=
  s.turns.any fun t => decide (t.session = sid) && t.inside

/-- How far the task of a turn has come. -/
def stage (n : ℕ) : TaskStage := (s.turns[n]?.map Turn.stage).getD .unsent

/-- A turn changes. -/
def mark (n : ℕ) (f : Turn → Turn) : TurnBoard := { s with turns := s.turns.modify n f }

/-- Something is appended to the history. -/
def note (x : TurnEvent) : TurnBoard := { s with history := s.history ++ [x] }

end TurnBoard

/-! ### Steps -/

/-- What a coroutine meets at a suspension. -/
structure TurnEnv where
  /-- It raises: a timeout, an error, a connection that is gone. -/
  raises : Bool := false
  /-- What it raises is the cancellation of its task. -/
  cancelled : Bool := false
  /-- What is sent does not arrive. -/
  lost : Bool := false
  /-- How many files the result names. -/
  files : ℕ := 0

/-- The steps of a turn that neither send a task nor wait for one. -/
inductive ChannelStep
  | route | saveInboundFile | recordUserTurn | sendMessage | sendOutboundFile | afterResult
  | maybeSummarize
  deriving DecidableEq, Repr

/-- How an `await` ends. -/
inductive Awaited (α : Type)
  | got (a : α)
  | failed
  | cancelled

/-- What happens between two suspensions, by the type of the answer. -/
inductive TurnAct : Type → Type 1
  | lock (sid : SessionId) : TurnAct ℕ
  /-- One of the other steps; `false`: it raises. -/
  | attempt (n : ℕ) (what : ChannelStep) : TurnAct Bool
  /-- `transport.send` of the NewTask frame -/
  | send (n : ℕ) : TurnAct (Awaited Unit)
  /-- The acknowledgement of the router: whether it accepts. -/
  | awaitAck (n : ℕ) : TurnAct (Awaited Bool)
  /-- `await_root_result`: how many files the result names. -/
  | awaitResult (n : ℕ) : TurnAct (Awaited ℕ)
  | unlock (n : ℕ) : TurnAct Unit
  /-- The router acknowledges the task of a turn. -/
  | ack (n : ℕ) (accept : Bool) : TurnAct Unit
  /-- An agent is given the task; how often it was handed on before. -/
  | take (n : ℕ) : TurnAct ℕ
  | append (n : ℕ) : TurnAct Unit
  /-- An agent hands the task on; `false`: it has not got it. -/
  | delegate (n k : ℕ) : TurnAct Bool
  /-- An agent reports its result, which counts if the task is still its own. -/
  | report (n k : ℕ) (status : TaskStatus) : TurnAct Unit
  /-- The router ends the task: it was cancelled, has run out of time, or its agent is gone. -/
  | close (n : ℕ) (status : TaskStatus) : TurnAct Unit

namespace TurnAct

/-- What a coroutine is given that awaits a future. -/
def awaited {α : Type} (e : TurnEnv) (ready : Option α) : Option (Awaited α) :=
  if e.raises then some (if e.cancelled then .cancelled else .failed) else ready.map .got

/-- What a step does; a coroutine waits for the lock, and for the router. -/
def exec : {β : Type} → TurnAct β → TurnEnv → TurnBoard → Option (TurnBoard × β)
  | _, lock sid, _, s =>
    if s.locked sid then none
    else some (TurnBoard.note { s with turns := s.turns ++ [{ session := sid }] }
      (.began s.turns.length), s.turns.length)
  | _, attempt _ _, e, s => some (s, !e.raises)
  | _, send n, e, s =>
    (awaited e (some ())).map fun b =>
      (if e.lost then s else s.mark n fun t => { t with stage := .sent }, b)
  | _, awaitAck n, e, s =>
    (awaited e (match s.stage n with
      | .refused => some false
      | .running | .ended _ => some true
      | .unsent | .sent => none)).map fun b => (s, b)
  | _, awaitResult n, e, s =>
    (awaited e (match s.stage n with
      | .ended _ => some e.files
      | _ => none)).map fun b => (s, b)
  | _, unlock n, _, s => some (s.mark n fun t => { t with inside := false }, ())
  | _, ack n accept, _, s =>
    some (s.mark n fun t =>
      if t.stage = .sent then { t with stage := if accept then .running else .refused } else t, ())
  | _, take n, _, s =>
    match s.turns[n]? with
    | some { stage := .running, executor := k, .. }
    | some { stage := .ended _, executor := k, .. } => some (s, k)
    | _ => none
  | _, append n, _, s => some (s.note (.wrote n), ())
  | _, delegate n k, _, s =>
    if s.turns[n]?.any fun t => t.stage = .running ∧ t.executor = k then
      some (s.mark n fun t => { t with executor := k + 1 }, true)
    else some (s, false)
  | _, report n k status, _, s =>
    some (s.mark n fun t =>
      if t.stage = .running ∧ t.executor = k then { t with stage := .ended status } else t, ())
  | _, close n status, _, s =>
    some (s.mark n fun t =>
      if t.stage = .running then { t with stage := .ended status } else t, ())

end TurnAct

/-! ### Coroutines -/

/-- Some steps one after the other, until one raises; whether none did. -/
def attempts (n : ℕ) : List ChannelStep → Prog TurnAct Bool
  | [] => pure true
  | x :: xs => do if ← perform (.attempt n x) then attempts n xs else pure false

/-- `spawn_root_for_user`, then `await_root_result` -/
def spawnAndAwait (n : ℕ) : Prog TurnAct (Awaited ℕ) := do
  match ← perform (.send n) with
  | .cancelled => pure .cancelled
  | .failed => pure .failed
  | .got () =>
    match ← perform (.awaitAck n) with
    | .cancelled => pure .cancelled
    | .failed | .got false => pure .failed
    | .got true => perform (.awaitResult n)

/-- The body under the lock; wherever something raises, the lock is released all the same. -/
def lockedTurn (n attachments : ℕ) (text : Bool) : Prog TurnAct Unit := do
  if ← attempts n (.route :: List.replicate attachments .saveInboundFile ++
      if text then [.recordUserTurn] else []) then
    match ← spawnAndAwait n with
    | .cancelled => pure ()
    | .failed => do
      let _ ← attempts n [.sendMessage]
    | .got files => do
      let _ ← attempts n (.sendMessage :: List.replicate files .sendOutboundFile ++
        [.afterResult, .maybeSummarize])

/-- `_dispatch_turn` -/
def dispatchTurn (sid : SessionId) (attachments : ℕ) (text : Bool) : Prog TurnAct Unit := do
  let n ← perform (.lock sid)
  lockedTurn n attachments text
  perform (.unlock n)

/-- What a handler does with a task, apart from its answer. -/
inductive AgentOp
  | append
  | delegate
  deriving DecidableEq, Repr

/-- The work of a handler; the result of one that has handed the task on is dropped. -/
def work (n k : ℕ) (status : TaskStatus) : List AgentOp → Prog TurnAct Unit
  | [] => perform (.report n k status)
  | .append :: ops => do
    perform (.append n)
    work n k status ops
  | .delegate :: ops => do
    let _ ← perform (.delegate n k)
    work n k status ops

/-- A handler of the agent that has the task. -/
def handle (n : ℕ) (ops : List AgentOp) (status : TaskStatus) : Prog TurnAct Unit := do
  let k ← perform (.take n)
  work n k status ops

/-- What runs. -/
inductive TurnCall
  | message (sid : SessionId) (attachments : ℕ) (text : Bool)
  | agent (n : ℕ) (ops : List AgentOp) (status : TaskStatus)
  /-- The router takes on a task, or refuses it. -/
  | admission (n : ℕ) (accept : Bool)
  | closing (n : ℕ) (status : TaskStatus)

/-- What a call runs. -/
def TurnCall.body : TurnCall → Prog TurnAct Unit
  | message sid attachments text => dispatchTurn sid attachments text
  | agent n ops status => handle n ops status
  | admission n accept => perform (.ack n accept)
  | closing n status => perform (.close n status)

/-- A channel with its agents and the router. -/
def turns : Machine TurnAct TurnEnv TurnBoard TurnCall Unit where
  exec := TurnAct.exec
  body := TurnCall.body

/-! ### The property -/

/-- One task at a time for each session, and no rows of a turn after a later one has begun. -/
structure OneTurn (s : TurnBoard) : Prop where
  /-- At most one root task of a session is not terminal. -/
  exclusive : ∀ (m n : ℕ) (t u : Turn), s.turns[m]? = some t → s.turns[n]? = some u →
    t.session = u.session → t.stage.live = true → u.stage.live = true → m = n
  /-- Once a turn has begun no agent writes for an earlier one of its session. -/
  ordered : s.history.Pairwise fun x y => ∀ m n t u, x = .began m → y = .wrote n →
    s.turns[m]? = some t → s.turns[n]? = some u → t.session = u.session → m ≤ n

/-- No turn gives up on a task that may still run, and no agent writes for one that has ended. -/
def TurnAct.patient {β : Type} (e : TurnEnv) (s : TurnBoard) : TurnAct β → Prop
  | send _ => e.raises = true → e.lost = true
  | awaitAck n | awaitResult n => e.raises = true → (s.stage n).live = false
  | append n => s.stage n = .running
  | _ => True

/-- Turns wait for their tasks, and agents write before they report. -/
def patientTurns : Guard TurnAct TurnEnv TurnBoard TurnCall Unit :=
  ⟨fun _ _ => True, fun P _ _ a e => a.patient e P.shared⟩

end Backplane
