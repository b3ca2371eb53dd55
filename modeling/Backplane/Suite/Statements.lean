import Backplane.Concur.Fallible
import Backplane.Suite.Conversation

/-!
# What the agents and the channel do

The programs of the agent suite are made of statements on the record of a session, of calls to a
model, and of errands outside; any of them may fail.

* `SuiteEnv`, `SuiteAct` : what the world decides at a step, and the steps.
* `Course`, `SuiteState` : what has become of the task of the current turn, beside the record.
* `SuiteAct.exec` : what a step does.
* `Handler` : programs that may raise.
-/

namespace Backplane

open Concur Prog

/-- How a task has ended, as its channel gets to know it. -/
structure TurnResult where
  agentId : AgentId
  status : TaskStatus
  /-- `context_tokens` in the metadata of the output -/
  contextTokens : Option ℕ := none
  deriving DecidableEq, Repr

/-- What the orchestrator asks a specialist to do. -/
structure HandOff where
  agentId : AgentId
  instruction : String := ""
  context : String := ""
  deriving DecidableEq, Repr

/-- What a specialist says when it hands a conversation back. -/
structure EndDelegation where
  delegationSummary : String := ""
  exitReason : String := ""
  userPrompt : String := ""
  deriving DecidableEq, Repr

/-- How a loop of calls to the model ends. -/
structure LoopReply where
  text : String := ""
  /-- The calls of tools and their results. -/
  exchanges : List (String × String) := []
  /-- The context as it was measured before. -/
  tokens : ℕ := 0
  handOff : Option HandOff := none
  endDelegation : Option EndDelegation := none
  /-- A call of another tool that ends the loop. -/
  extraTerminal : Bool := false
  deriving DecidableEq, Repr

/-- What an agent that hands its task on is told. -/
inductive PeerReply
  | accepted
  /-- `PeerCallError` -/
  | refused
  | raised
  deriving DecidableEq, Repr

/-- What the world decides at a step. -/
structure SuiteEnv where
  fails : Bool := false
  now : ℕ := 0
  text : String := ""
  /-- How a loop of calls to the model ends. -/
  reply : LoopReply := {}
  peer : PeerReply := .accepted
  /-- How a task ends that fails. -/
  status : TaskStatus := .failed

/-- Errands outside of the record. -/
inductive Errand
  | download | spawn | sendMessage | sendFailure | enterPlan
  deriving DecidableEq, Repr

/-- The steps, by the type of the answer.  A statement that raises answers `none` or `false`; one
that is a transaction of several writes all of them or nothing. -/
inductive SuiteAct : Type → Type 1
  | getSessionInfo : SuiteAct (Option (Option SessionInfo))
  /-- `get_user_config`, for the limit of the context -/
  | getUserConfig : SuiteAct (Option (Option ℕ))
  | reloadIncumbent (a : AgentId) (upTo : Option ℕ) : SuiteAct (Option (List HistoryRow))
  | appendHistory (a : AgentId) (role : Role) (message : String) (incumbent hidden : Bool) :
      SuiteAct Bool
  /-- `append_history` of the seed row for a specialist; its `id`. -/
  | appendSeed (dest : AgentId) (seed : String) : SuiteAct (Option ℕ)
  /-- `demote_incumbent_through` of a seed row -/
  | retireSeed (dest : AgentId) (seedId : ℕ) : SuiteAct Bool
  /-- `demote_thread` of a specialist that has handed the conversation back -/
  | retireEpisode (delegate : AgentId) : SuiteAct Bool
  /-- `update_session_info(delegated_to=…)` -/
  | updateDelegatedTo (v : Option AgentId) : SuiteAct Bool
  /-- The summary of a thread and the demotion of what it has folded in. -/
  | applySummary (a : AgentId) (text : String) (upTo : ℕ) : SuiteAct Bool
  | applyFoldBack (delegate : AgentId) (recap : String) : SuiteAct Bool
  | applyDelegation (target : AgentId) (seed : String) : SuiteAct Bool
  /-- An errand; `false`: it raises. -/
  | attempt (what : Errand) : SuiteAct Bool
  | generate (messages : List String) : SuiteAct (Option String)
  | runLlmLoop (a : AgentId) : SuiteAct (Option LoopReply)
  /-- `peers.delegate`; the router refuses an agent that has had the task. -/
  | handOn (chain : List AgentId) (dest : AgentId) : SuiteAct PeerReply
  | failure : SuiteAct TaskStatus
  /-- Whether the router ends the task of the turn here. -/
  | strike : SuiteAct Bool
  /-- `await_root_result` of a task that has been reported, or ended by the router; `none`: it
  raises. -/
  | awaitResult (r : Option TurnResult) : SuiteAct (Option TurnResult)
  | beginTurn : SuiteAct Unit

/-- What has become of the task of the current turn. -/
structure Course where
  /-- The specialist for which a seed row was written that has not been retired. -/
  handedTo : Option AgentId := none
  /-- The episode of the specialist that had the conversation has been retired. -/
  handedBack : Bool := false
  deriving DecidableEq, Repr

/-- The record of a session, and the course of its current turn. -/
structure SuiteState where
  conv : Conversation := {}
  course : Course := {}
  deriving DecidableEq, Repr

namespace SuiteAct

open Conversation

/-- A statement that writes the record, unless it fails. -/
def write (e : SuiteEnv) (s : SuiteState) (f : Conversation → Conversation) :
    Option (SuiteState × Bool) :=
  some (if e.fails then (s, false) else ({ s with conv := f s.conv }, true))

/-- What a step does. -/
def exec : {β : Type} → SuiteAct β → SuiteEnv → SuiteState → Option (SuiteState × β)
  | _, getSessionInfo, e, s => some (s, if e.fails then none else some s.conv.info)
  | _, getUserConfig, e, s => some (s, if e.fails then none else some s.conv.limit)
  | _, reloadIncumbent a upTo, e, s =>
    some (s, if e.fails then none else some (s.conv.reloadIncumbent a upTo))
  | _, appendHistory a role message incumbent hidden, e, s =>
    write e s fun c => (c.appendHistory e.now a role message incumbent hidden).1
  | _, appendSeed dest seed, e, s =>
    if e.fails then some (s, none)
    else
      let (c, seedId) := s.conv.appendHistory e.now dest .user seed true false
      some ({ conv := c, course := { s.course with handedTo := some dest } }, some seedId)
  | _, retireSeed dest seedId, e, s =>
    if e.fails then some (s, false)
    else some ({ conv := s.conv.demoteIncumbentThrough dest seedId,
                 course := { s.course with handedTo := none } }, true)
  | _, retireEpisode delegate, e, s =>
    if e.fails then some (s, false)
    else some ({ conv := s.conv.demoteThread delegate,
                 course := { s.course with handedBack := true } }, true)
  | _, updateDelegatedTo v, e, s =>
    write e s fun c => c.updateSessionInfo fun i => { i with delegatedTo := v }
  | _, applySummary a text upTo, e, s => write e s fun c => c.applySummary a text upTo
  | _, applyFoldBack delegate recap, e, s => write e s fun c => c.applyFoldBack e.now delegate recap
  | _, applyDelegation target seed, e, s => write e s fun c => c.applyDelegation e.now target seed
  | _, attempt _, e, s => some (s, !e.fails)
  | _, generate _, e, s => some (s, if e.fails then none else some e.text)
  | _, runLlmLoop _, e, s => some (s, if e.fails then none else some e.reply)
  | _, handOn chain dest, e, s => some (s, if dest ∈ chain then .refused else e.peer)
  | _, failure, e, s => if e.status = .succeeded then none else some (s, e.status)
  | _, strike, e, s => some (s, e.fails)
  | _, awaitResult r, e, s =>
    if e.fails then some (s, none)
    else match r with
      | some r => some (s, some r)
      | none =>
        -- The router reports a task that it has ended itself.
        if e.status = .succeeded then none
        else some (s, some { agentId := routerAgentId, status := e.status })
  | _, beginTurn, _, s => some ({ s with course := {} }, ())

end SuiteAct

/-- A program that may raise. -/
abbrev Handler (α : Type) := Fallible SuiteAct α

/-- The machine of the suite, whatever its calls. -/
abbrev suiteOf {C R : Type} (body : C → Prog SuiteAct R) : Machine SuiteAct SuiteEnv SuiteState C R where
  exec := SuiteAct.exec
  body := body

/-- The step writes. -/
def SuiteAct.writes {β : Type} : SuiteAct β → Bool
  | getSessionInfo | getUserConfig | reloadIncumbent _ _ | attempt _ | generate _ | runLlmLoop _
  | handOn _ _ | failure | strike | awaitResult _ => false
  | _ => true

section

variable {C R α β : Type} {body : C → Prog SuiteAct R} {s s' : SuiteState} {e : SuiteEnv}
  {a : SuiteAct β} {b : β}

theorem SuiteAct.exec_reads (ha : a.writes = false) (he : a.exec e s = some (s', b)) : s' = s := by
  cases a with
  | failure =>
    simp only [exec] at he
    split at he <;> cases he
    rfl
  | awaitResult r =>
    simp only [exec] at he
    split at he
    · cases he
      rfl
    · split at he
      · cases he
        rfl
      · split at he <;> cases he
        rfl
  | getSessionInfo | getUserConfig | reloadIncumbent | attempt | generate | runLlmLoop | handOn
  | strike => cases he; rfl
  | _ => cases ha

/-- A statement that writes has failed, or has written. -/
theorem SuiteAct.write_eq {f : Conversation → Conversation} {b : Bool}
    (h : SuiteAct.write e s f = some (s', b)) :
    b = false ∧ s' = s ∨ b = true ∧ s' = ⟨f s.conv, s.course⟩ := by
  unfold write at h
  split at h <;> cases h
  · exact .inl ⟨rfl, rfl⟩
  · exact .inr ⟨rfl, rfl⟩

end

end Backplane
