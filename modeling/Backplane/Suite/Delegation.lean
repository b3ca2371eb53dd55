import Backplane.Suite.Summaries

/-!
# Who has the conversation

The channel sends a message to the orchestrator, or to the specialist that has the conversation.
The orchestrator may hand its task to a specialist, and a specialist may hand it back; the channel
finds out who has the conversation from who reports the result.  A user may switch by command.

* `runOrchestratorMessage`, `runDelegatedTurn`, `runOrchestratorEndDelegation` : the agents.
* `SuiteConfig.dispatchTurn`, `updateDelegation`, `delegateTo`, `undelegate`, `foldBack` : the channel.
* `suite` : the machine; its runs are the operations on one session, one at a time.
-/

namespace Backplane

open Concur Prog

/-- The specialists of a deployment. -/
structure SuiteConfig where
  /-- Those the orchestrator may hand off to: `_l1_destinations`. -/
  destinations : List AgentId
  /-- Those a user may switch to: `delegatable_agents`. -/
  delegatable : List AgentId
  /-- The orchestrator and the router are none of them. -/
  specialists : ∀ a ∈ destinations ++ delegatable, IsSpecialist a

variable (cfg : SuiteConfig)

/-! ### Agents -/

/-- `persist_tool_exchanges` -/
def persistToolExchanges (agentId : AgentId) : List (String × String) → Handler Unit
  | [] => pure ()
  | (call, result) :: exchanges => do
    Fallible.write (.appendHistory agentId .toolCall call false true)
    Fallible.write (.appendHistory agentId .toolResult result false true)
    persistToolExchanges agentId exchanges

/-- The end of a turn that is answered: the calls of tools, and the answer. -/
def persistTurn (agentId : AgentId) (reply : LoopReply) : Handler Unit := do
  persistToolExchanges agentId reply.exchanges
  Fallible.write (.appendHistory agentId .assistant reply.text true false)

/-- How a handler of an agent ends, as the SDK reports it. -/
def reported (agentId : AgentId) (p : Handler TurnResult) : Prog SuiteAct TurnResult := do
  match ← p.run with
  | .ok r => pure r
  | .error () => do
    let status ← perform .failure
    pure { agentId := agentId, status := status }

/-- What a specialist forwards when it hands a conversation back: what it says itself, or else the
last message of the user. -/
def forwardedPrompt (args : EndDelegation) (rows : List HistoryRow) : String :=
  if ¬ args.userPrompt.toList.all Char.isWhitespace then args.userPrompt
  else (((rows.reverse.find? fun r => decide (r.role = .user)).map HistoryRow.message).filter
    (· ≠ "")).getD args.userPrompt

/-- `run_delegated_turn`, where `handBack` is what the orchestrator does with a task that is handed
back; the router refuses to hand it back in the first turn. -/
def runDelegatedTurn (agentId : AgentId) (chain : List AgentId)
    (handBack : EndDelegation → Prog SuiteAct TurnResult) : Handler TurnResult := do
  let _ ← Fallible.query .getUserConfig
  let rows ← Fallible.query (.reloadIncumbent agentId none)
  let _ ← Fallible.query .getSessionInfo
  let reply ← Fallible.query (.runLlmLoop agentId)
  match reply.endDelegation with
  | some args =>
    match ← Fallible.lift (perform (.handOn chain orchestratorAgentId)) with
    | .accepted =>
      Fallible.lift (handBack { args with userPrompt := forwardedPrompt args rows })
    | .refused | .raised => throw ()
  | none =>
    if reply.extraTerminal then
      Fallible.write (.attempt .enterPlan)
      pure { agentId := agentId, status := .succeeded }
    else
      persistTurn agentId reply
      pure { agentId := agentId, status := .succeeded, contextTokens := some reply.tokens }

/-- The seed row of a hand-off. -/
def handOffSeed (userPrompt : String) (args : HandOff) : String :=
  "## Delegated task\n" ++ args.instruction ++
    (if args.context = "" then "" else "\n\n## Context\n" ++ args.context) ++
    "\n\n## User request\n" ++ userPrompt

/-- `_run_hand_off_fallback` -/
def runHandOffFallback (tokens : ℕ) : Handler TurnResult := do
  let reply ← Fallible.query (.runLlmLoop orchestratorAgentId)
  persistTurn orchestratorAgentId reply
  pure { agentId := orchestratorAgentId, status := .succeeded, contextTokens := some tokens }

/-- The first turn of a specialist, which cannot hand the task back. -/
def firstTurn (agentId : AgentId) (chain : List AgentId) : Prog SuiteAct TurnResult :=
  reported agentId (runDelegatedTurn agentId chain fun _ =>
    perform .failure >>= fun status => pure { agentId := orchestratorAgentId, status := status })

/-- `_do_hand_off`, and what comes of it. -/
def doHandOff (chain : List AgentId) (userPrompt : String) (args : HandOff) (tokens : ℕ) :
    Handler TurnResult := do
  let dest := args.agentId
  let seedId ← Fallible.query (.appendSeed dest (handOffSeed userPrompt args))
  match ← Fallible.lift (perform (.handOn chain dest)) with
  | .accepted => Fallible.lift do
    -- The row that closes the turn of the orchestrator; nobody waits for it.
    let _ ← perform (.appendHistory orchestratorAgentId .assistant
      ("Delegated to " ++ dest ++ ".") true true)
    firstTurn dest (dest :: chain)
  | .refused =>
    Fallible.write (.retireSeed dest seedId)
    runHandOffFallback tokens
  | .raised => throw ()

/-- `run_orchestrator_message`; `chain` are the agents that have had the task. -/
def runOrchestratorMessage (chain : List AgentId) (userPrompt : String) : Handler TurnResult := do
  let _ ← Fallible.query .getUserConfig
  let _ ← Fallible.query (.reloadIncumbent orchestratorAgentId none)
  let _ ← Fallible.query .getSessionInfo
  let reply ← Fallible.query (.runLlmLoop orchestratorAgentId)
  match reply.handOff.filter fun args => decide (args.agentId ∈ cfg.destinations) with
  | some args => doHandOff chain userPrompt args reply.tokens
  | none =>
    persistTurn orchestratorAgentId reply
    pure { agentId := orchestratorAgentId, status := .succeeded, contextTokens := some reply.tokens }

/-- `run_orchestrator_end_delegation` -/
def runOrchestratorEndDelegation (delegate : AgentId) (args : EndDelegation) :
    Handler TurnResult := do
  Fallible.write (.appendHistory orchestratorAgentId .user
    ("[Returned from " ++ delegate ++ "] " ++ args.delegationSummary ++ " (reason: " ++
      args.exitReason ++ ")") true true)
  Fallible.write (.appendHistory orchestratorAgentId .assistant "Acknowledged." true true)
  Fallible.write (.retireEpisode delegate)
  if args.userPrompt ≠ "" then
    Fallible.write (.appendHistory orchestratorAgentId .user args.userPrompt true false)
    runOrchestratorMessage cfg [orchestratorAgentId, delegate] args.userPrompt
  else pure { agentId := orchestratorAgentId, status := .succeeded }

/-- The task of a turn: the agent it is sent to, and those it is handed on to. -/
def serveTurn (dest : AgentId) (prompt : String) : Prog SuiteAct TurnResult :=
  if dest = orchestratorAgentId then reported dest (runOrchestratorMessage cfg [dest] prompt)
  else reported dest (runDelegatedTurn dest [dest] fun args =>
    reported orchestratorAgentId (runOrchestratorEndDelegation cfg dest args))

/-! ### The channel -/

/-- `route` -/
def routeTo (info : Option SessionInfo) : AgentId :=
  (info.bind SessionInfo.delegatedTo).getD orchestratorAgentId

/-- `_save_inbound_file`: a file that cannot be saved is left out. -/
def saveInboundFile (dest : AgentId) (name : String) : Handler Unit := do
  if ← Fallible.lift (perform (.attempt .download)) then
    Fallible.write (.appendHistory dest .user ("user-attached file saved as " ++ name) true true)

/-- What the user has sent, in the thread of the agent it goes to. -/
def recordInbound (dest : AgentId) (text : String) : List String → Handler Unit
  | [] => if text = "" then pure () else Fallible.write (.appendHistory dest .user text true false)
  | name :: names => do
    saveInboundFile dest name
    recordInbound dest text names

/-- What a result says about who has the conversation: the change to `delegated_to`, if any. -/
def delegationUpdate (dest : AgentId) (r : TurnResult) : Option (Option AgentId) :=
  if r.status ≠ .succeeded ∧ dest ≠ orchestratorAgentId then some none
  else if dest = orchestratorAgentId ∧ r.agentId ∉ [orchestratorAgentId, routerAgentId] then
    some (some r.agentId)
  else if dest ≠ orchestratorAgentId ∧ r.agentId = orchestratorAgentId then some none
  else none

/-- `_update_delegation`; `false`: it raises. -/
def updateDelegation (dest : AgentId) (r : TurnResult) : Prog SuiteAct Bool :=
  match delegationUpdate dest r with
  | none => pure true
  | some v => perform (.updateDelegatedTo v)

/-- How a turn has gone. -/
structure TurnReport where
  /-- The result of its task, if one has arrived. -/
  result : Option TurnResult := none
  /-- `_update_delegation` has been carried out. -/
  noted : Bool := false
  deriving DecidableEq, Repr

/-- `_dispatch_turn`, under the lock of the session. -/
def SuiteConfig.dispatchTurn (text : String) (attachments : List String) : Prog SuiteAct TurnReport := do
  perform .beginTurn
  match ← perform .getSessionInfo with
  | none => pure {}
  | some info => do
    let dest := routeTo info
    match ← (recordInbound dest text attachments).run with
    | .error () => pure {}
    | .ok () => do
      if ← perform (.attempt .spawn) then
        let prompt := if text = "" then "(the user sent a file — see the attached file.)" else text
        let r ← (serveTurn cfg dest prompt).interruptible .strike
        match ← perform (.awaitResult r) with
        | none => do
          let _ ← perform (.attempt .sendFailure)
          pure {}
        | some result => do
          if ← perform (.attempt .sendMessage) then
            if ← updateDelegation dest result then
              let _ ← (maybeSummarize dest result.contextTokens).run
              pure { result := some result, noted := true }
            else pure { result := some result }
          else pure { result := some result }
      else do
        let _ ← perform (.attempt .sendFailure)
        pure {}

/-- Words begin with a capital letter; `inWord` says whether one has begun. -/
def titled : Bool → List Char → List Char
  | _, [] => []
  | inWord, c :: cs => (if inWord then c.toLower else c.toUpper) :: titled c.isAlpha cs

/-- `pretty_agent` -/
def prettyAgent (agentId : AgentId) : String :=
  String.ofList (titled false (agentId.toList.map fun c => if c = '_' then ' ' else c))

/-- `_fold_back` -/
def foldBack (delegate : AgentId) (info : Option SessionInfo) : Handler Unit := do
  let summary ← summarizeThread delegate (info.bind SessionInfo.delegateSummary)
  Fallible.write (.applyFoldBack delegate ("[Returned from " ++ prettyAgent delegate ++ "] " ++
    if summary = "" then "(no summary)" else summary))

/-- `undelegate` -/
def undelegate : Handler Unit := do
  let info ← Fallible.query .getSessionInfo
  match info.bind SessionInfo.delegatedTo with
  | none => pure ()
  | some current => foldBack current info

/-- `delegate` -/
def delegateTo (target : AgentId) : Handler Unit := do
  if target ∈ cfg.delegatable then
    let info ← Fallible.query .getSessionInfo
    let current := info.bind SessionInfo.delegatedTo
    if current = some target then pure ()
    else
      let info ← match current with
        | none => pure info
        | some current => do
          foldBack current info
          Fallible.query .getSessionInfo
      let summary ← summarizeThread orchestratorAgentId (info.bind SessionInfo.historySummary)
      Fallible.write (.applyDelegation target ("## Conversation so far (summarized)\n" ++
        (if summary = "" then "(no prior conversation)" else summary) ++
        "\n\nThe user has delegated this conversation to you; continue helping them directly."))
  else pure ()

/-! ### One session -/

/-- What is done to a session. -/
inductive SuiteCall
  | message (text : String) (attachments : List String)
  | delegate (target : AgentId)
  | undelegate
  /-- An agent of a turn that the channel has given up on appends a row. -/
  | straggle (agentId : AgentId) (text : String)

/-- What a call runs; turns report how they have gone. -/
def SuiteCall.body : SuiteCall → Prog SuiteAct TurnReport
  | message text attachments => cfg.dispatchTurn text attachments
  | delegate target => do
    let _ ← (delegateTo cfg target).run
    pure {}
  | undelegate => do
    let _ ← Backplane.undelegate.run
    pure {}
  | straggle agentId text => do
    let _ ← perform (.appendHistory agentId .assistant text true false)
    pure {}

/-- The suite; the lock of the session lets one operation in at a time. -/
def suite : Machine SuiteAct SuiteEnv SuiteState SuiteCall TurnReport :=
  suiteOf (SuiteCall.body cfg)

end Backplane
