import Backplane.Data.EventSystem
import Backplane.Mcp.BridgeRow

/-!
# The tools of a server, as modes of its agent

A bridge lists the tools of its server again and again.  Each time it replaces the modes of its
agent, and sends the router one update of them; if the names have changed, it sends another of the
capabilities.

* `capabilitySegment`, `buildCapabilities`, `acceptsSchemaFor` : what is derived from the tools.
* `AgentInfo.merge` : an update keeps the fields that it does not set.
* `ToolState` : the bridge, its agent, the connection and the router.
* `toolSystem` : reconciles, and what becomes of the updates that they send.
-/

namespace Backplane.Mcp

/-! ### What is derived from the tools -/

/-- `ToolDefinition` -/
structure ToolDefinition (Schema : Type) where
  name : String
  inputSchema : Schema
  deriving DecidableEq

/-- A character of a name, in lower case and in the grammar of capabilities.  Of the others, the
Kelvin sign and the capital I with a dot have a lower case with an ASCII letter. -/
def segmentChars (c : Char) : List Char :=
  if c.isUpper then [c.toLower]
  else if c.isLower || c.isDigit || c = '_' then [c]
  else if c = '\u212a' then ['k']
  else if c = '\u0130' then ['i', '_']
  else ['_']

/-- `_capability_segment` -/
def capabilitySegment (name : String) : String :=
  let s := name.toList.flatMap segmentChars
  String.ofList (if s.head?.any Char.isAlpha then s else 't' :: '_' :: s)

section

variable {Schema : Type}

/-- `_build_capabilities` -/
def buildCapabilities (tools : List (ToolDefinition Schema)) (extra : List String) :
    List String :=
  ("mcp.bridge" :: tools.map (fun t => "mcp.tool." ++ capabilitySegment t.name) ++ extra).foldl
    (fun caps cap => if cap ∈ caps then caps else caps ++ [cap]) []

/-- `_accepts_schema_for` -/
def acceptsSchemaFor (tools : List (ToolDefinition Schema)) : Table String Schema :=
  tools.foldl (fun modes t => modes.insert t.name t.inputSchema) ∅

/-- The handlers of `set_modes`: the mode, and the tool that its handler calls. -/
def handlersFor (tools : List (ToolDefinition Schema)) : Table String String :=
  tools.foldl (fun modes t => modes.insert t.name t.name) ∅

/-- `_enabled_tools` -/
def ServerBridgeRow.enabledTools (row : ServerBridgeRow) (tools : List (ToolDefinition Schema)) :
    List (ToolDefinition Schema) :=
  tools.filter fun t => t.name ∉ row.disabledTools

/-- `_server_description` -/
def ServerBridgeRow.serverDescription (row : ServerBridgeRow) : String :=
  "MCP server " ++ row.serverId ++ " (" ++ row.transport ++ ")."

/-- The sets of names differ. -/
def namesChanged (old new : List (ToolDefinition Schema)) : Bool :=
  new.any (fun t => t.name ∉ old.map ToolDefinition.name) ||
    old.any (fun t => t.name ∉ new.map ToolDefinition.name)

end

/-! ### What is published -/

/-- The fields of `AgentInfo` that updates set. -/
structure AgentInfo (Schema : Type) where
  description : String
  capabilities : List String
  acceptsSchema : Option (Table String Schema)
  nonToolModes : List String

/-- `AgentInfoUpdateFrame`; `none`: the field is kept. -/
structure AgentInfoUpdate (Schema : Type) where
  description : Option String := none
  capabilities : Option (List String) := none
  acceptsSchema : Option (Table String Schema) := none
  nonToolModes : Option (List String) := none

/-- An update is merged. -/
def AgentInfo.merge {Schema : Type} (info : AgentInfo Schema) (p : AgentInfoUpdate Schema) :
    AgentInfo Schema where
  description := p.description.getD info.description
  capabilities := p.capabilities.getD info.capabilities
  acceptsSchema := p.acceptsSchema.or info.acceptsSchema
  nonToolModes := p.nonToolModes.getD info.nonToolModes

/-- What becomes of an update at the router. -/
inductive UpdateVerdict
  | accepted
  /-- It is rejected, or there are too many. -/
  | refused
  /-- Handling it fails before the commit: no answer. -/
  | failed
  /-- Handling it fails after the commit: no answer. -/
  | unanswered
  deriving DecidableEq

/-! ### The bridge -/

/-- Where `_apply_tools` is. -/
inductive Applying (Schema : Type)
  /-- No reconcile is in progress, or it lists the tools. -/
  | idle
  /-- `set_modes` awaits the answer to its update. -/
  | modes (seq : ℕ) (listed : List (ToolDefinition Schema))
  /-- `_update_capabilities_and_description` awaits the answer to its update. -/
  | capabilities (seq : ℕ) (listed : List (ToolDefinition Schema))

/-- Where `_do_resync_info` is. -/
inductive Resync (Schema : Type)
  /-- The agent has no dispatcher yet. -/
  | offline
  | due
  | awaiting (seq : ℕ) (p : AgentInfoUpdate Schema)
  | ended

/-- The bridge, its agent, the connection and the router. -/
structure ToolState (Schema : Type) where
  knownTools : List (ToolDefinition Schema)
  handlers : Table String String
  /-- `info` of the agent. -/
  info : AgentInfo Schema
  /-- `agent_info` of the router's row. -/
  router : AgentInfo Schema
  /-- Where the reconcile is. -/
  applying : Applying Schema := .idle
  /-- Where the task of the start is. -/
  resync : Resync Schema := .offline
  isUp : Bool := false
  /-- The Hello on its way. -/
  greeting : Option (AgentInfo Schema) := none
  /-- The next `correlation_id`. -/
  next : ℕ := 0
  flight : List (ℕ × AgentInfoUpdate Schema) := []
  acks : List (ℕ × Bool) := []
  /-- The tools of the last reconcile, if its updates were accepted. -/
  applied : Option (List (ToolDefinition Schema)) := none

/-- What happens. -/
inductive ToolEvent (Schema : Type)
  /-- `tools/list` is answered, for a reconcile. -/
  | list (listed : List (ToolDefinition Schema))
  /-- The router handles the next update. -/
  | handle (v : UpdateVerdict)
  | ack
  | timeout
  /-- The task of the start sends its update. -/
  | resync
  /-- It has waited too long. -/
  | resyncTimeout
  | disconnect
  /-- An update is lost with it. -/
  | lose (n : ℕ)
  /-- An update that was not sent goes behind the others. -/
  | requeue (n : ℕ)
  | loseAck (n : ℕ)
  /-- An answer that was not sent goes behind the others. -/
  | requeueAck (n : ℕ)
  | hello
  | welcome
  | connect

namespace ToolState

variable {Schema : Type} (row : ServerBridgeRow) (s : ToolState Schema)

/-- An update is sent. -/
def send (p : AgentInfoUpdate Schema) : ToolState Schema :=
  { s with flight := s.flight ++ [(s.next, p)], next := s.next + 1 }

/-- The end of `_apply_tools`. -/
def finish (listed : List (ToolDefinition Schema)) (isApplied : Bool) : ToolState Schema :=
  { s with
    knownTools := row.enabledTools listed
    applying := .idle
    applied := if isApplied then some listed else none }

/-- The update of `set_modes`. -/
def modesUpdate (listed : List (ToolDefinition Schema)) : AgentInfoUpdate Schema where
  acceptsSchema := some (acceptsSchemaFor (row.enabledTools listed))
  nonToolModes := some []

/-- The update of `_update_capabilities_and_description`. -/
def capabilitiesUpdate (listed : List (ToolDefinition Schema)) : AgentInfoUpdate Schema where
  capabilities := some (buildCapabilities (row.enabledTools listed) row.capabilities)
  description := some row.serverDescription

/-- The rest of `_apply_tools`, when `set_modes` has returned. -/
def afterModes (listed : List (ToolDefinition Schema)) : ToolState Schema :=
  if namesChanged s.knownTools (row.enabledTools listed) then
    { s.send (capabilitiesUpdate row listed) with applying := .capabilities s.next listed }
  else s.finish row listed true

/-- `_apply_tools`.  Without a dispatcher `set_modes` returns without an update, and `update_info`
raises. -/
def apply (listed : List (ToolDefinition Schema)) : ToolState Schema :=
  if (row.enabledTools listed).any fun t => t.name = "" then { s with applied := none }
  else
    let s := { s with
      handlers := handlersFor (row.enabledTools listed)
      info := s.info.merge (modesUpdate row listed) }
    match s.resync with
    | .offline => s.finish row listed false
    | _ => { s.send (modesUpdate row listed) with
        applying := .modes s.next listed
        applied := none }

/-- The update of `_do_resync_info`. -/
def resyncUpdate : AgentInfoUpdate Schema where
  capabilities := some s.info.capabilities
  acceptsSchema := some (s.info.acceptsSchema.getD ∅)
  nonToolModes := some s.info.nonToolModes

/-- The router handles an update. -/
def handle (seq : ℕ) (p : AgentInfoUpdate Schema) : UpdateVerdict → ToolState Schema
  | .accepted => { s with router := s.router.merge p, acks := s.acks ++ [(seq, true)] }
  | .refused => { s with acks := s.acks ++ [(seq, false)] }
  | .failed => s
  | .unanswered => { s with router := s.router.merge p }

/-- The reconcile has its answer, if it awaits this one. -/
def answerReconcile (seq : ℕ) (ok : Bool) : ToolState Schema :=
  match s.applying with
  | .idle => s
  | .modes n listed =>
    if n ≠ seq then s
    else if ok then { s with info := s.info.merge (modesUpdate row listed) }.afterModes row listed
    else { s with applying := .idle }
  | .capabilities n listed =>
    if n ≠ seq then s
    else if ok then
      { s with info := s.info.merge (capabilitiesUpdate row listed) }.finish row listed true
    else s.finish row listed false

/-- The task of the start has its answer, if it awaits this one. -/
def answerResync (seq : ℕ) (ok : Bool) : ToolState Schema :=
  match s.resync with
  | .awaiting n p =>
    if n ≠ seq then s
    else { s with info := if ok then s.info.merge p else s.info, resync := .ended }
  | _ => s

/-- Answers are read while the connection is up, once the task of the start has sent its update. -/
def readsAnswers : Bool :=
  s.isUp && match s.resync with
    | .offline | .due => false
    | _ => true

/-- An event. -/
def step (s : ToolState Schema) : ToolEvent Schema → Option (ToolState Schema)
  | .list listed => match s.applying with
    | .idle => some (s.apply row listed)
    | _ => none
  | .handle v => match s.flight with
    | (seq, p) :: flight => some ({ s with flight }.handle seq p v)
    | [] => none
  | .ack => match s.acks with
    | (seq, ok) :: acks =>
      if s.readsAnswers then
        some (({ s with acks }.answerResync seq ok).answerReconcile row seq ok)
      else none
    | [] => none
  | .timeout => match s.applying with
    | .idle => none
    | .modes _ _ => some { s with applying := .idle }
    | .capabilities _ listed => some (s.finish row listed false)
  | .resync => match s.resync with
    | .due => some { s.send s.resyncUpdate with resync := .awaiting s.next s.resyncUpdate }
    | _ => none
  | .resyncTimeout => match s.resync with
    | .awaiting _ _ => some { s with resync := .ended }
    | _ => none
  | .disconnect => if s.isUp then some { s with isUp := false } else none
  | .lose n => if s.isUp then none else some { s with flight := s.flight.eraseIdx n }
  | .requeue n => if s.isUp then none
    else some { s with flight := s.flight.eraseIdx n ++ (s.flight[n]?).toList }
  | .loseAck n => if s.isUp then none else some { s with acks := s.acks.eraseIdx n }
  | .requeueAck n => if s.isUp then none
    else some { s with acks := s.acks.eraseIdx n ++ (s.acks[n]?).toList }
  | .hello => if s.isUp then none else some { s with greeting := some s.info }
  | .welcome => s.greeting.map fun info =>
    { s with router := info, greeting := none, isUp := true }
  | .connect => match s.resync with
    | .offline => if s.isUp then some { s with resync := .due } else none
    | _ => none

/-- `_spawn_agent`; the router has something of the agent, from before. -/
def spawn (listed : List (ToolDefinition Schema)) (router : AgentInfo Schema) :
    ToolState Schema where
  knownTools := row.enabledTools listed
  handlers := handlersFor (row.enabledTools listed)
  info := {
    description := row.serverDescription
    capabilities := buildCapabilities (row.enabledTools listed) row.capabilities
    acceptsSchema := some (acceptsSchemaFor (row.enabledTools listed))
    nonToolModes := [] }
  router := router

end ToolState

/-- The bridge of a row, from the tools that it lists first. -/
def toolSystem {Schema : Type} (row : ServerBridgeRow) (listed : List (ToolDefinition Schema))
    (router : AgentInfo Schema) : EventSystem (ToolState Schema) (ToolEvent Schema) :=
  ⟨.spawn row listed router, ToolState.step row⟩

end Backplane.Mcp
