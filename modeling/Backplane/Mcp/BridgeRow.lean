import Backplane.Data.Table
import Mathlib.Data.List.Sort

/-!
# The rows a bridge is built from

The supervisor polls two tables of the router and reads each row into the shape that its bridge
takes.

* `AdminDict` : a row as it comes from the router.
* `ServerBridgeRow`, `CustomAgentBridgeRow` : what is read from it, with the fields whose change
  restarts the bridge.
* `decode` : a row is read, passed over, or raises.
* `wanted` : the rows that are to have bridges; `desired` : the same, if none raises.
-/

namespace Backplane.Mcp

/-! ### What the router answers -/

/-- A parameter of a custom agent. -/
structure ParameterDict where
  name : Option String := none
  description : Option String := none
  isRequired : Option Bool := none
  fileRef : Option Bool := none
  deriving DecidableEq

/-- A row of either table, as it comes from the router; `none`: the key is missing, or its value is
null where the router sends null. -/
structure AdminDict where
  /-- A value has a type that the constructor raises on. -/
  isGarbled : Bool := false
  serverId : Option String := none
  url : Option String := none
  transport : Option String := none
  authKind : Option String := none
  authValueRef : Option String := none
  authHeaderName : Option String := none
  groups : Option (List String) := none
  exposeToLlm : Option Bool := none
  refreshRequestedAt : Option String := none
  pendingInvitationToken : Option String := none
  capabilities : Option (List String) := none
  disabledTools : Option (List String) := none
  command : Option String := none
  args : Option (List String) := none
  envRefs : Option (List (String × String)) := none
  agentId : Option String := none
  description : Option String := none
  presetName : Option String := none
  systemPrompt : Option String := none
  userPrompt : Option String := none
  parameters : Option (List ParameterDict) := none
  outputAsFile : Option Bool := none
  enabled : Option Bool := none
  agentLoopEnabled : Option Bool := none
  maxRounds : Option ℤ := none
  fileAccess : Option String := none
  peerToolsEnabled : Option Bool := none

/-! ### Rows of servers -/

/-- `ServerBridgeRow` -/
structure ServerBridgeRow where
  serverId : String
  url : Option String
  transport : String
  authKind : String
  authValueRef : Option String
  authHeaderName : Option String
  groups : List String
  exposeToLlm : Bool
  refreshRequestedAt : Option String
  pendingInvitationToken : Option String
  capabilities : List String
  disabledTools : List String
  command : Option String
  args : List String
  envRefs : List (String × String)

namespace ServerBridgeRow

/-- `from_admin_dict`; `none`: it raises. -/
def fromAdminDict (row : AdminDict) : Option ServerBridgeRow :=
  if row.isGarbled then none else do
    let serverId ← row.serverId
    let transport ← row.transport
    let authKind ← row.authKind
    return {
      serverId, transport, authKind
      url := row.url
      authValueRef := row.authValueRef
      authHeaderName := row.authHeaderName
      groups := row.groups.getD []
      exposeToLlm := row.exposeToLlm.getD true
      refreshRequestedAt := row.refreshRequestedAt
      pendingInvitationToken := row.pendingInvitationToken
      capabilities := row.capabilities.getD []
      disabledTools := row.disabledTools.getD []
      command := row.command
      args := row.args.getD []
      envRefs := row.envRefs.getD [] }

/-- The fields whose change restarts the bridge. -/
structure Signature where
  url : Option String
  transport : String
  authKind : String
  authValueRef : Option String
  authHeaderName : Option String
  groups : List String
  exposeToLlm : Bool
  capabilities : List String
  disabledTools : List String
  command : Option String
  args : List String
  /-- The items of `env_refs`, sorted. -/
  envRefs : List (String × String)
  deriving DecidableEq

/-- `config_signature` -/
def configSignature (r : ServerBridgeRow) : Signature :=
  ⟨r.url, r.transport, r.authKind, r.authValueRef, r.authHeaderName, r.groups, r.exposeToLlm,
    r.capabilities, r.disabledTools, r.command, r.args,
    r.envRefs.insertionSort fun a b => a.1 ≤ b.1⟩

end ServerBridgeRow

/-! ### Rows of custom agents -/

/-- `CustomAgentBridgeRow` -/
structure CustomAgentBridgeRow where
  agentId : String
  description : String
  presetName : String
  systemPrompt : String
  userPrompt : String
  parameters : List ParameterDict
  groups : List String
  capabilities : List String
  exposeToLlm : Bool
  outputAsFile : Bool
  enabled : Bool
  agentLoopEnabled : Bool
  maxRounds : ℤ
  fileAccess : String
  peerToolsEnabled : Bool
  pendingInvitationToken : Option String

namespace CustomAgentBridgeRow

/-- `from_admin_dict`; `none`: it raises. -/
def fromAdminDict (row : AdminDict) : Option CustomAgentBridgeRow :=
  if row.isGarbled then none else do
    let agentId ← row.agentId
    let presetName ← row.presetName
    return {
      agentId, presetName
      description := row.description.getD ""
      systemPrompt := row.systemPrompt.getD ""
      userPrompt := row.userPrompt.getD ""
      parameters := row.parameters.getD []
      groups := row.groups.getD []
      capabilities := row.capabilities.getD []
      exposeToLlm := row.exposeToLlm.getD true
      outputAsFile := row.outputAsFile.getD false
      enabled := row.enabled.getD true
      agentLoopEnabled := row.agentLoopEnabled.getD false
      maxRounds := (row.maxRounds.filter (· ≠ 0)).getD 4
      fileAccess := (row.fileAccess.filter (· ≠ "")).getD "none"
      peerToolsEnabled := row.peerToolsEnabled.getD false
      pendingInvitationToken := row.pendingInvitationToken }

/-- The fields whose change restarts the bridge. -/
structure Signature where
  description : String
  presetName : String
  systemPrompt : String
  userPrompt : String
  /-- Of each parameter its name, its description and its two flags. -/
  parameters : List (Option String × String × Bool × Bool)
  groups : List String
  capabilities : List String
  exposeToLlm : Bool
  outputAsFile : Bool
  agentLoopEnabled : Bool
  maxRounds : ℤ
  fileAccess : String
  peerToolsEnabled : Bool
  deriving DecidableEq

/-- `config_signature` -/
def configSignature (r : CustomAgentBridgeRow) : Signature :=
  ⟨r.description, r.presetName, r.systemPrompt, r.userPrompt,
    r.parameters.map fun p =>
      (p.name, p.description.getD "", p.isRequired.getD true, p.fileRef.getD false),
    r.groups, r.capabilities, r.exposeToLlm, r.outputAsFile, r.agentLoopEnabled, r.maxRounds,
    r.fileAccess, r.peerToolsEnabled⟩

end CustomAgentBridgeRow

/-! ### The rows of both tables -/

/-- The table a row is of. -/
inductive Source
  | server
  | custom
  deriving DecidableEq

/-- What a bridge is built from. -/
inductive BridgeRow
  | server (r : ServerBridgeRow)
  | custom (r : CustomAgentBridgeRow)

namespace BridgeRow

/-- The key in the dictionary of bridges. -/
def id : BridgeRow → String
  | server r => r.serverId
  | custom r => r.agentId

/-- `config_signature` -/
def configSignature : BridgeRow → ServerBridgeRow.Signature ⊕ CustomAgentBridgeRow.Signature
  | server r => .inl r.configSignature
  | custom r => .inr r.configSignature

/-- `_refresh_advanced`; a custom agent has nothing to refresh. -/
def refreshAdvanced : BridgeRow → BridgeRow → Bool
  | server prev, server new => match new.refreshRequestedAt, prev.refreshRequestedAt with
    | none, _ => false
    | some _, none => true
    | some t', some t => t < t'
  | _, _ => false

end BridgeRow

/-- A row is read; `some none`: it is passed over, for it is disabled; `none`: it raises. -/
def decode : Source → AdminDict → Option (Option BridgeRow)
  | .server, d => (ServerBridgeRow.fromAdminDict d).map fun r => some (.server r)
  | .custom, d =>
    if d.enabled.getD true then
      (CustomAgentBridgeRow.fromAdminDict d).map fun r => some (.custom r)
    else some none

/-- The rows by their keys; of two with one key, the last one counts. -/
def byId (rows : List BridgeRow) : Table String BridgeRow :=
  rows.foldl (fun t r => t.insert r.id r) ∅

/-- The rows that can be read, and are not disabled. -/
def readable (src : Source) (rows : List AdminDict) : List BridgeRow :=
  rows.filterMap fun d => (decode src d).join

/-- The rows that are to have bridges. -/
def wanted (src : Source) (rows : List AdminDict) : Table String BridgeRow :=
  byId (readable src rows)

/-- Every row can be read. -/
def decodes (src : Source) (rows : List AdminDict) : Bool := rows.all fun d => (decode src d).isSome

/-- The keys, in the order of the rows. -/
def order (src : Source) (rows : List AdminDict) : List String :=
  ((readable src rows).map BridgeRow.id).eraseDups

variable {rows : List BridgeRow} {t : Table String BridgeRow} {sid : String} {row : BridgeRow}

theorem lookup_foldl_insert
    (h : (rows.foldl (fun t r => t.insert r.id r) t).lookup sid = some row) :
    row.id = sid ∧ row ∈ rows ∨ t.lookup sid = some row := by
  induction rows generalizing t with
  | nil => exact .inr h
  | cons r rows ih =>
    rcases ih h with ⟨hid, hmem⟩ | hlookup
    · exact .inl ⟨hid, List.mem_cons_of_mem _ hmem⟩
    · rw [Table.lookup_insert] at hlookup
      split_ifs at hlookup with hsid
      · obtain rfl := Option.some.inj hlookup
        exact .inl ⟨hsid.symm, List.mem_cons_self⟩
      · exact .inr hlookup

theorem id_of_byId (h : (byId rows).lookup sid = some row) : row.id = sid ∧ row ∈ rows := by
  rcases lookup_foldl_insert h with h | h
  · exact h
  · cases h

theorem mem_order {src : Source} {ds : List AdminDict} (h : (wanted src ds).lookup sid = some row) :
    sid ∈ order src ds := by
  obtain ⟨rfl, hmem⟩ := id_of_byId h
  exact List.mem_eraseDups.2 (List.mem_map_of_mem hmem)

end Backplane.Mcp
