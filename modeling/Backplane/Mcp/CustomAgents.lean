import Backplane.Acl.Store
import Backplane.Data.EventSystem
import Backplane.Data.Table
import Backplane.Data.Template
import Backplane.Protocol.Types

/-!
# Requests that edit custom agents

An admin creates, patches and deletes agents whose prompts have placeholders for the declared
parameters.  A patch is checked against the row that it reads before its transaction, which writes
the columns that it sets.

* `checkPromptPlaceholders`, `CustomAgentCreate.crossField` : the checks.
* `CustomAgentUpdate.merge` : what a patch makes of a definition.
* `customAgentSystem` : the requests, step by step.
-/

namespace Backplane

open Template (getIdentifiers)

/-! ### Payloads -/

/-- `CustomAgentParam` -/
structure CustomAgentParam where
  name : String
  description : String := ""
  isRequired : Bool := true
  fileRef : Bool := false

/-- What an admin defines of an agent. -/
structure CustomAgentFields where
  description : String := ""
  presetName : String
  systemPrompt : String := ""
  userPrompt : String := ""
  parameters : List CustomAgentParam := []
  groups : List String := []
  capabilities : List String := []
  exposeToLlm : Bool := true
  outputAsFile : Bool := false
  enabled : Bool := true
  agentLoopEnabled : Bool := false
  maxRounds : ℤ := 4
  fileAccess : String := "none"
  peerToolsEnabled : Bool := false

/-- `CustomAgentCreate` -/
structure CustomAgentCreate extends CustomAgentFields where
  agentId : String

/-- `CustomAgentUpdate`; what is `none` is left as it is. -/
structure CustomAgentUpdate where
  description : Option String := none
  presetName : Option String := none
  systemPrompt : Option String := none
  userPrompt : Option String := none
  parameters : Option (List CustomAgentParam) := none
  groups : Option (List String) := none
  capabilities : Option (List String) := none
  exposeToLlm : Option Bool := none
  outputAsFile : Option Bool := none
  enabled : Option Bool := none
  agentLoopEnabled : Option Bool := none
  maxRounds : Option ℤ := none
  fileAccess : Option String := none
  peerToolsEnabled : Option Bool := none

/-! ### Checks -/

/-- `[a-z][a-z0-9_]*` -/
def isParamName : List Char → Bool
  | [] => false
  | c :: cs => c.isLower && cs.all isSegmentChar

/-- `custom_[a-z][a-z0-9_]*` -/
def isCustomAgentId (cs : List Char) : Bool :=
  "custom_".toList.isPrefixOf cs && isParamName (cs.drop "custom_".length)

/-- `_check_file_access` -/
def checkFileAccess (v : String) : Bool := ["none", "read_only", "full"].contains v

/-- `_check_max_rounds` -/
def checkMaxRounds (v : ℤ) : Bool := 1 ≤ v && v ≤ 16

/-- `_check_caps_grammar` -/
def checkCapsGrammar (caps : List String) : Bool := caps.all fun c => pyMatch (isDotted 1) c.toList

/-- `_check_groups_grammar` -/
def checkGroupsGrammar (groups : List String) : Bool :=
  groups.all fun g => pyMatch isGroupName g.toList

/-- `CustomAgentParam._name_shape` -/
def CustomAgentParam.nameShape (p : CustomAgentParam) : Bool := pyMatch isParamName p.name.toList

/-- `_check_param_names_unique` -/
def checkParamNamesUnique (params : List CustomAgentParam) : Bool :=
  decide (params.map CustomAgentParam.name).Nodup

/-- `_prompt_placeholders` -/
def promptPlaceholders (templates : List String) : List String :=
  (templates.flatMap getIdentifiers).eraseDups

/-- The undeclared parameters, as the error of `_check_prompt_placeholders` lists them. -/
def undeclared (systemPrompt userPrompt : String) (paramNames : List String) : List String :=
  ((promptPlaceholders [systemPrompt, userPrompt]).filter (· ∉ paramNames)).insertionSort (· ≤ ·)

/-- `_check_prompt_placeholders`; the error lists the undeclared parameters. -/
def checkPromptPlaceholders (systemPrompt userPrompt : String) (paramNames : List String) :
    Except (List String) Unit :=
  match undeclared systemPrompt userPrompt paramNames with
  | [] => .ok ()
  | names => .error names

/-- The names of the declared parameters. -/
def CustomAgentFields.paramNames (f : CustomAgentFields) : List String :=
  f.parameters.map CustomAgentParam.name

/-- `_check_prompt_placeholders`, of a definition. -/
def CustomAgentFields.checkPlaceholders (f : CustomAgentFields) : Except (List String) Unit :=
  checkPromptPlaceholders f.systemPrompt f.userPrompt f.paramNames

/-- Why a request is refused. -/
inductive CustomAgentError
  /-- 422: a field has no value of its kind. -/
  | field
  | repeated
  /-- 422: the prompts use parameters that are not declared. -/
  | undeclared (names : List String)
  | notFound
  | taken (agentId : String)
  | noPreset (name : String)
  /-- 500: the table refuses the identifier, or the row is gone. -/
  | failed

/-- The field validators of a new agent. -/
def CustomAgentCreate.validate (req : CustomAgentCreate) : Bool :=
  pyMatch isCustomAgentId req.agentId.toList && req.parameters.all CustomAgentParam.nameShape &&
    checkGroupsGrammar req.groups && checkCapsGrammar req.capabilities &&
    checkFileAccess req.fileAccess && checkMaxRounds req.maxRounds

/-- The validators of a new agent; the last one is `_cross_field`. -/
def CustomAgentCreate.crossField (req : CustomAgentCreate) : Except CustomAgentError Unit :=
  if ¬ req.validate then .error .field
  else if ¬ checkParamNamesUnique req.parameters then .error .repeated
  else req.checkPlaceholders.mapError .undeclared

/-- The validators of a patch. -/
def CustomAgentUpdate.validate (req : CustomAgentUpdate) : Bool :=
  req.parameters.all (·.all CustomAgentParam.nameShape) &&
    req.groups.all checkGroupsGrammar && req.capabilities.all checkCapsGrammar &&
    req.fileAccess.all checkFileAccess && req.maxRounds.all checkMaxRounds

/-- The columns that a patch sets, over the others. -/
def CustomAgentUpdate.merge (req : CustomAgentUpdate) (f : CustomAgentFields) :
    CustomAgentFields where
  description := req.description.getD f.description
  presetName := req.presetName.getD f.presetName
  systemPrompt := req.systemPrompt.getD f.systemPrompt
  userPrompt := req.userPrompt.getD f.userPrompt
  parameters := req.parameters.getD f.parameters
  groups := req.groups.getD f.groups
  capabilities := req.capabilities.getD f.capabilities
  exposeToLlm := req.exposeToLlm.getD f.exposeToLlm
  outputAsFile := req.outputAsFile.getD f.outputAsFile
  enabled := req.enabled.getD f.enabled
  agentLoopEnabled := req.agentLoopEnabled.getD f.agentLoopEnabled
  maxRounds := req.maxRounds.getD f.maxRounds
  fileAccess := req.fileAccess.getD f.fileAccess
  peerToolsEnabled := req.peerToolsEnabled.getD f.peerToolsEnabled

/-! ### The table -/

/-- `CustomAgentRow` -/
structure CustomAgentRow where
  fields : CustomAgentFields
  createdAt : ℕ
  updatedAt : ℕ
  createdBy : Option UserId
  pendingInvitationToken : Option String := none

/-- `custom_agents` -/
abbrev CustomAgentTable := Table String CustomAgentRow

namespace CustomAgentTable

/-- The transaction of `create_custom_agent`, when these presets exist. -/
def createCustomAgent (t : CustomAgentTable) (presets : List String) (now : ℕ) (token : String)
    (admin : UserId) (req : CustomAgentCreate) : Except CustomAgentError CustomAgentTable :=
  if ¬ isCustomAgentId req.agentId.toList then .error .failed
  else if (t.lookup req.agentId).isSome then .error (.taken req.agentId)
  else if req.presetName ∉ presets then .error (.noPreset req.presetName)
  else .ok <| t.insert req.agentId
    ⟨req.toCustomAgentFields, now, now, some admin, some token⟩

/-- The checks of `update_custom_agent` before its transaction, and what they have read. -/
def checkUpdate (t : CustomAgentTable) (agentId : String) (req : CustomAgentUpdate) :
    Except CustomAgentError CustomAgentFields :=
  if ¬ req.validate then .error .field
  else match t.lookup agentId with
    | none => .error .notFound
    | some existing => do
      (req.merge existing.fields).checkPlaceholders.mapError .undeclared
      return existing.fields

/-- The transaction of `update_custom_agent`. -/
def updateCustomAgent (t : CustomAgentTable) (presets : List String) (now : ℕ) (agentId : String)
    (req : CustomAgentUpdate) : Except CustomAgentError CustomAgentTable :=
  match req.presetName.filter (· ∉ presets) with
  | some name => .error (.noPreset name)
  | none =>
    if (t.lookup agentId).isNone then .error .failed
    else .ok <| t.update agentId fun r => { r with fields := req.merge r.fields, updatedAt := now }

/-- The transaction of `delete_custom_agent`. -/
def deleteCustomAgent (t : CustomAgentTable) (agentId : String) : CustomAgentTable :=
  t.erase agentId

/-- `reconnect_custom_agent`, which mints an invitation, and `record_custom_agent_connected`, which
clears it. -/
def setPendingInvitation (t : CustomAgentTable) (agentId : String) (token : Option String) :
    CustomAgentTable :=
  t.update agentId fun r => { r with pendingInvitationToken := token }

end CustomAgentTable

/-! ### The requests -/

/-- A patch whose checks have passed. -/
structure CustomAgentPatch where
  agentId : String
  req : CustomAgentUpdate
  seen : CustomAgentFields

/-- The committed table, and the patches that are in progress. -/
structure CustomAgentState where
  agents : CustomAgentTable := ∅
  patches : Table ℕ CustomAgentPatch := ∅

/-- What happens. -/
inductive CustomAgentEvent
  /-- An agent is created, while these presets exist. -/
  | create (presets : List String) (now : ℕ) (token : String) (admin : UserId)
      (req : CustomAgentCreate)
  | check (rid : ℕ) (agentId : String) (req : CustomAgentUpdate)
  /-- The transaction of a patch, while these presets exist. -/
  | write (rid : ℕ) (presets : List String) (now : ℕ)
  /-- A patch ends before its transaction. -/
  | abandon (rid : ℕ)
  | delete (agentId : String)
  /-- An invitation is minted or cleared. -/
  | invite (agentId : String) (token : Option String)

namespace CustomAgentState

/-- A transaction is committed, or it fails. -/
def settle (s : CustomAgentState) : Except CustomAgentError CustomAgentTable → CustomAgentState
  | .ok agents => { s with agents }
  | .error _ => s

/-- An event. -/
def step (s : CustomAgentState) : CustomAgentEvent → Option CustomAgentState
  | .create presets now token admin req => some <| match req.crossField with
    | .ok () => s.settle (s.agents.createCustomAgent presets now token admin req)
    | .error _ => s
  | .check rid agentId req =>
    if (s.patches.lookup rid).isSome then none
    else some <| match s.agents.checkUpdate agentId req with
      | .ok seen => { s with patches := s.patches.insert rid ⟨agentId, req, seen⟩ }
      | .error _ => s
  | .write rid presets now => (s.patches.lookup rid).map fun p =>
    { s with patches := s.patches.erase rid }.settle
      (s.agents.updateCustomAgent presets now p.agentId p.req)
  | .abandon rid => some { s with patches := s.patches.erase rid }
  | .delete agentId => some { s with agents := s.agents.deleteCustomAgent agentId }
  | .invite agentId token => some { s with agents := s.agents.setPendingInvitation agentId token }

end CustomAgentState

/-- The requests, from an empty table on. -/
def customAgentSystem : EventSystem CustomAgentState CustomAgentEvent :=
  ⟨{}, CustomAgentState.step⟩

end Backplane
