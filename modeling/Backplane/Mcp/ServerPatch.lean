import Backplane.Acl.Store
import Backplane.Data.EventSystem

/-!
# Changes to the row of an MCP server

An administrator changes some columns of a row.  The change is merged with the row as it was read,
what comes of it is checked as if it were a new server, and some columns are written back from it,
others only if the change has them.  In between, others may change the row.

* `merged`, `prepare` : the server that is checked.
* `written`, `updateMcpServer` : what becomes of the row.
* `patches` : changes to one row, read and written in any order.
* `asked` : what a change asks for.
* `Complete`, `Faithful` : a change has all it needs, and does what it asks for.
-/

namespace Backplane.McpServer

/-! ### Rows and changes -/

/-- How a server is reached. -/
inductive Transport
  /-- `"sse"` -/
  | sse
  /-- `"streamable_http"` -/
  | streamableHttp
  /-- `"stdio"` -/
  | stdio
  deriving DecidableEq, Repr

/-- The value of the column. -/
def Transport.name : Transport → String
  | sse => "sse"
  | streamableHttp => "streamable_http"
  | stdio => "stdio"

/-- How the bridge identifies itself to a server. -/
inductive Credential
  /-- `"none"` -/
  | none
  /-- `"bearer"` -/
  | bearer
  /-- `"header"` -/
  | header
  deriving DecidableEq, Repr

/-- The columns that an administrator sets, and the fields of `McpServerCreate`. -/
structure Server where
  serverId : String
  description : String := ""
  url : Option String := .none
  transport : Transport
  /-- How the bridge identifies itself. -/
  authKind : Credential := .none
  /-- Where the secret is kept. -/
  authValueRef : Option String := .none
  authHeaderName : Option String := .none
  groups : List String := []
  /-- Its tools are shown to models. -/
  exposeToLlm : Bool := true
  capabilities : List String := []
  disabledTools : List String := []
  /-- What is started; of `stdio`. -/
  command : Option String := .none
  args : List String := []
  envRefs : List (String × String) := []
  deriving DecidableEq, Repr

/-- `McpServerUpdate`; `none`: the field is left out, or null. -/
structure Update where
  description : Option String := .none
  url : Option String := .none
  transport : Option Transport := .none
  authKind : Option Credential := .none
  authValueRef : Option String := .none
  authHeaderName : Option String := .none
  groups : Option (List String) := .none
  exposeToLlm : Option Bool := .none
  capabilities : Option (List String) := .none
  disabledTools : Option (List String) := .none
  command : Option String := .none
  args : Option (List String) := .none
  envRefs : Option (List (String × String)) := .none
  deriving DecidableEq, Repr

/-- Why a change fails. -/
inductive Failure
  /-- Fields of a model are not well formed. -/
  | invalid (fields : List String)
  | value (message : String)
  | http (status : ℕ)
  | violated (name : String)
  deriving DecidableEq, Repr

/-- What the settings allow. -/
structure Policy where
  /-- `mcp_allowed_launchers` -/
  launchers : List String
  /-- `validate_base_url(provider="mcp", ...)` raises. -/
  refuses : String → Bool

/-! ### The checks of single fields -/

/-- `[A-Za-z_][A-Za-z0-9_]*` -/
def isEnvName : List Char → Bool
  | [] => false
  | c :: cs => (c.isAlpha || c == '_') && cs.all fun c => c.isAlphanum || c == '_'

/-- `[a-z][a-z0-9_]+` -/
def isServerId : List Char → Bool
  | [] => false
  | c :: cs => c.isLower && !cs.isEmpty && cs.all isSegmentChar

/-- `(env|secret)://.+` -/
def isValueRef (cs : List Char) : Bool :=
  ["env://", "secret://"].any fun scheme =>
    scheme.toList.isPrefixOf cs && !(cs.drop scheme.length).isEmpty &&
      (cs.drop scheme.length).all (· ≠ '\n')

/-- `_server_id_shape` -/
def serverIdShape (v : String) : Bool := pyMatch isServerId v.toList

/-- `_url_scheme` -/
def urlScheme (v : Option String) : Bool :=
  v.all fun u => u == "" || ["http://", "https://"].any fun scheme =>
    scheme.toList.isPrefixOf (u.toList.map Char.toLower)

/-- `_auth_value_ref_shape` -/
def authValueRefShape (v : Option String) : Bool :=
  v.all fun r => r == "" || pyMatch isValueRef r.toList

/-- `_groups_grammar` -/
def groupsGrammar (v : List String) : Bool := v.all fun g => pyMatch isGroupName g.toList

/-- `_capabilities_grammar` -/
def capabilitiesGrammar (v : List String) : Bool := v.all fun c => pyMatch (isDotted 1) c.toList

/-- `_disabled_tools_shape` -/
def disabledToolsShape (v : List String) : Bool := v.all fun t => t ≠ "" && t.length ≤ 256

/-- `_env_refs_shape` -/
def envRefsShape (v : List (String × String)) : Bool :=
  v.all fun x => pyMatch isEnvName x.1.toList && x.2 ≠ ""

/-- The checks of the fields of `McpServerCreate`. -/
def Server.checks (s : Server) : List (String × Bool) :=
  [("server_id", serverIdShape s.serverId), ("url", urlScheme s.url),
    ("auth_value_ref", authValueRefShape s.authValueRef), ("groups", groupsGrammar s.groups),
    ("capabilities", capabilitiesGrammar s.capabilities),
    ("disabled_tools", disabledToolsShape s.disabledTools),
    ("env_refs", envRefsShape s.envRefs)]

/-- The fields that do not pass. -/
def failing (checks : List (String × Bool)) : List String :=
  (checks.filter fun x => !x.2).map Prod.fst

/-- `McpServerCreate(...)`; an empty url or reference is none. -/
def create (s : Server) : Except Failure Server :=
  if failing s.checks = [] then
    .ok { s with url := s.url.filter (· ≠ ""), authValueRef := s.authValueRef.filter (· ≠ "") }
  else .error (.invalid (failing s.checks))

/-- The checks of the fields of `McpServerUpdate`. -/
def Update.checks (p : Update) : List (String × Bool) :=
  [("url", urlScheme p.url), ("auth_value_ref", authValueRefShape p.authValueRef),
    ("groups", p.groups.all groupsGrammar),
    ("capabilities", p.capabilities.all capabilitiesGrammar),
    ("disabled_tools", p.disabledTools.all disabledToolsShape),
    ("env_refs", p.envRefs.all envRefsShape)]

/-- A request becomes a change; an empty url or reference is none. -/
def Update.parse (p : Update) : Except Failure Update :=
  if failing p.checks = [] then
    .ok { p with url := p.url.filter (· ≠ ""), authValueRef := p.authValueRef.filter (· ≠ "") }
  else .error (.invalid (failing p.checks))

/-! ### The checks across fields -/

/-- `_check_auth_consistency` -/
def authError (kind : Credential) (ref header : Option String) : Option String :=
  match kind with
  | .none =>
    if ref.isSome then some "auth_value_ref must be null when auth_kind='none'"
    else if header.isSome then some "auth_header_name must be null when auth_kind='none'"
    else .none
  | .bearer =>
    if ref.isNone then some "auth_value_ref is required when auth_kind='bearer'"
    else if header.isSome then
      some ("auth_header_name must be null when auth_kind='bearer' " ++
        "(implicit `Authorization: Bearer <value>`)")
    else .none
  | .header =>
    if ref.isNone then some "auth_value_ref is required when auth_kind='header'"
    else if header.isNone then some "auth_header_name is required when auth_kind='header'"
    else .none

/-- `not v`, of a text or none. -/
def blank (v : Option String) : Bool := v.all (· == "")

/-- `_check_transport_consistency` -/
def Server.transportError (s : Server) : Option String :=
  if s.transport = .stdio then
    if blank s.command then some "command is required when transport='stdio'"
    else if s.url.isSome then some "url must be null when transport='stdio'"
    else if s.authKind ≠ .none then
      some ("auth_kind must be 'none' for stdio (no HTTP auth; pass server secrets via env_refs " ++
        "instead)")
    else .none
  else
    if blank s.url then some ("url is required when transport='" ++ s.transport.name ++ "'")
    else if s.command.isSome then
      some ("command/args/env_refs apply only to stdio, not transport='" ++ s.transport.name ++ "'")
    else .none

/-- The constraint of the table that a row violates, if any. -/
def Server.violated (s : Server) : Option String :=
  if (authError s.authKind s.authValueRef s.authHeaderName).isSome then
    some "mcp_servers_auth_consistent"
  else if (s.transport = .stdio ∧ s.command.isSome ∧ s.url.isNone) ∨
      (s.transport ≠ .stdio ∧ s.url.isSome ∧ s.command.isNone) then .none
  else some "mcp_servers_transport_fields"

/-- The rules that a new server keeps. -/
structure Server.Consistent (s : Server) : Prop where
  /-- The credential is complete. -/
  auth : authError s.authKind s.authValueRef s.authHeaderName = .none
  /-- The server can be reached the way it says. -/
  transport : s.transportError = .none

/-! ### A change -/

/-- `synthetic`, before its fields are checked. -/
def merged (existing : Server) (req : Update) : Server where
  serverId := existing.serverId
  description := ((req.description.filter (· ≠ ""))).getD existing.description
  url := (req.url.filter (· ≠ "")).or existing.url
  transport := req.transport.getD existing.transport
  authKind := req.authKind.getD existing.authKind
  authValueRef := if req.authKind.isSome then req.authValueRef else existing.authValueRef
  authHeaderName := if req.authKind.isSome then req.authHeaderName else existing.authHeaderName
  groups := req.groups.getD existing.groups
  exposeToLlm := req.exposeToLlm.getD existing.exposeToLlm
  command := req.command.or existing.command
  args := req.args.getD existing.args
  envRefs := req.envRefs.getD existing.envRefs

/-- What `None` or an error is, of a check. -/
def require (error : Option Failure) : Except Failure Unit :=
  match error with
  | .none => .ok ()
  | some e => .error e

/-- `_check_mcp_launcher` or `_check_mcp_url_ssrf`, by the transport. -/
def checkReach (policy : Policy) (s : Server) : Option Failure :=
  if s.transport = .stdio then
    if s.command.any (· ∈ policy.launchers) then .none else some (.http 400)
  else if s.url.any policy.refuses then some (.http 400) else .none

/-- What is checked before the row is written. -/
def prepare (policy : Policy) (existing : Server) (req : Update) : Except Failure Server := do
  let synthetic ← create (merged existing req)
  require
    ((authError synthetic.authKind synthetic.authValueRef synthetic.authHeaderName).map .value)
  require (synthetic.transportError.map .value)
  require (checkReach policy synthetic)
  return synthetic

/-- `queries.update_mcp_server` with `set_stdio_fields`, as the endpoint calls it. -/
def written (row : Server) (req : Update) (synthetic : Server) : Server where
  serverId := row.serverId
  description := req.description.getD row.description
  transport := req.transport.getD row.transport
  authKind := req.authKind.getD row.authKind
  authValueRef := if req.authKind.isSome then req.authValueRef else row.authValueRef
  authHeaderName := if req.authKind.isSome then req.authHeaderName else row.authHeaderName
  groups := req.groups.getD row.groups
  exposeToLlm := req.exposeToLlm.getD row.exposeToLlm
  capabilities := req.capabilities.getD row.capabilities
  disabledTools := req.disabledTools.getD row.disabledTools
  url := synthetic.url
  command := synthetic.command
  args := synthetic.args
  envRefs := synthetic.envRefs

/-- `update_mcp_server`: the row was `existing` when it was read, and is `row` when it is
written. -/
def updateMcpServer (policy : Policy) (existing row : Server) (req : Update) :
    Except Failure Server := do
  let synthetic ← prepare policy existing req
  match (written row req synthetic).violated with
  | some name => .error (.violated name)
  | .none => .ok (written row req synthetic)

/-! ### Changes to one row -/

/-- A row, and the changes that have read it. -/
structure State where
  row : Server
  /-- The changes that are not yet written, each with the row it read. -/
  pending : List (Update × Server) := []
  deriving DecidableEq, Repr

/-- What happens to a row. -/
inductive Event
  | read (req : Update)
  /-- The change at that place is written, or fails. -/
  | write (i : ℕ)
  deriving DecidableEq, Repr

/-- One event. -/
def step (policy : Policy) (s : State) : Event → Option State
  | .read req => match req.parse with
    | .ok req => some { s with pending := s.pending ++ [(req, s.row)] }
    | .error _ => .none
  | .write i => match s.pending[i]? with
    | .none => .none
    | some (req, existing) => some
      { row := match updateMcpServer policy existing s.row req with
          | .ok row => row
          | .error _ => s.row
        pending := s.pending.eraseIdx i }

/-- Changes to a row, in any order. -/
def patches (policy : Policy) (row : Server) : EventSystem State Event := ⟨{ row }, step policy⟩

/-! ### What a change asks for -/

/-- Each field that is set is changed, and a change between `stdio` and a url clears what the other
one has. -/
def asked (row : Server) (req : Update) : Server :=
  let transport := req.transport.getD row.transport
  let toStdio := decide (transport = .stdio ∧ row.transport ≠ .stdio)
  let toUrl := decide (transport ≠ .stdio ∧ row.transport = .stdio)
  { serverId := row.serverId
    description := req.description.getD row.description
    transport
    authKind := req.authKind.getD row.authKind
    authValueRef := if req.authKind.isSome then req.authValueRef else
      req.authValueRef.or row.authValueRef
    authHeaderName := if req.authKind.isSome then req.authHeaderName else
      req.authHeaderName.or row.authHeaderName
    groups := req.groups.getD row.groups
    exposeToLlm := req.exposeToLlm.getD row.exposeToLlm
    capabilities := req.capabilities.getD row.capabilities
    disabledTools := req.disabledTools.getD row.disabledTools
    url := if toStdio then req.url else req.url.or row.url
    command := if toUrl then req.command else req.command.or row.command
    args := if toUrl then req.args.getD [] else req.args.getD row.args
    envRefs := if toUrl then req.envRefs.getD [] else req.envRefs.getD row.envRefs }

/-- A change has all that the transport it names requires, and nothing that excludes it. -/
structure Complete (policy : Policy) (existing : Server) (req : Update) (t : Transport) : Prop where
  transport : req.transport = some t
  /-- The credential that it leaves is complete. -/
  auth : ∀ kind ∈ req.authKind, authError kind req.authValueRef req.authHeaderName = .none
  /-- What `stdio` requires. -/
  stdio : t = .stdio → req.url = .none ∧ req.authKind.getD existing.authKind = .none ∧
    ∃ command ∈ req.command, command ≠ "" ∧ command ∈ policy.launchers
  /-- What a url transport requires. -/
  url : t ≠ .stdio → req.command = .none ∧ ∃ url ∈ req.url, policy.refuses url = false

/-- A change does what it asks for: if it succeeds, it changes what it sets and leaves a consistent
row; and it succeeds if it is complete. -/
structure Faithful (policy : Policy) (existing row : Server) (req : Update) : Prop where
  changes : ∀ row', updateMcpServer policy existing row req = .ok row' → row' = asked row req
  /-- What is left. -/
  consistent : ∀ row', updateMcpServer policy existing row req = .ok row' → row'.Consistent
  accepted : ∀ t, Complete policy existing req t →
    ∃ row', updateMcpServer policy existing row req = .ok row'

end Backplane.McpServer
