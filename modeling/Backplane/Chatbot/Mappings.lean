import Backplane.Data.EventSystem
import Backplane.Data.Table
import Backplane.Protocol.Types

/-!
# Chats, users and sessions

A chat is mapped to a user and has a session of its own; a user has a session that is the default.
Commands and the polls of a channel write both, one statement at a time.

* `upsertPlatformMapping`, `setMappingSessionId` : the user is replaced and the session kept, or the
  session is replaced.
* `Stmt`, `Stmt.run` : the statements of the commands.
* `mappingSystem` : commands, polls, approvals and purges, statement by statement.
-/

namespace Backplane.Chatbot

/-! ### Tables -/

/-- A platform with chats. -/
inductive Platform
  | telegram
  | kakao
  deriving DecidableEq

/-- The `channel` of a platform. -/
def Platform.channel : Platform → String
  | telegram => "chatbot_telegram"
  | kakao => "chatbot_kakao"

/-- The key of a mapping. -/
structure Chat where
  platform : Platform
  chatId : String
  deriving DecidableEq

/-- A row of `suite_platform_mappings`. -/
structure PlatformMapping where
  userId : UserId
  sessionId : Option SessionId
  deriving DecidableEq

/-- A row of `session_info`. -/
structure SessionInfo where
  userId : UserId
  channel : Option String
  chatId : String

/-- A session of the router. -/
structure RouterSession where
  userId : UserId
  /-- The chat that it was opened for: `kind` and `external_id`. -/
  chat : Option Chat

/-- The mappings. -/
abbrev Mappings := Table Chat PlatformMapping

/-- `upsert_platform_mapping` -/
def upsertPlatformMapping (m : Mappings) (chat : Chat) (u : UserId) (sid : Option SessionId) :
    Mappings :=
  m.insert chat ⟨u, ((m.lookup chat).bind PlatformMapping.sessionId).or sid⟩

/-- `set_mapping_session_id` -/
def setMappingSessionId (m : Mappings) (chat : Chat) (sid : SessionId) : Mappings :=
  m.update chat fun r => { r with sessionId := some sid }

/-! ### Statements -/

/-- Why a session is opened. -/
inductive Opener
  | link
  | new

/-- A statement of a command. -/
inductive Stmt
  | submit (chat : Chat)
  /-- `link_channel`, which the router answers. -/
  | verify (chat : Chat)
  /-- `open_session`, which the router answers. -/
  | openSession (chat : Chat) (u : UserId) (opener : Opener)
  /-- `upsert_platform_mapping` -/
  | upsert (chat : Chat) (u : UserId) (sid : Option SessionId)
  /-- `create_user_config` -/
  | createConfig (u : UserId) (sid : SessionId)
  /-- `create_session_info` -/
  | createInfo (sid : SessionId) (u : UserId) (chat : Chat)
  /-- `set_mapping_session_id`, in a command of this user. -/
  | point (chat : Chat) (u : UserId) (sid : SessionId)
  /-- `get_user_config`, of `/link`. -/
  | adopt (chat : Chat) (u : UserId) (sid : SessionId)
  /-- `get_session_info` of the default, of `/link`. -/
  | compare (u : UserId) (sid current : SessionId)
  /-- `set_default_session_id` -/
  | setDefault (u : UserId) (sid : SessionId)
  /-- `get_platform_mapping`, of `/new`. -/
  | retire (chat : Chat)
  /-- `close_session` and `update_session_info`, of the session before. -/
  | release (sid : SessionId)

/-- The stores, the statements that are still to run, and what was reconciled. -/
structure MappingState where
  pending : List Chat := []
  users : List UserId := []
  purged : List UserId := []
  sessions : Table SessionId RouterSession := ∅
  /-- `suite_platform_mappings` -/
  mappings : Mappings := ∅
  /-- `default_session_id` of `user_config` -/
  configs : Table UserId (Option SessionId) := ∅
  infos : Table SessionId SessionInfo := ∅
  /-- The commands and polls in progress. -/
  programs : Table ℕ (List Stmt) := ∅
  reconciled : List SessionId := []

/-- Telegram takes over a default that is none, or is elsewhere; Kakao one that is none. -/
def adoptNext (chat : Chat) (u : UserId) (sid : SessionId) : Option SessionId → List Stmt
  | none => [.setDefault u sid]
  | some current => match chat.platform with
    | .telegram => [.compare u sid current]
    | .kakao => []

/-- A statement runs; what follows from it comes before the rest.  The router answers some. -/
def Stmt.run (s : MappingState) : Stmt → Option (MappingState × List Stmt)
  | .submit chat => some ({ s with pending := chat :: s.pending }, [])
  | .verify _ | .openSession _ _ _ => none
  | .upsert chat u sid => some ({ s with
      mappings := upsertPlatformMapping s.mappings chat u sid
      reconciled := sid.toList ++ s.reconciled }, [])
  | .createConfig u sid => some (if (s.configs.lookup u).isSome then s
      else { s with configs := s.configs.insert u (some sid) }, [])
  | .createInfo sid u chat => some (if (s.infos.lookup sid).isSome then s
      else { s with
        infos := s.infos.insert sid ⟨u, some chat.platform.channel, chat.chatId⟩ }, [])
  | .point chat _ sid => some ({ s with mappings := setMappingSessionId s.mappings chat sid }, [])
  | .adopt chat u sid => some (s, adoptNext chat u sid (s.configs.lookup u).join)
  | .compare u sid current => some (s,
      if (s.infos.lookup current).bind SessionInfo.channel = some Platform.telegram.channel then []
      else [.setDefault u sid])
  | .setDefault u sid => some ({ s with configs := s.configs.update u fun _ => some sid }, [])
  | .retire chat => some (s, (((s.mappings.lookup chat).bind PlatformMapping.sessionId).map
      Stmt.release).toList)
  | .release sid => some ({ s with infos := s.infos.update sid fun i =>
      { i with channel := none } }, [])

/-! ### Commands -/

namespace MappingState

variable (s : MappingState)

/-- `/register` -/
def cmdRegister (chat : Chat) : List Stmt :=
  if (s.mappings.lookup chat).isSome then [] else [.submit chat]

/-- `/link` -/
def cmdLink (chat : Chat) : List Stmt :=
  if (s.mappings.lookup chat).isSome then [] else [.verify chat]

/-- `/new` -/
def cmdNew (chat : Chat) : List Stmt :=
  match s.mappings.lookup chat with
  | none => []
  | some r => [.retire chat, .openSession chat r.userId .new]

/-- `/setdefault` -/
def cmdSetdefault (chat : Chat) : List Stmt :=
  match s.mappings.lookup chat with
  | some ⟨u, some sid⟩ => [.setDefault u sid]
  | _ => []

/-- `reconcile_serviced_sessions`, of one record. -/
def reconcileSession (platform : Platform) (sid : SessionId) : List Stmt :=
  match s.sessions.lookup sid with
  | some ⟨u, some chat⟩ =>
    if u ∉ s.purged ∧ chat.platform = platform ∧ chat.chatId ≠ "" then
      [.upsert chat u (some sid), .createConfig u sid, .createInfo sid u chat]
    else []
  | _ => []

/-- What follows when the session is open. -/
def opened (chat : Chat) (u : UserId) (sid : SessionId) : Opener → List Stmt
  | .link => [.createInfo sid u chat, .point chat u sid, .adopt chat u sid]
  | .new => [.createInfo sid u chat, .point chat u sid, .setDefault u sid]

end MappingState

/-- What happens. -/
inductive MappingEvent
  | register (rid : ℕ) (chat : Chat)
  | link (rid : ℕ) (chat : Chat)
  | new (rid : ℕ) (chat : Chat)
  | setdefault (rid : ℕ) (chat : Chat)
  /-- A poll of a channel is answered with these sessions. -/
  | poll (rid : ℕ) (platform : Platform) (sids : List SessionId)
  | run (rid : ℕ)
  | linked (rid : ℕ) (u : UserId)
  | opened (rid : ℕ) (sid : SessionId)
  /-- Retiring the session before fails. -/
  | skip (rid : ℕ)
  /-- A command or a poll ends where it is, or the channel stops. -/
  | abort (rid : ℕ)
  | approve (chat : Chat) (u : UserId) (sid : SessionId)
  | signUp (u : UserId)
  /-- A page of the web application is shown: `create_user_config`, with no default. -/
  | webapp (u : UserId)
  | purge (u : UserId)
  /-- `purge_user_suite_data` -/
  | purgeSuite (u : UserId)

namespace MappingState

/-- A program begins. -/
def start (s : MappingState) (rid : ℕ) (stmts : List Stmt) : Option MappingState :=
  if (s.programs.lookup rid).isSome then none
  else some { s with programs := s.programs.insert rid stmts }

/-- A program goes on. -/
def goOn (s : MappingState) (rid : ℕ) (stmts : List Stmt) : MappingState :=
  { s with programs := s.programs.insert rid stmts }

/-- An event. -/
def step (s : MappingState) : MappingEvent → Option MappingState
  | .register rid chat => s.start rid (s.cmdRegister chat)
  | .link rid chat => s.start rid (s.cmdLink chat)
  | .new rid chat => s.start rid (s.cmdNew chat)
  | .setdefault rid chat => s.start rid (s.cmdSetdefault chat)
  | .poll rid platform sids => s.start rid (sids.flatMap (s.reconcileSession platform))
  | .run rid => match s.programs.lookup rid with
    | some (stmt :: rest) => (stmt.run s).map fun (s', next) => s'.goOn rid (next ++ rest)
    | _ => none
  | .linked rid u => match s.programs.lookup rid with
    | some (.verify chat :: rest) =>
      if u ∈ s.users ∧ u ∉ s.purged then
        some (s.goOn rid (.upsert chat u none :: .openSession chat u .link :: rest))
      else none
    | _ => none
  | .opened rid sid => match s.programs.lookup rid with
    | some (.openSession chat u opener :: rest) =>
      if (s.sessions.lookup sid).isSome then none
      else some ({ s with sessions := s.sessions.insert sid ⟨u, some chat⟩ }.goOn rid
        (opened chat u sid opener ++ rest))
    | _ => none
  | .skip rid => match s.programs.lookup rid with
    | some (.release _ :: rest) => some (s.goOn rid rest)
    | _ => none
  | .abort rid => some { s with programs := s.programs.erase rid }
  | .approve chat u sid =>
    if chat ∈ s.pending ∧ u ∉ s.users ∧ (s.sessions.lookup sid).isNone then
      some { s with
        pending := s.pending.filter (· ≠ chat)
        users := u :: s.users
        sessions := s.sessions.insert sid ⟨u, some chat⟩ }
    else none
  | .signUp u => some { s with users := u :: s.users }
  | .webapp u => some (if (s.configs.lookup u).isSome then s
      else { s with configs := s.configs.insert u none })
  | .purge u => some { s with purged := u :: s.purged }
  | .purgeSuite u =>
    if u ∈ s.purged then
      some { s with
        mappings := s.mappings.deleteWhere fun _ r => decide (r.userId = u)
        infos := s.infos.deleteWhere fun _ i => decide (i.userId = u)
        configs := s.configs.erase u }
    else none

end MappingState

/-- The chats, from the start on. -/
def mappingSystem : EventSystem MappingState MappingEvent := ⟨{}, MappingState.step⟩

end Backplane.Chatbot
