import Backplane.Acl.Store
import Backplane.Db.Schema

/-!
# Users, agents and their credentials

The tables behind onboarding, the admin API and the token endpoints, and the statements on them.  A
statement that violates a constraint answers `none`.

* `Directory` : the tables, the agent tokens signed so far and the clock.
* `Directory.insertUser`, `Directory.softDeleteUser`, … : the users and who services them.
* `Directory.insertRefreshToken`, `Directory.consumeRefreshToken`, … : the tokens and invitations.
* `Directory.insertAgent`, `Directory.evictAgent`, `Directory.renameEvictedAgent`, … : the agents.
-/

namespace Backplane

/-- Hash of a token. -/
abbrev TokenHash := String

/-- How a user signs in. -/
inductive AuthKind
  | password | oidc | apiKey
  deriving DecidableEq, Repr

/-- A user, with the credentials and those who may mint some for the user. -/
structure UserRecord extends UserRow where
  /-- Unique among users. -/
  email : Option String := none
  authKind : AuthKind := .apiKey
  authSecretHash : Option String := none
  /-- Service principals that may mint credentials for the user. -/
  servicedBy : List UserId := []
  purgedAt : Option ℕ := none
  deriving DecidableEq, Repr

/-- A registered agent. -/
structure AgentRecord where
  agentId : AgentId
  status : AgentStatus := .active
  /-- How many rows were inserted before it.  No column: it tells a row from one that has the same id
  later. -/
  born : ℕ
  deriving DecidableEq, Repr

/-- A refresh token. -/
structure RefreshToken where
  userId : UserId
  expiresAt : ℕ
  /-- Exchanged or revoked since. -/
  usedAt : Option ℕ := none
  replacedBy : Option TokenHash := none
  deriving DecidableEq, Repr

/-- A password-reset token; a link token is one too. -/
structure ResetToken where
  userId : UserId
  expiresAt : ℕ
  usedAt : Option ℕ := none
  createdBy : Option UserId
  deriving DecidableEq, Repr

/-- An invitation to onboard. -/
structure Invitation where
  expiresAt : ℕ
  usedAt : Option ℕ := none
  usedBy : Option AgentId := none
  /-- Onboarding with it provisions a service principal too. -/
  provisionsServiceUser : Bool := false
  deriving DecidableEq, Repr

/-- A registration that waits for approval. -/
structure PendingRegistration where
  channel : String
  /-- Who registers, in the terms of the channel. -/
  externalId : String
  requestedEmail : Option String
  requestedPasswordHash : Option String
  submittedBy : Option UserId
  deriving DecidableEq, Repr

/-- A `registration.approved` or `registration.rejected` row of the audit log.  That an approval names
the registration is no column: it tells which one it resolved. -/
inductive RegistrationEvent
  | approved (registrationId : String) (userId : UserId) (channel externalId email level : String)
      (autoServicedBy : Option UserId)
  | rejected (registrationId : String) (channel externalId : String)
  deriving DecidableEq, Repr

/-- The claims of a signed agent token. -/
structure AgentToken where
  agentId : AgentId
  expiresAt : ℕ
  /-- Its own id. -/
  jti : String
  deriving DecidableEq, Repr

/-- The tables, what has been signed, and the clock. -/
structure Directory where
  users : Table UserId UserRecord := ∅
  agents : Table AgentId AgentRecord := ∅
  refreshTokens : Table TokenHash RefreshToken := ∅
  resetTokens : Table TokenHash ResetToken := ∅
  invitations : Table TokenHash Invitation := ∅
  /-- `pending_user_registrations` -/
  registrations : Table String PendingRegistration := ∅
  /-- The registrations resolved so far, as `audit_log` has them. -/
  registrationAudit : List RegistrationEvent := []
  /-- The agent tokens signed so far; nobody else can sign one. -/
  signed : List AgentToken := []
  revokedJtis : List String := []
  /-- How many rows have been inserted into `agents` so far. -/
  registered : ℕ := 0
  clock : ℕ := 0

/-- `user_is_active` -/
def UserRecord.isActive (r : UserRecord) : Bool := r.suspendedAt.isNone && r.deletedAt.isNone

/-- `_PRIVILEGED_LEVELS` -/
def privileged (level : String) : Bool := level == "admin" || level == "service"

/-- What the database checks of a level. -/
def levelCheck (level : String) : Bool := privileged level || isTier level.toList

/-- `service_user_id_for_agent` -/
def serviceUserIdForAgent (a : AgentId) : UserId := "usr_service_" ++ a

/-- `tombstone_agent_id`: the id is cut so that the suffix fits. -/
def tombstoneAgentId (a : AgentId) (epoch : ℕ) : AgentId :=
  let suffix := "_" ++ toString epoch
  String.ofList (("deleted_" ++ a).toList.take (64 - suffix.length)) ++ suffix

namespace Directory

variable (s : Directory)

/-! ### Users -/

/-- `get_user_by_email` -/
def getUserByEmail (email : String) : Option UserRecord :=
  ((s.users.select fun _ r => decide (r.email = some email)).map Prod.snd).head?

/-- Whether somebody has the address. -/
def emailTaken (email : Option String) : Bool := email.any fun e => (s.getUserByEmail e).isSome

/-- `insert_user`; neither id nor address may be taken. -/
def insertUser (r : UserRecord) : Option Directory :=
  if (s.users.lookup r.userId).isSome || s.emailTaken r.email || !levelCheck r.level then none
  else some { s with users := s.users.insert r.userId r }

/-- Rewrite a user's row, if there is one. -/
def updateUserRow (u : UserId) (f : UserRecord → UserRecord) : Directory :=
  { s with users := s.users.update u f }

/-- `append_to_serviced_by` -/
def appendToServicedBy (target service : UserId) : Directory :=
  s.updateUserRow target fun r =>
    if service ∈ r.servicedBy then r else { r with servicedBy := r.servicedBy ++ [service] }

/-- `remove_from_serviced_by` -/
def removeFromServicedBy (target service : UserId) : Directory :=
  s.updateUserRow target fun r => { r with servicedBy := r.servicedBy.filter (· ≠ service) }

/-- `sweep_serviced_by_references` -/
def sweepServicedByReferences (service : UserId) : Directory :=
  { s with users := s.users.mapRows fun _ r =>
      { r with servicedBy := r.servicedBy.filter (· ≠ service) } }

/-- `set_user_password_hash` -/
def setUserPasswordHash (u : UserId) (hash : String) : Directory :=
  s.updateUserRow u fun r => { r with authSecretHash := some hash }

/-! ### Tokens -/

/-- `insert_refresh_token` -/
def insertRefreshToken (h : TokenHash) (u : UserId) (expiresAt : ℕ) : Option Directory :=
  if (s.refreshTokens.lookup h).isSome || (s.users.lookup u).isNone then none
  else some { s with refreshTokens := s.refreshTokens.insert h ⟨u, expiresAt, none, none⟩ }

/-- `delete_user_refresh_tokens` -/
def deleteUserRefreshTokens (u : UserId) : Directory :=
  { s with refreshTokens := s.refreshTokens.deleteWhere fun _ t => decide (t.userId = u) }

/-- `consume_refresh_token`: whom the token was for; using one twice deletes all the user's
tokens. -/
def consumeRefreshToken (h replacedBy : TokenHash) : Directory × Option UserId :=
  match (s.refreshTokens.lookup h).filter fun t => s.clock < t.expiresAt with
  | none => (s, none)
  | some t =>
    if t.usedAt.isSome then (s.deleteUserRefreshTokens t.userId, none)
    else
      let t' := { t with usedAt := some s.clock, replacedBy := some replacedBy }
      ({ s with refreshTokens := s.refreshTokens.insert h t' }, some t.userId)

/-- `insert_password_reset_token` -/
def insertPasswordResetToken (h : TokenHash) (u : UserId) (expiresAt : ℕ) (createdBy : UserId) :
    Option Directory :=
  if (s.resetTokens.lookup h).isSome || (s.users.lookup u).isNone ||
      (s.users.lookup createdBy).isNone then none
  else some { s with resetTokens := s.resetTokens.insert h ⟨u, expiresAt, none, some createdBy⟩ }

/-- `consume_password_reset_token` -/
def consumePasswordResetToken (h : TokenHash) : Option (Directory × UserId) :=
  match s.resetTokens.lookup h with
  | none => none
  | some t =>
    if t.usedAt.isSome || t.expiresAt < s.clock then none
    else some ({ s with resetTokens := s.resetTokens.insert h { t with usedAt := some s.clock } },
      t.userId)

/-- `delete_user_password_reset_tokens` -/
def deleteUserPasswordResetTokens (u : UserId) : Directory :=
  { s with resetTokens := s.resetTokens.deleteWhere fun _ t => decide (t.userId = u) }

/-- `soft_delete_user`: mark a user as deleted and revoke everything; `none` if there is no such
user, and nothing happens to one who has been deleted before. -/
def softDeleteUser (u : UserId) : Option Directory :=
  (s.users.lookup u).map fun r =>
    if r.deletedAt.isSome then s
    else
      let s := s.updateUserRow u fun r => { r with deletedAt := some s.clock }
      ((s.deleteUserRefreshTokens u).deleteUserPasswordResetTokens u).sweepServicedByReferences u

/-- The end of `purge_user`: scrub the personal data. -/
def scrubUser (u : UserId) : Directory :=
  s.updateUserRow u fun r =>
    { r with email := none, authSecretHash := none, purgedAt := some s.clock }

/-- `insert_invitation` -/
def insertInvitation (h : TokenHash) (expiresAt : ℕ) (provisionsServiceUser : Bool) :
    Option Directory :=
  if (s.invitations.lookup h).isSome then none
  else some { s with invitations :=
    s.invitations.insert h ⟨expiresAt, none, none, provisionsServiceUser⟩ }

/-- `consume_invitation` -/
def consumeInvitation (h : TokenHash) (usedBy : AgentId) : Option (Directory × Invitation) :=
  match s.invitations.lookup h with
  | none => none
  | some i =>
    if i.usedAt.isSome || i.expiresAt < s.clock then none
    else
      let i' := { i with usedAt := some s.clock, usedBy := some usedBy }
      some ({ s with invitations := s.invitations.insert h i' }, i)

/-- `delete_invitation`: only one that is not used; answers whether it was there. -/
def deleteInvitation (h : TokenHash) : Directory × Bool :=
  if (s.invitations.lookup h).any fun i => i.usedAt.isNone then
    ({ s with invitations := s.invitations.erase h }, true)
  else (s, false)

/-! ### Agents -/

/-- `insert_agent` -/
def insertAgent (a : AgentId) : Option Directory :=
  if (s.agents.lookup a).isSome then none
  else some { s with
    agents := s.agents.insert a ⟨a, .active, s.registered⟩
    registered := s.registered + 1 }

/-- Give an agent another status, where the present one is among these. -/
def setStatus (a : AgentId) (guard : AgentStatus → Bool) (status : AgentStatus) : Directory :=
  { s with agents := s.agents.update a fun r => if guard r.status then { r with status } else r }

/-- `reactivate_agent_on_onboard` -/
def reactivateAgentOnOnboard (a : AgentId) : Directory :=
  s.setStatus a (fun x => x = .active || x = .pending || x = .suspended) .active

/-- `suspend_agent` -/
def suspendAgent (a : AgentId) : Directory := s.setStatus a (fun _ => true) .suspended

/-- `unsuspend_agent` -/
def unsuspendAgent (a : AgentId) : Directory := s.setStatus a (fun x => x = .suspended) .active

/-- `reset_agent_to_pending` -/
def resetAgentToPending (a : AgentId) : Directory :=
  s.setStatus a (fun x => x = .active || x = .suspended) .pending

/-- `evict_agent` -/
def evictAgent (a : AgentId) : Directory := s.setStatus a (fun _ => true) .removed

/-- Give a removed agent another id. -/
def renameAgent (a a' : AgentId) (r : AgentRecord) : Directory :=
  { s with agents := (s.agents.erase a).insert a' { r with agentId := a' } }

/-- Give a user another id; foreign keys follow, `serviced_by` has none. -/
def renameUser (u u' : UserId) (r : UserRecord) : Directory :=
  let follow (x : UserId) : UserId := if x = u then u' else x
  { s with
    users := (s.users.erase u).insert u' { r with userId := u' }
    refreshTokens := s.refreshTokens.mapRows fun _ t => { t with userId := follow t.userId }
    resetTokens := s.resetTokens.mapRows fun _ t =>
      { t with userId := follow t.userId, createdBy := t.createdBy.map follow }
    registrations := s.registrations.mapRows fun _ p =>
      { p with submittedBy := p.submittedBy.map follow } }

/-- Whether renaming would take the primary key of another row. -/
def collides {V : Type} (t : Table String V) (k k' : String) : Bool :=
  k' ≠ k && (t.lookup k').isSome

/-- `rename_evicted_agent`: the new id of the agent, where it was renamed, and of its service
principal; `none` when a new id is taken. -/
def renameEvictedAgent (a : AgentId) (epoch : ℕ) (serviceUserId : Option UserId) :
    Option (Directory × AgentId × Option UserId) :=
  let a' := tombstoneAgentId a epoch
  match (s.agents.lookup a).filter fun r => r.status = .removed with
  | none => some (s, a, none)
  | some r =>
    if collides s.agents a a' then none
    else
      let s := s.renameAgent a a' r
      match serviceUserId with
      | none => some (s, a', none)
      | some u =>
        let u' := tombstoneAgentId u epoch
        match (s.users.lookup u).filter fun r => r.level = "service" with
        | none => some (s, a', none)
        | some r => if collides s.users u u' then none else some (s.renameUser u u' r, a', some u')

end Directory

end Backplane
