import Backplane.Data.Rollback
import Backplane.Db.Audit
import Backplane.Identity.Requests

/-!
# The token endpoints, statement by statement

Refreshing, resetting a password, linking a chat or a sign-in identity, and onboarding, each as the
statements of its transaction.  A statement that raises, or a `raise` of the handler, leaves the
transaction.

* `Accounts` : the tables with the sign-in identities and the audit log.
* `Accounts.refresh`, `Accounts.linkChannel`, … : the bodies of the transactions.
* `AuthRequest`, `AuthRequest.handle` : the requests; what comes before the transaction commits by
  itself.
-/

namespace Backplane

open Rollback

/-- A sign-in identity: a row of `user_oidc_identities`, by issuer and subject. -/
structure OidcIdentity where
  userId : UserId
  /-- The address it had when it was linked. -/
  emailAtLink : Option String
  deriving DecidableEq, Repr

/-- The tables of the token endpoints. -/
structure Accounts extends Directory where
  /-- `user_oidc_identities` -/
  identities : Table (String × String) OidcIdentity := ∅
  /-- The `level` column of `invitations`. -/
  invitationLevels : Table TokenHash String := ∅
  /-- `audit_log`, as the events that were appended. -/
  auditLog : List AuditEvent := []
  /-- A statement of this transaction has looked up the token of the request.  No column: it tells
  which rejections come after that. -/
  lookedUp : Bool := false

/-- The claims of a validated ID token. -/
structure OidcClaims where
  sub : String
  email : Option String := none

/-- What the token endpoints are configured with. -/
structure AuthSettings extends IdentitySettings where
  /-- The OpenID provider, if sign-in through one is enabled. -/
  oidcIssuer : Option String := none
  oidcAllowedRedirectUris : List String := []

/-- What a request learns from outside. -/
structure AuthEnv extends DirEnv where
  denialAuditAllowed : Bool := true
  ip : String := ""
  /-- How long a client that is turned away should wait. -/
  retryAfterS : ℕ := 1
  /-- What the provider makes of the code; `none`: an `OidcError`. -/
  oidcClaims : Option OidcClaims := none

namespace Accounts

/-- Statements on the tables. -/
abbrev Stmt := EStateM RequestFailure Accounts

/-- A statement on the directory. -/
def onDirectory (f : Directory → Directory) : Stmt Unit :=
  modify fun s => { s with toDirectory := f s.toDirectory }

/-- A statement on the directory that may raise. -/
def tryDirectory (f : Directory → Except RequestFailure Directory) : Stmt Unit := do
  match f (← get).toDirectory with
  | .ok d => onDirectory fun _ => d
  | .error e => throw e

/-- `append_audit_event` -/
def appendAuditEvent (ev : AuditEvent) : Stmt Unit :=
  modify fun s => { s with auditLog := s.auditLog ++ [ev] }

/-- `get_user_by_id`, for one who is active: else the request is turned away. -/
def activeUser (u : UserId) (inactive : RequestFailure) : Stmt UserRecord := do
  match ((← get).users.lookup u).filter UserRecord.isActive with
  | none => throw inactive
  | some r => return r

/-- `consume_refresh_token` -/
def consumeRefreshToken (h replacedBy : TokenHash) : Stmt (Option UserId) := do
  let (d, u) := (← get).toDirectory.consumeRefreshToken h replacedBy
  modify fun s => { s with toDirectory := d, lookedUp := true }
  return u

/-- `consume_password_reset_token` -/
def consumePasswordResetToken (h : TokenHash) : Stmt (Option UserId) := do
  modify fun s => { s with lookedUp := true }
  match (← get).toDirectory.consumePasswordResetToken h with
  | none => return none
  | some (d, u) =>
    onDirectory fun _ => d
    return some u

/-- `consume_invitation` -/
def consumeInvitation (h : TokenHash) (usedBy : AgentId) : Stmt (Option Invitation) := do
  modify fun s => { s with lookedUp := true }
  match (← get).toDirectory.consumeInvitation h usedBy with
  | none => return none
  | some (d, i) =>
    onDirectory fun _ => d
    return some i

/-- `insert_refresh_token`, for the configured time. -/
def insertRefreshToken (cfg : AuthSettings) (h : TokenHash) (u : UserId) : Stmt Unit :=
  tryDirectory fun d => orRaise (d.insertRefreshToken h u (d.clock + cfg.refreshTokenTtlS))

/-- `link_oidc_identity`: a new row, or a new address in the user's own. -/
def linkOidcIdentity (issuer sub : String) (u : UserId) (email : Option String) : Stmt Unit := do
  match (← get).identities.lookup (issuer, sub) with
  | none =>
    if ((← get).users.lookup u).isNone then throw .raised
    modify fun s => { s with identities := s.identities.insert (issuer, sub) ⟨u, email⟩ }
  | some i =>
    if i.userId ≠ u then throw .raised
    modify fun s => { s with
      identities := s.identities.insert (issuer, sub) ⟨u, email.orElse fun _ => i.emailAtLink⟩ }

/-- `_link_or_conflict` -/
def linkOrConflict (issuer sub : String) (u : UserId) (email : Option String) : Stmt Unit :=
  tryCatch (linkOidcIdentity issuer sub u email) fun _ => throw (.http 409)

/-! ### The transactions -/

variable (cfg : AuthSettings) (e : AuthEnv)

/-- The transaction of `refresh`. -/
def refresh (h : TokenHash) : Stmt Outcome := do
  match ← consumeRefreshToken h e.secret with
  | none =>
    appendAuditEvent { actorKind := "user", event := "auth.refresh_replayed" }
    throw (.http 401)
  | some u =>
    let r ← activeUser u (.http 401)
    insertRefreshToken cfg e.secret u
    appendAuditEvent { actorKind := "user", actorId := some u, event := "auth.refresh_succeeded" }
    return .session u r.level e.secret

/-- The transaction of `reset_password`. -/
def resetPassword (h : TokenHash) (newHash : String) : Stmt Outcome := do
  match ← consumePasswordResetToken h with
  | none =>
    appendAuditEvent { actorKind := "user", event := "auth.password_reset_token_invalid" }
    throw (.http 401)
  | some u =>
    let r ← activeUser u (.http 409)
    if r.authKind ≠ .password then throw (.http 409)
    onDirectory fun d => d.setUserPasswordHash u newHash
    let deleted := (((← get).refreshTokens.select fun _ t => decide (t.userId = u))).length
    onDirectory fun d => d.deleteUserRefreshTokens u
    insertRefreshToken cfg e.secret u
    appendAuditEvent {
      actorKind := "user"
      actorId := some u
      event := "auth.password_reset_token_consumed"
      targetKind := some "user"
      targetId := some u
      payload := [("refresh_tokens_revoked", toString deleted)] }
    return .session u r.level e.secret

/-- The transaction of `link_channel`, for this service principal. -/
def linkChannel (h : TokenHash) (service : UserId) (grantService : Bool) : Stmt Outcome := do
  match ← consumePasswordResetToken h with
  | none =>
    appendAuditEvent {
      actorKind := "user"
      actorId := some service
      event := "auth.password_reset_token_invalid"
      payload := [("purpose", "link_channel")] }
    throw (.http 401)
  | some u =>
    let r ← activeUser u (.http 409)
    let mut granted := false
    if grantService then
      if privileged r.level then
        if e.denialAuditAllowed then
          appendAuditEvent {
            actorKind := "user"
            actorId := some service
            event := "user.serviced_by_grant_denied"
            targetKind := some "user"
            targetId := some u
            payload := [("reason", "privileged_target"), ("purpose", "link_channel")] }
        throw (.http 403)
      granted := decide (service ∉ r.servicedBy)
      onDirectory fun d => d.appendToServicedBy u service
    appendAuditEvent {
      actorKind := "user"
      actorId := some service
      event := "auth.channel_linked"
      targetKind := some "user"
      targetId := some u
      payload := [("service_user_id", service), ("grant_requested", toString grantService),
        ("serviced_by_granted", toString granted)] }
    return .user u

/-- `_link_oidc_via_token` -/
def linkOidcViaToken (linkToken : TokenHash) (issuer : String) (claims : OidcClaims) :
    Stmt (UserId × UserRecord) := do
  match ← consumePasswordResetToken linkToken with
  | none => throw (.http 401)
  | some u =>
    let r ← activeUser u (.http 409)
    linkOrConflict issuer claims.sub u claims.email
    return (u, r)

/-- The transaction of `oidc_exchange` that is given a link token. -/
def oidcExchange (linkToken : TokenHash) (issuer : String) (claims : OidcClaims) :
    Stmt Outcome := do
  let (u, r) ← linkOidcViaToken linkToken issuer claims
  insertRefreshToken cfg e.secret u
  appendAuditEvent {
    actorKind := "user"
    actorId := some u
    event := "auth.oidc_login_succeeded"
    targetKind := some "user"
    targetId := some u
    payload := [("issuer", issuer), ("outcome", "linked_token")] }
  return .session u r.level e.secret

/-- How the audit log writes a status. -/
def statusText : Option AgentStatus → String
  | none => "null"
  | some .active => "active"
  | some .suspended => "suspended"
  | some .pending => "pending"
  | some .removed => "removed"

/-- The service principal of an agent that onboards, with a token. -/
def provisionServicePrincipal (a : AgentId) : Stmt (UserId × TokenHash) := do
  let u := serviceUserIdForAgent a
  let reused := ((← get).users.lookup u).isSome
  tryDirectory fun d => d.provisionServiceUser a
  insertRefreshToken cfg e.secret u
  appendAuditEvent {
    actorKind := "agent"
    actorId := some a
    event := "agent.service_principal_provisioned"
    targetKind := some "user"
    targetId := some u
    payload := [("reused", toString reused)] }
  return (u, e.secret)

/-- The transaction of `onboard`. -/
def onboard (a : AgentId) (invitation : TokenHash) : Stmt Outcome := do
  let existing := (← get).agents.lookup a
  if existing.any fun r => r.status = .removed then
    appendAuditEvent {
      actorKind := "agent"
      actorId := some a
      event := "agent.onboard_rejected"
      targetKind := some "agent"
      targetId := some a
      payload := [("reason", "evicted"), ("status", statusText (existing.map (·.status)))] }
    throw (.http 409)
  match ← consumeInvitation invitation a with
  | none =>
    appendAuditEvent {
      actorKind := "agent"
      actorId := some a
      event := "auth.invitation_rejected"
      payload := [("agent_id", a), ("existing_status", statusText (existing.map (·.status)))] }
    throw (.http 403)
  | some i =>
    tryDirectory fun d => d.registerAgent a
    appendAuditEvent {
      actorKind := "agent"
      actorId := some a
      event := "agent.onboarded"
      targetKind := some "agent"
      targetId := some a
      payload := [("invitation_level", ((← get).invitationLevels.lookup invitation).getD "null")] }
    if !i.provisionsServiceUser then return .onboarded a none
    let service ← provisionServicePrincipal cfg e a
    return .onboarded a (some service)

end Accounts

/-! ### Requests -/

/-- The requests that redeem a token; tokens and passwords come as their hashes. -/
inductive AuthRequest
  /-- `POST /refresh` -/
  | refresh (token : TokenHash)
  /-- `POST /reset-password` -/
  | resetPassword (token : TokenHash) (newHash : String)
  /-- `POST /link-channel`, by this service principal -/
  | linkChannel (token : TokenHash) (service : UserId) (grantService : Bool)
  /-- `POST /oidc/exchange` with a link token -/
  | oidcLink (token : TokenHash) (redirectUri : String)
  /-- `POST /onboard` -/
  | onboard (a : AgentId) (invitation : TokenHash)

namespace AuthRequest

open Accounts

variable (cfg : AuthSettings) (e : AuthEnv)

/-- What a request does before its transaction: the rate limit, the grammar of ids and the
OpenID provider. -/
def before : AuthRequest → Stmt Unit
  | refresh _ => if e.limited then throw (.http 429) else pure ()
  | resetPassword _ _ => do
    if e.limited then
      -- The event is written on a connection of its own, and may be lost.
      if !e.fault then
        Accounts.appendAuditEvent {
          actorKind := "user"
          event := "auth.password_reset_rate_limited"
          payload := [("ip", e.ip), ("retry_after_s", toString e.retryAfterS)] }
      throw (.http 429)
  | linkChannel _ _ _ => pure ()
  | oidcLink _ redirectUri => do
    if cfg.oidcIssuer.isNone then throw (.http 404)
    if redirectUri ∉ cfg.oidcAllowedRedirectUris then throw (.http 400)
    if e.limited then throw (.http 429)
    if e.oidcClaims.isNone then throw (.http 401)
  | onboard a _ => if Identity.isAgentId a then pure () else throw (.http 400)

/-- The body of its transaction. -/
def body : AuthRequest → Stmt Outcome
  | refresh h => Accounts.refresh cfg e h
  | resetPassword h newHash => Accounts.resetPassword cfg e h newHash
  | linkChannel h service grantService => Accounts.linkChannel e h service grantService
  | oidcLink h _ => Accounts.oidcExchange cfg e h (cfg.oidcIssuer.getD "")
      (e.oidcClaims.getD { sub := "" })
  | onboard a invitation => Accounts.onboard cfg e a invitation

/-- The whole request. -/
def handle (req : AuthRequest) : Stmt Outcome := do
  req.before cfg e
  transaction (req.body cfg e)

end AuthRequest

end Backplane
