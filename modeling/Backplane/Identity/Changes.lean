import Backplane.Identity.Directory

/-!
# What the identity endpoints commit

One definition for each transaction of the admin API, the token endpoints, the registrations and
onboarding.  A transaction is one step; one that raises leaves everything as it was.

* `IdentitySettings`, `DirEnv` : the configured lifetimes, and what a step learns from outside.
* `Change`, `Change.apply` : the transactions.
-/

namespace Backplane

/-- The lifetimes of tokens, and whether revocations are kept. -/
structure IdentitySettings where
  agentTokenTtlS : ℕ := 86400
  refreshTokenTtlS : ℕ := 2592000
  passwordResetTokenTtlS : ℕ := 600
  linkTokenTtlS : ℕ := 600
  /-- Valkey was reachable at boot. -/
  redis : Bool := true

/-- What a step learns from outside. -/
structure DirEnv where
  now : ℕ := 0
  /-- The await raises or is cancelled, or the transaction fails. -/
  fault : Bool := false
  limited : Bool := false
  /-- What the generator of ids and tokens yields. -/
  secret : String := ""

/-- How a request fails. -/
inductive RequestFailure
  | raised
  | http (status : ℕ)
  | handshake (code : String)
  deriving DecidableEq, Repr

/-- What a transaction or a request yields. -/
inductive Outcome
  | done
  | user (u : UserId)
  | token (h : TokenHash)
  | registered (id : String)
  /-- A token was redeemed: the session of this user with this level, and a new refresh token. -/
  | session (u : UserId) (level : String) (refreshToken : TokenHash)
  /-- An agent was onboarded, with a service principal and its refresh token. -/
  | onboarded (a : AgentId) (service : Option (UserId × TokenHash))
  /-- The id of an evicted agent now, and of its service principal where it was renamed. -/
  | released (a : AgentId) (service : Option UserId)
  /-- The agent had been evicted before. -/
  | alreadyRemoved
  | agentToken (t : AgentToken)
  | accepted (a : AgentId)
  deriving DecidableEq, Repr

/-- A transaction: the new tables, or why it was rolled back. -/
abbrev Tx := Except RequestFailure (Directory × Outcome)

/-- A statement that violates a constraint raises. -/
def orRaise {α : Type} : Option α → Except RequestFailure α
  | some a => .ok a
  | none => .error .raised

/-- `CreateUserRequest`; a password comes as its hash. -/
structure CreateUserRequest where
  userId : Option UserId := none
  email : String
  level : String
  password : Option String := none
  refreshToken : Option TokenHash := none
  /-- Who may service the user. -/
  servicedBy : List UserId := []
  /-- Ids of co-located service principals are reserved. -/
  reserved : ∀ u, userId = some u → "usr_service_".toList.isPrefixOf u.toList = false

/-- `ApproveRegistrationRequest`; a password comes as its hash. -/
structure ApproveRegistrationRequest where
  /-- The address, instead of the one asked for. -/
  email : Option String := none
  /-- The password, instead of the one asked for. -/
  password : Option String := none
  level : String := "tier0"
  deriving DecidableEq

namespace Directory

variable (cfg : IdentitySettings) (e : DirEnv) (s : Directory)

/-! ### Users -/

/-- The transaction of `create_user`. -/
def createUser (req : CreateUserRequest) : Tx := do
  let u := req.userId.getD ("usr_" ++ e.secret)
  let s ← orRaise (s.insertUser {
    userId := u
    level := req.level
    email := some req.email
    authKind := if req.password.isSome then .password else .apiKey
    authSecretHash := req.password
    servicedBy := req.servicedBy })
  match req.refreshToken with
  | none => .ok (s, .user u)
  | some h => do
    let s ← orRaise (s.insertRefreshToken h u (s.clock + cfg.refreshTokenTtlS))
    .ok (s, .user u)

/-- The transaction of `update_user`. -/
def updateUser (u : UserId) (level : Option String) (suspended : Option Bool) : Tx :=
  if (s.users.lookup u).isNone then .error (.http 404)
  else if level.any fun l => !levelCheck l then .error .raised
  else .ok (s.updateUserRow u fun r =>
    { r with
      level := level.getD r.level
      suspendedAt := match suspended with
        | some true => some s.clock
        | some false => none
        | none => r.suspendedAt }, .done)

/-- The transaction of `service_mint_refresh_token`. -/
def mintRefreshToken (target : UserId) : Tx := do
  let s ← orRaise (s.insertRefreshToken e.secret target (s.clock + cfg.refreshTokenTtlS))
  .ok (s, .token e.secret)

/-- The transaction of `mint_password_reset_token` and, with another lifetime, of
`mint_link_token`. -/
def mintResetToken (minter target : UserId) (ttl : ℕ) : Tx := do
  let s ← orRaise (s.insertPasswordResetToken e.secret target (s.clock + ttl) minter)
  .ok (s, .token e.secret)

/-- The transaction of `revoke_user_refresh_tokens`. -/
def revokeUserRefreshTokens (u : UserId) : Tx :=
  if (s.users.lookup u).isNone then .error (.http 404) else .ok (s.deleteUserRefreshTokens u, .done)

/-- The transaction of `delete_user`. -/
def deleteUser (u : UserId) (purge : Bool) : Tx :=
  match s.users.lookup u, s.softDeleteUser u with
  | some r, some s' =>
    if !purge then .ok (s', .done)
    else if r.purgedAt.isSome then .ok (s, .done)
    else .ok (s'.scrubUser u, .done)
  | _, _ => .error (.http 404)

/-! ### Registrations -/

/-- The pending registration of somebody, with its id. -/
def findRegistration (channel externalId : String) : Option (String × PendingRegistration) :=
  (s.registrations.select fun _ p =>
    decide (p.channel = channel) && decide (p.externalId = externalId)).head?

/-- `upsert_pending_registration` in a transaction of its own. -/
def submitRegistration (p : PendingRegistration) : Tx :=
  if p.submittedBy.any fun u => (s.users.lookup u).isNone then .error .raised
  else match s.findRegistration p.channel p.externalId with
    | none =>
      if (s.registrations.lookup e.secret).isSome then .error .raised
      else .ok ({ s with registrations := s.registrations.insert e.secret p }, .registered e.secret)
    | some (id, p') =>
      let p'' := { p' with
        requestedEmail := p.requestedEmail.or p'.requestedEmail
        requestedPasswordHash := p.requestedPasswordHash.or p'.requestedPasswordHash
        submittedBy := p.submittedBy.or p'.submittedBy }
      .ok ({ s with registrations := s.registrations.insert id p'' }, .registered id)

/-- The statements of `reject_registration` after it has read the row; the delete may find none. -/
def rejectRegistration (id : String) (p : PendingRegistration) : Tx :=
  .ok ({ s with
    registrations := s.registrations.erase id
    registrationAudit := s.registrationAudit ++ [.rejected id p.channel p.externalId] }, .done)

/-- The transaction of `approve_registration`. -/
def approveRegistration (id : String) (req : ApproveRegistrationRequest) : Tx := do
  match s.registrations.lookup id with
  | none => .error (.http 404)
  | some p =>
    match req.email.or p.requestedEmail with
    | none => .error (.http 422)
    | some email =>
      if (s.getUserByEmail email).isSome then .error (.http 409)
      else
        let u := "usr_" ++ e.secret
        let s ← orRaise (s.insertUser {
          userId := u
          level := req.level
          email := some email
          authKind := .password
          authSecretHash := (req.password.or p.requestedPasswordHash).or (some e.secret)
          servicedBy := p.submittedBy.toList })
        .ok ({ s with
          registrations := s.registrations.erase id
          registrationAudit := s.registrationAudit ++
            [.approved id u p.channel p.externalId email req.level p.submittedBy] }, .user u)

/-! ### Redeeming tokens -/

/-- The transaction of `refresh`; its 401 undoes what using a token twice has deleted. -/
def refresh (h : TokenHash) : Tx :=
  match s.consumeRefreshToken h e.secret with
  | (_, none) => .error (.http 401)
  | (s, some u) =>
    match (s.users.lookup u).filter UserRecord.isActive with
    | none => .error (.http 401)
    | some r => do
      let s ← orRaise (s.insertRefreshToken e.secret u (s.clock + cfg.refreshTokenTtlS))
      .ok (s, .session u r.level e.secret)

/-- The transaction of `reset_password`. -/
def resetPassword (h : TokenHash) (hash : String) : Tx :=
  match s.consumePasswordResetToken h with
  | none => .error (.http 401)
  | some (s, u) =>
    match (s.users.lookup u).filter UserRecord.isActive with
    | none => .error (.http 409)
    | some r =>
      if r.authKind ≠ .password then .error (.http 409)
      else do
        let s := (s.setUserPasswordHash u hash).deleteUserRefreshTokens u
        let s ← orRaise (s.insertRefreshToken e.secret u (s.clock + cfg.refreshTokenTtlS))
        .ok (s, .session u r.level e.secret)

/-- The transaction of `link_channel`. -/
def linkChannel (h : TokenHash) (service : UserId) (grant : Bool) : Tx :=
  match s.consumePasswordResetToken h with
  | none => .error (.http 401)
  | some (s, u) =>
    match (s.users.lookup u).filter UserRecord.isActive with
    | none => .error (.http 409)
    | some r =>
      if !grant then .ok (s, .user u)
      else if privileged r.level then .error (.http 403)
      else .ok (s.appendToServicedBy u service, .user u)

/-! ### Agents -/

/-- Lifetime of the invitation that comes with a reprovisioning. -/
def reprovisionInvitationTtlS : ℕ := 7 * 86400

/-- The service principal of an agent that onboards: made, or found in good order. -/
def provisionServiceUser (a : AgentId) : Except RequestFailure Directory :=
  match s.users.lookup (serviceUserIdForAgent a) with
  | none => orRaise (s.insertUser { userId := serviceUserIdForAgent a, level := "service" })
  | some r => if r.level ≠ "service" ∨ r.deletedAt.isSome then .error (.http 409) else .ok s

/-- The row of an agent that onboards: new, or active again. -/
def registerAgent (a : AgentId) : Except RequestFailure Directory :=
  if (s.agents.lookup a).isNone then orRaise (s.insertAgent a)
  else .ok (s.reactivateAgentOnOnboard a)

/-- The transaction of `onboard`. -/
def onboard (a : AgentId) (invitation : TokenHash) : Tx :=
  if (s.agents.lookup a).any fun r => r.status = .removed then .error (.http 409)
  else match s.consumeInvitation invitation a with
    | none => .error (.http 403)
    | some (s, i) => do
      let s ← s.registerAgent a
      if !i.provisionsServiceUser then .ok (s, .onboarded a none)
      else
        let u := serviceUserIdForAgent a
        let s ← s.provisionServiceUser a
        let s ← orRaise (s.insertRefreshToken e.secret u (s.clock + cfg.refreshTokenTtlS))
        .ok (s, .onboarded a (some (u, e.secret)))

/-- The transaction of `revoke_invitation`. -/
def revokeInvitation (h : TokenHash) : Tx :=
  match s.deleteInvitation h with
  | (s, true) => .ok (s, .done)
  | (s, false) => if (s.invitations.lookup h).isNone then .error (.http 404) else .error (.http 409)

/-- The transaction of `reprovision_agent`, which found the agent pending or not. -/
def reprovision (a : AgentId) (pending provisionsServiceUser : Bool) : Tx := do
  let s' := if pending then s else s.resetAgentToPending a
  let s' ← orRaise
    (s'.insertInvitation e.secret (s.clock + reprovisionInvitationTtlS) provisionsServiceUser)
  .ok (s', .token e.secret)

/-- The second transaction of `evict_agent`. -/
def releaseId (a : AgentId) (epoch : ℕ) : Tx := do
  let u := serviceUserIdForAgent a
  let (s, a', u') ← orRaise
    (s.renameEvictedAgent a epoch (if (s.users.lookup u).isSome then some u else none))
  .ok (s, .released a' u')

end Directory

/-- A transaction. -/
inductive Change
  | createUser (req : CreateUserRequest)
  | updateUser (u : UserId) (level : Option String) (suspended : Option Bool)
  /-- `service_mint_refresh_token`, by this service principal. -/
  | mintRefreshToken (service target : UserId)
  /-- `mint_password_reset_token`, by somebody of this level. -/
  | mintResetToken (minter : UserId) (level : String) (target : UserId)
  | mintLinkToken (u : UserId)
  | grantServicedBy (target service : UserId)
  | revokeServicedBy (target service : UserId)
  | revokeUserRefreshTokens (u : UserId)
  | deleteUser (u : UserId) (purge : Bool)
  | submitRegistration (p : PendingRegistration)
  /-- `reject_registration`, which has read this row. -/
  | rejectRegistration (id : String) (p : PendingRegistration)
  | approveRegistration (id : String) (req : ApproveRegistrationRequest)
  | refresh (h : TokenHash)
  | resetPassword (h : TokenHash) (hash : String)
  | linkChannel (h : TokenHash) (service : UserId) (grant : Bool)
  | createInvitation (h : TokenHash) (ttl : ℕ) (provisionsServiceUser : Bool)
  | revokeInvitation (h : TokenHash)
  | onboard (a : AgentId) (invitation : TokenHash)
  | suspend (a : AgentId)
  | unsuspend (a : AgentId)
  | reset (a : AgentId)
  | reprovision (a : AgentId) (pending provisionsServiceUser : Bool)
  /-- `evict_agent`, the first transaction. -/
  | evict (a : AgentId)
  /-- `evict_agent`, the second transaction. -/
  | release (a : AgentId) (epoch : ℕ)

/-- What a transaction does. -/
def Change.apply (cfg : IdentitySettings) (e : DirEnv) (s : Directory) : Change → Tx
  | createUser req => s.createUser cfg e req
  | updateUser u level suspended => s.updateUser u level suspended
  | mintRefreshToken _ target => s.mintRefreshToken cfg e target
  | mintResetToken minter _ target => s.mintResetToken e minter target cfg.passwordResetTokenTtlS
  | mintLinkToken u => s.mintResetToken e u u cfg.linkTokenTtlS
  | grantServicedBy target service => .ok (s.appendToServicedBy target service, .done)
  | revokeServicedBy target service => .ok (s.removeFromServicedBy target service, .done)
  | revokeUserRefreshTokens u => s.revokeUserRefreshTokens u
  | deleteUser u purge => s.deleteUser u purge
  | submitRegistration p => s.submitRegistration e p
  | rejectRegistration id p => s.rejectRegistration id p
  | approveRegistration id req => s.approveRegistration e id req
  | refresh h => s.refresh cfg e h
  | resetPassword h hash => s.resetPassword cfg e h hash
  | linkChannel h service grant => s.linkChannel h service grant
  | createInvitation h ttl p => do
    let s' ← orRaise (s.insertInvitation h (s.clock + ttl) p)
    .ok (s', .token h)
  | revokeInvitation h => s.revokeInvitation h
  | onboard a invitation => s.onboard cfg e a invitation
  | suspend a => .ok (s.suspendAgent a, .done)
  | unsuspend a => .ok (s.unsuspendAgent a, .done)
  | reset a => .ok (s.resetAgentToPending a, .done)
  | reprovision a pending p => s.reprovision e a pending p
  | evict a => .ok (s.evictAgent a, .done)
  | release a epoch => s.releaseId a epoch

end Backplane
