import Backplane.Identity.Changes
import Backplane.Concur.Discipline
import Backplane.Concur.Trace

/-!
# The identity endpoints

The requests on users, agents and their credentials as programs over atomic actions.  A request reads
rows, decides, and commits; between a read and the commit others may move.  A request that raises at
a read is one that never moves again.

* `DirAct`, `DirAct.exec` : the atomic actions; the clock never runs backwards.
* `DirCall`, `DirCall.body` : the requests and their programs.
* `identity` : the machine, whose runs are the interleavings of any number of requests.
* `DirBoot` : what it starts with.
-/

namespace Backplane

open Concur Prog

/-- The atomic actions of the identity endpoints, by the type of their answer. -/
inductive DirAct : Type → Type 1
  /-- Does an exception or a cancellation strike here? -/
  | fault : DirAct Bool
  /-- `try_consume`: does the rate limiter deny? -/
  | limited : DirAct Bool
  | getUserById (u : UserId) : DirAct (Option UserRecord)
  | getUserByEmail (email : String) : DirAct (Option UserRecord)
  | getAgent (a : AgentId) : DirAct (Option AgentRecord)
  | getPendingRegistration (id : String) : DirAct (Option PendingRegistration)
  | getInvitation (h : TokenHash) : DirAct (Option Invitation)
  /-- `verify_agent_token`: signed here and not expired. -/
  | verifyAgentToken (t : AgentToken) : DirAct Bool
  | isJtiRevoked (jti : String) : DirAct Bool
  | revokeJti (jti : String) : DirAct Unit
  | issueAgentToken (a : AgentId) : DirAct AgentToken
  /-- `int(_now().timestamp())` -/
  | epoch : DirAct ℕ
  | commit (c : Change) : DirAct (Except RequestFailure Outcome)

section

variable (cfg : IdentitySettings)

/-- The tables after a transaction, which leaves them as they were if it fails. -/
def Directory.committed (e : DirEnv) (s : Directory) (c : Change) :
    Directory × Except RequestFailure Outcome :=
  if e.fault then (s, .error .raised)
  else match c.apply cfg e s with
    | .error err => (s, .error err)
    | .ok (s', out) => (s', .ok out)

/-- What an action does once the clock has been read. -/
def DirAct.perform {β : Type} (e : DirEnv) (s : Directory) : DirAct β → Directory × β
  | fault => (s, e.fault)
  | limited => (s, e.limited)
  | getUserById u => (s, s.users.lookup u)
  | getUserByEmail email => (s, s.getUserByEmail email)
  | getAgent a => (s, s.agents.lookup a)
  | getPendingRegistration id => (s, s.registrations.lookup id)
  | getInvitation h => (s, s.invitations.lookup h)
  | verifyAgentToken t => (s, decide (t ∈ s.signed) && decide (s.clock < t.expiresAt))
  | isJtiRevoked jti => (s, cfg.redis && decide (jti ∈ s.revokedJtis))
  | revokeJti jti => ({ s with revokedJtis := jti :: s.revokedJtis }, ())
  | issueAgentToken a =>
    let t := ⟨a, s.clock + cfg.agentTokenTtlS, e.secret⟩
    ({ s with signed := t :: s.signed }, t)
  | epoch => (s, s.clock)
  | commit c => s.committed cfg e c

/-- What an action does; the clock never runs backwards. -/
def DirAct.exec {β : Type} (a : DirAct β) (e : DirEnv) (s : Directory) : Option (Directory × β) :=
  if s.clock ≤ e.now then some (a.perform cfg e { s with clock := e.now }) else none

end

/-- A program of the identity endpoints. -/
abbrev DirProg := Prog DirAct

/-- What a request returns. -/
abbrev Reply := Except RequestFailure Outcome

/-- Why no credentials may be minted for somebody in this state. -/
def UserRecord.mintable (r : UserRecord) : Option ℕ :=
  if r.suspendedAt.isSome then some 409 else if r.deletedAt.isSome then some 410 else none

/-- Why a service principal may not mint credentials for a user. -/
def UserRecord.refuses (r : UserRecord) (service : UserId) : Option ℕ :=
  if privileged r.level then some 403 else if service ∉ r.servicedBy then some 403 else none

namespace Identity

/-! ### Users -/

/-- Look up those who shall service a new user; the first that may not, refuses. -/
def checkServicedBy : List UserId → DirProg (Option ℕ)
  | [] => pure none
  | v :: vs => do
    match ← perform (.getUserById v) with
    | none => pure (some 404)
    | some r => if r.level ≠ "service" then pure (some 400) else checkServicedBy vs

/-- `create_user`, once the address is free. -/
def createUserWith (req : CreateUserRequest) : DirProg Reply := do
  match ← checkServicedBy req.servicedBy with
  | some status => pure (.error (.http status))
  | none => perform (.commit (.createUser req))

/-- `create_user` -/
def createUser (req : CreateUserRequest) : DirProg Reply := do
  match ← perform (.getUserByEmail req.email) with
  | some _ => pure (.error (.http 409))
  | none =>
    match req.userId with
    | none => createUserWith req
    | some u =>
      match ← perform (.getUserById u) with
      | some _ => pure (.error (.http 409))
      | none => createUserWith req

/-- `update_user` -/
def patchUser (u : UserId) (level : Option String) (suspended : Option Bool) : DirProg Reply :=
  if level.isNone && suspended.isNone then do
    match ← perform (.getUserById u) with
    | none => pure (.error (.http 404))
    | some _ => pure (.ok .done)
  else perform (.commit (.updateUser u level suspended))

/-- Mint, unless too often. -/
def mintUnlimited (c : Change) : DirProg Reply := do
  if ← perform .limited then pure (.error (.http 429)) else perform (.commit c)

/-- `service_mint_refresh_token`, by a service principal. -/
def serviceMintRefreshToken (service target : UserId) : DirProg Reply := do
  match ← perform (.getUserById target) with
  | none => pure (.error (.http 404))
  | some r =>
    match r.mintable.or (r.refuses service) with
    | some status => pure (.error (.http status))
    | none => mintUnlimited (.mintRefreshToken service target)

/-- `mint_password_reset_token`, by somebody with a session of this level. -/
def mintPasswordResetToken (minter : UserId) (level : String) (target : UserId) : DirProg Reply := do
  match ← perform (.getUserById target) with
  | none => pure (.error (.http 404))
  | some r =>
    let refusal :=
      if level = "admin" then none else if level = "service" then r.refuses minter else some 403
    match r.mintable.or refusal with
    | some status => pure (.error (.http status))
    | none => mintUnlimited (.mintResetToken minter level target)

/-- `mint_link_token` -/
def mintLinkToken (u : UserId) : DirProg Reply := mintUnlimited (.mintLinkToken u)

/-- `grant_serviced_by` -/
def grantServicedBy (target service : UserId) : DirProg Reply := do
  match ← perform (.getUserById service) with
  | none => pure (.error (.http 404))
  | some r =>
    if r.level ≠ "service" then pure (.error (.http 400))
    else
      match ← perform (.getUserById target) with
      | none => pure (.error (.http 404))
      | some r =>
        if privileged r.level then pure (.error (.http 400))
        else perform (.commit (.grantServicedBy target service))

/-- `delete_user` -/
def removeUser (admin u : UserId) (purge : Bool) : DirProg Reply :=
  if u = admin then pure (.error (.http 400)) else perform (.commit (.deleteUser u purge))

/-- `submit_registration`, by somebody with a session of this level; anybody may submit for the
web channel. -/
def submitRegistration (submitter : Option (UserId × String)) (p : PendingRegistration) :
    DirProg Reply := do
  if ← perform .limited then pure (.error (.http 429))
  else
    let submittedBy := submitter.bind fun (u, level) => if level = "service" then some u else none
    perform (.commit (.submitRegistration { p with submittedBy }))

/-- `reject_registration`; the row it reads is not locked. -/
def rejectRegistration (id : String) : DirProg Reply := do
  match ← perform (.getPendingRegistration id) with
  | none => pure (.error (.http 404))
  | some p => perform (.commit (.rejectRegistration id p))

/-- A request that redeems a token, unless too often. -/
def redeem (c : Change) : DirProg Reply := do
  if ← perform .limited then pure (.error (.http 429)) else perform (.commit c)

/-! ### Agents -/

/-- `AGENT_ID_PATTERN` -/
def isAgentId (a : AgentId) : Bool :=
  match a.toList with
  | [] => false
  | c :: cs => (c.isAlpha || c = '_') && decide (cs.length ≤ 63) &&
      cs.all fun d => d.isAlphanum || d = '_' || d = '-'

/-- `revoke_invitation` -/
def revokeInvitation (h : TokenHash) : DirProg Reply := do
  match ← perform (.getInvitation h) with
  | none => pure (.error (.http 404))
  | some i =>
    if i.usedAt.isSome then pure (.error (.http 409)) else perform (.commit (.revokeInvitation h))

/-- What follows the transaction of `onboard`: signing the token, reading the agents for the catalog
and pushing it to the peers may raise. -/
def welcome (a : AgentId) : DirProg Reply := do
  if ← perform .fault then pure (.error .raised)
  else
    let t ← perform (.issueAgentToken a)
    if ← perform .fault then pure (.error .raised) else pure (.ok (.agentToken t))

/-- `onboard` -/
def onboard (a : AgentId) (invitation : TokenHash) : DirProg Reply :=
  if !isAgentId a then pure (.error (.http 400))
  else do
    match ← perform (.commit (.onboard a invitation)) with
    | .error err => pure (.error err)
    | .ok _ => welcome a

/-- Verify a token, and that it is not revoked and names this agent; `mismatch` if it names another
one. -/
def authenticate (t : AgentToken) (a : AgentId) (invalid mismatch : RequestFailure) :
    DirProg (Option RequestFailure) := do
  if !(← perform (.verifyAgentToken t)) then pure (some invalid)
  else if ← perform (.isJtiRevoked t.jti) then pure (some invalid)
  else if t.agentId ≠ a then pure (some mismatch)
  else pure none

/-- Only an active agent is let in. -/
def letIn (t : AgentToken) : Option AgentRecord → Reply
  | none => .error (.handshake "auth_failed")
  | some r =>
    if r.status = .active then .ok (.accepted t.agentId)
    else if r.status = .removed then .error (.handshake "agent_removed")
    else .error (.handshake "agent_suspended")

/-- `_handshake` up to where the agent is let in.  An agent whose Hello changes what it publishes is
looked up again. -/
def handshake (t : AgentToken) (a : AgentId) (changed : Bool) : DirProg Reply := do
  match ← authenticate t a (.handshake "auth_failed") (.handshake "auth_failed") with
  | some err => pure (.error err)
  | none =>
    let r ← perform (.getAgent t.agentId)
    if changed && (r.any fun r => r.status = .active) then do
      let r ← perform (.getAgent t.agentId)
      pure (letIn t r)
    else pure (letIn t r)

/-- `refresh_agent_token` -/
def refreshAgentToken (t : AgentToken) (a : AgentId) : DirProg Reply := do
  match ← authenticate t a (.http 401) (.http 403) with
  | some err => pure (.error err)
  | none =>
    let r ← perform (.getAgent t.agentId)
    if r.any fun r => r.status = .active then do
      let t' ← perform (.issueAgentToken t.agentId)
      perform (.revokeJti t.jti)
      pure (.ok (.agentToken t'))
    else pure (.error (.http 403))

/-- `suspend_agent` -/
def suspendAgent (a : AgentId) : DirProg Reply := do
  match ← perform (.getAgent a) with
  | none => pure (.error (.http 404))
  | some _ => perform (.commit (.suspend a))

/-- `unsuspend_agent` -/
def unsuspendAgent (a : AgentId) : DirProg Reply := do
  match ← perform (.getAgent a) with
  | none => pure (.error (.http 404))
  | some r =>
    if r.status = .active then pure (.ok .done)
    else if r.status ≠ .suspended then pure (.error (.http 409))
    else perform (.commit (.unsuspend a))

/-- `reset_agent` -/
def resetAgent (a : AgentId) : DirProg Reply := do
  match ← perform (.getAgent a) with
  | none => pure (.error (.http 404))
  | some r =>
    if r.status = .pending then pure (.ok .done)
    else if r.status = .removed then pure (.error (.http 409))
    else perform (.commit (.reset a))

/-- `reprovision_agent` -/
def reprovisionAgent (a : AgentId) : DirProg Reply := do
  match ← perform (.getAgent a) with
  | none => pure (.error (.http 404))
  | some r =>
    if r.status = .removed then pure (.error (.http 409))
    else
      let svc ← perform (.getUserById (serviceUserIdForAgent a))
      perform (.commit (.reprovision a (r.status = .pending) svc.isSome))

/-- What follows the first transaction of `evict_agent`: closing the socket and failing the tasks in
flight may raise, and then the id is not released. -/
def releaseEvicted (a : AgentId) : DirProg Reply := do
  if ← perform .fault then pure (.error .raised)
  else
    let epoch ← perform .epoch
    perform (.commit (.release a epoch))

/-- `evict_agent` -/
def evictAgent (a : AgentId) : DirProg Reply := do
  match ← perform (.getAgent a) with
  | none => pure (.error (.http 404))
  | some r =>
    if r.status = .removed then pure (.ok .alreadyRemoved)
    else
      match ← perform (.commit (.evict a)) with
      | .error err => pure (.error err)
      | .ok _ => releaseEvicted a

end Identity

/-! ### The machine -/

/-- A request. -/
inductive DirCall
  | createUser (req : CreateUserRequest)
  | updateUser (u : UserId) (level : Option String) (suspended : Option Bool)
  | mintRefreshToken (service target : UserId)
  /-- `mint_password_reset_token` -/
  | mintResetToken (minter : UserId) (level : String) (target : UserId)
  | mintLinkToken (u : UserId)
  | grantServicedBy (target service : UserId)
  | revokeServicedBy (target service : UserId)
  | revokeUserRefreshTokens (u : UserId)
  | deleteUser (admin u : UserId) (purge : Bool)
  /-- `submit_registration`, `submit_web_registration` -/
  | submitRegistration (submitter : Option (UserId × String)) (p : PendingRegistration)
  | rejectRegistration (id : String)
  | approveRegistration (id : String) (req : ApproveRegistrationRequest)
  | refresh (h : TokenHash)
  | resetPassword (h : TokenHash) (hash : String)
  | linkChannel (h : TokenHash) (service : UserId) (grant : Bool)
  | createInvitation (h : TokenHash) (ttl : ℕ) (provisionsServiceUser : Bool)
  | revokeInvitation (h : TokenHash)
  | onboard (a : AgentId) (invitation : TokenHash)
  | handshake (t : AgentToken) (a : AgentId) (changed : Bool)
  | refreshAgentToken (t : AgentToken) (a : AgentId)
  | suspend (a : AgentId)
  | unsuspend (a : AgentId)
  | reset (a : AgentId)
  | reprovision (a : AgentId)
  | evict (a : AgentId)

/-- The program of a request. -/
def DirCall.body : DirCall → DirProg Reply
  | createUser req => Identity.createUser req
  | updateUser u level suspended => Identity.patchUser u level suspended
  | mintRefreshToken service target => Identity.serviceMintRefreshToken service target
  | mintResetToken minter level target => Identity.mintPasswordResetToken minter level target
  | mintLinkToken u => Identity.mintLinkToken u
  | grantServicedBy target service => Identity.grantServicedBy target service
  | revokeServicedBy target service => perform (.commit (.revokeServicedBy target service))
  | revokeUserRefreshTokens u => perform (.commit (.revokeUserRefreshTokens u))
  | deleteUser admin u purge => Identity.removeUser admin u purge
  | submitRegistration submitter p => Identity.submitRegistration submitter p
  | rejectRegistration id => Identity.rejectRegistration id
  | approveRegistration id req => perform (.commit (.approveRegistration id req))
  | refresh h => Identity.redeem (.refresh h)
  | resetPassword h hash => Identity.redeem (.resetPassword h hash)
  | linkChannel h service grant => perform (.commit (.linkChannel h service grant))
  | createInvitation h ttl p => perform (.commit (.createInvitation h ttl p))
  | revokeInvitation h => Identity.revokeInvitation h
  | onboard a invitation => Identity.onboard a invitation
  | handshake t a changed => Identity.handshake t a changed
  | refreshAgentToken t a => Identity.refreshAgentToken t a
  | suspend a => Identity.suspendAgent a
  | unsuspend a => Identity.unsuspendAgent a
  | reset a => Identity.resetAgent a
  | reprovision a => Identity.reprovisionAgent a
  | evict a => Identity.evictAgent a

/-- The identity endpoints. -/
def identity (cfg : IdentitySettings) : Machine DirAct DirEnv Directory DirCall Reply where
  exec := DirAct.exec cfg
  body := DirCall.body

/-- What a router starts with: nobody is serviced, no two agents have the same number, and no
registration was resolved. -/
structure DirBoot where
  directory : Directory
  /-- Nobody is serviced. -/
  unserviced : ∀ u r, directory.users.lookup u = some r → r.servicedBy = []
  /-- The agents have been numbered. -/
  numbered : ∀ a r, directory.agents.lookup a = some r → r.born < directory.registered
  /-- Each has a number of its own. -/
  distinct : ∀ a a' r r', directory.agents.lookup a = some r → directory.agents.lookup a' = some r' →
    r.born = r'.born → a = a'
  /-- No registration was resolved. -/
  unresolved : directory.registrationAudit = [] := by rfl

/-! ### Directories to run -/

namespace Sample

/-- The service principal of a channel. -/
def serviceUser : UserRecord := { userId := "usr_service_bot", level := "service" }

def dirBoot : DirBoot where
  directory := { users := AList.insert "usr_service_bot" serviceUser ∅ }
  unserviced u r hr := by
    rw [Table.lookup_insert] at hr
    split_ifs at hr
    · obtain rfl := Option.some.inj hr
      rfl
    · exact absurd hr (by simp)
  numbered _ _ hr := absurd hr (by simp)
  distinct _ _ _ _ hr := absurd hr (by simp)

/-- A new user of this level, serviced by the channel's principal. -/
def newUser (level : String) : CreateUserRequest where
  email := "ada@example.org"
  level := level
  servicedBy := ["usr_service_bot"]
  reserved _ h := absurd h (by simp)

/-- A directory with two invitations, which provision service principals. -/
def inviteBoot : DirBoot where
  directory := {
    invitations :=
      AList.insert "i1" ⟨100, none, none, true⟩ (AList.insert "i2" ⟨100, none, none, true⟩ ∅) }
  unserviced _ _ hr := absurd hr (by simp)
  numbered _ _ hr := absurd hr (by simp)
  distinct _ _ _ _ hr := absurd hr (by simp)

def onboarded : List (Move DirEnv DirCall) :=
  .start (.onboard "bot" "i1") :: List.replicate 4 (.step 0 {})

end Sample

end Backplane
