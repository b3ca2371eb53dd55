import Backplane.Data.EventSystem
import Backplane.Data.Table
import Backplane.Protocol.Types

/-!
# The credentials of a channel

A channel has a refresh token of its own, from its onboarding, and has one minted for each user it
services.  A refresh token is good once: the router answers with an access token and the next
refresh token.  Calls that find no good access token refresh under a lock.

* `TokenRouter` : what the router holds, and what it answers.
* `ChannelClient` : what the channel holds.
* `Call` : a call for a token, with the request that it waits for.
* `channelSystem` : the calls, the router and all that may go wrong, step by step.
-/

namespace Backplane.Chatbot

/-- A refresh token: how many the router had issued before it. -/
abbrev Secret := ℕ

/-- A call. -/
abbrev CallId := ℕ

/-- An access token. -/
structure Access where
  /-- `sub` -/
  userId : UserId
  /-- `exp` -/
  expiresAt : ℕ
  deriving DecidableEq

/-! ### The router -/

/-- A row of `auth_refresh_tokens` that has not expired. -/
structure TokenRow where
  userId : UserId
  used : Bool := false
  deriving DecidableEq

/-- What the router holds about tokens. -/
structure TokenRouter where
  rows : Table Secret TokenRow := ∅
  /-- How many refresh tokens have been issued. -/
  issued : ℕ := 0
  suspended : List UserId := []
  deleted : List UserId := []
  /-- The users that the channel may mint tokens for. -/
  serviced : List UserId := []

/-- What the router answers. -/
inductive Answer
  | pair (refresh : Secret) (access : Access)
  | minted (refresh : Secret)
  | refused
  deriving DecidableEq

namespace TokenRouter

variable (r : TokenRouter) (service : UserId) (ttl now : ℕ)

/-- `user_is_active` -/
def isActive (u : UserId) : Bool := u ∉ r.suspended && u ∉ r.deleted

/-- The channel services the user. -/
def services (u : UserId) : Bool := u ∈ r.serviced && r.isActive u

/-- The router lets the channel in with this access token. -/
def admits (access : Access) : Bool :=
  now < access.expiresAt && access.userId = service && service ∉ r.deleted

/-- Whom the router accepts the refresh token for. -/
def accepts (t : Secret) : Option UserId :=
  ((r.rows.lookup t).filter fun row => !row.used && r.isActive row.userId).map TokenRow.userId

/-- `insert_refresh_token`, of a token that has not been issued before. -/
def issue (u : UserId) : TokenRouter :=
  { r with rows := r.rows.insert r.issued ⟨u, false⟩, issued := r.issued + 1 }

/-- The token is used. -/
def use (t : Secret) : TokenRouter :=
  { r with rows := r.rows.update t fun row => { row with used := true } }

/-- `POST /v1/auth/refresh`; a 401 undoes its transaction, also what using a token twice deletes. -/
def refresh (t : Secret) : Answer × TokenRouter :=
  match r.accepts t with
  | none => (.refused, r)
  | some u => (.pair r.issued ⟨u, now + ttl⟩, (r.use t).issue u)

/-- `POST /v1/admin/users/{user_id}/refresh-tokens` -/
def mint (access : Access) (u : UserId) : Answer × TokenRouter :=
  if r.admits service now access && r.services u then (.minted r.issued, r.issue u)
  else (.refused, r)

end TokenRouter

/-! ### The channel -/

/-- `HttpChannelCredentials`, its configuration and its file. -/
structure ChannelClient where
  /-- `config.service_refresh_token` -/
  configToken : Option Secret := none
  /-- `service_refresh_token` in `credentials.json` -/
  fileToken : Option Secret := none
  serviceAccess : Option Access := none
  userTokens : Table UserId (Secret × Access) := ∅
  /-- The call that holds `_service_lock`. -/
  serviceLock : Option CallId := none
  userLocks : Table UserId CallId := ∅

/-- A minute of the access token is left. -/
def isFresh (now : ℕ) (a : Access) : Bool := now + 60 < a.expiresAt

namespace ChannelClient

variable (k : ChannelClient) (now : ℕ)

/-- `_service_cached` -/
def serviceCached : Option Access := k.serviceAccess.filter (isFresh now)

/-- `_user_cached` -/
def userCached (u : UserId) : Option Access :=
  ((k.userTokens.lookup u).map Prod.snd).filter (isFresh now)

/-- `persist_service_token`: the configuration, and the file unless writing it fails. -/
def persistServiceToken (t : Secret) (written : Bool) : ChannelClient :=
  { k with configToken := some t, fileToken := if written then some t else k.fileToken }

/-- Locks that the call holds are free. -/
def release (c : CallId) (user : Option UserId) : ChannelClient :=
  { k with
    serviceLock := k.serviceLock.filter (· ≠ c)
    userLocks := match user with
      | some u => if k.userLocks.lookup u = some c then k.userLocks.erase u else k.userLocks
      | none => k.userLocks }

end ChannelClient

/-- Where a call is; a request that it waits for has been answered or not. -/
inductive Stage
  | waitUser
  | waitService
  /-- `_refresh`, with the user's stored token. -/
  | refreshing (t : Secret) (answer : Option Answer)
  /-- `_refresh`, with the token of the channel. -/
  | renewing (t : Secret) (answer : Option Answer)
  /-- `_mint_user_refresh` -/
  | minting (access : Access) (answer : Option Answer)
  /-- `_refresh`, with a token that was minted. -/
  | redeeming (t : Secret) (answer : Option Answer)
  | done (access : Option Access)

/-- A call of `_user_token`, or one of `_service_token` by another operation. -/
structure Call where
  user : Option UserId
  stage : Stage
  /-- The router has answered each request of the call, and serviced it. -/
  served : Bool := true

/-- The call is over. -/
def Stage.isDone : Stage → Bool
  | done _ => true
  | _ => false

/-- The channel and the router. -/
structure ChannelState where
  now : ℕ := 0
  router : TokenRouter
  client : ChannelClient
  calls : Table CallId Call := ∅
  presented : List Secret := []

/-- What happens. -/
inductive ChannelEvent
  /-- `_user_token` is called, or `_service_token`. -/
  | call (c : CallId) (user : Option UserId)
  /-- A call takes the lock that it waits for. -/
  | enter (c : CallId)
  | handle (c : CallId)
  /-- The answer arrives; the file can be written or not. -/
  | receive (c : CallId) (written : Bool)
  /-- A request fails, whether the router has answered or not; or the call is cancelled. -/
  | fail (c : CallId)
  /-- The channel starts again, with the token in the file. -/
  | restart
  | tick (s : ℕ)
  /-- A token expires, is revoked, or is used by somebody else. -/
  | drop (t : Secret)
  | issue (u : UserId)
  | users (suspended deleted serviced : List UserId)

namespace ChannelState

variable (service : UserId) (ttl : ℕ) (s : ChannelState)

/-- The call is there. -/
def put (c : CallId) (call : Call) : ChannelState := { s with calls := s.calls.insert c call }

/-- The refresh token is sent. -/
def present (t : Secret) : ChannelState := { s with presented := t :: s.presented }

/-- The call is over. -/
def finish (c : CallId) (call : Call) (o : Option Access) : ChannelState :=
  { s with client := s.client.release c call.user }.put c { call with stage := .done o }

/-- What follows when there is an access token of the channel. -/
def withService (c : CallId) (call : Call) (a : Access) : ChannelState :=
  match call.user with
  | none => s.finish c call (some a)
  | some _ => s.put c { call with stage := .minting a none }

/-- `_service_token`, up to its lock. -/
def askService (c : CallId) (call : Call) : ChannelState :=
  match s.client.serviceCached s.now with
  | some a => s.withService c call a
  | none => s.put c { call with stage := .waitService }

/-- A call begins. -/
def begin (c : CallId) : Option UserId → ChannelState
  | none => s.askService c ⟨none, .waitService, true⟩
  | some u => match s.client.userCached s.now u with
    | some a => s.finish c ⟨some u, .waitUser, true⟩ (some a)
    | none => s.put c ⟨some u, .waitUser, true⟩

/-- `_user_token`, when it has the lock. -/
def enterUser (c : CallId) (call : Call) (u : UserId) : ChannelState :=
  let s := { s with client.userLocks := s.client.userLocks.insert u c }
  match s.client.userCached s.now u with
  | some a => s.finish c call (some a)
  | none => match s.client.userTokens.lookup u with
    | some (t, _) => (s.present t).put c { call with stage := .refreshing t none }
    | none => s.askService c call

/-- `_service_token`, when it has the lock. -/
def enterService (c : CallId) (call : Call) : ChannelState :=
  match s.client.serviceCached s.now with
  | some a => s.withService c call a
  | none => match s.client.configToken with
    | none => s.finish c { call with served := false } none
    | some t => ({ s with client.serviceLock := some c }.present t).put c
        { call with stage := .renewing t none }

/-- A user's tokens are stored, and the call returns. -/
def storeUser (c : CallId) (call : Call) (t : Secret) (a : Access) : ChannelState :=
  match call.user with
  | none => s.finish c call (some a)
  | some u => { s with client.userTokens := s.client.userTokens.insert u (t, a) }.finish c call
      (some a)

/-- The tokens of the channel are stored. -/
def storeService (c : CallId) (call : Call) (t : Secret) (a : Access) (written : Bool) :
    ChannelState :=
  let s := { s with client := s.client.persistServiceToken t written }
  if written then
    { s with client.serviceAccess := some a, client.serviceLock := none }.withService c call a
  else s.finish c { call with served := false } none

/-- An event. -/
def step (s : ChannelState) : ChannelEvent → Option ChannelState
  | .call c user => if (s.calls.lookup c).isSome then none else some (s.begin c user)
  | .enter c => (s.calls.lookup c).bind fun call => match call.stage, call.user with
    | .waitUser, some u =>
      if (s.client.userLocks.lookup u).isSome then none else some (s.enterUser c call u)
    | .waitService, _ =>
      if s.client.serviceLock.isSome then none else some (s.enterService c call)
    | _, _ => none
  | .handle c => (s.calls.lookup c).bind fun call => match call.stage, call.user with
    | .refreshing t none, _ =>
      let (answer, router) := s.router.refresh ttl s.now t
      some ({ s with router }.put c { call with stage := .refreshing t (some answer) })
    | .renewing t none, _ =>
      let (answer, router) := s.router.refresh ttl s.now t
      some ({ s with router }.put c { call with
        stage := .renewing t (some answer)
        served := call.served && (s.router.accepts t).isSome })
    | .minting a none, some u =>
      let (answer, router) := s.router.mint service s.now a u
      some ({ s with router }.put c { call with
        stage := .minting a (some answer)
        served := call.served && s.router.admits service s.now a && s.router.services u })
    | .redeeming t none, some u =>
      let (answer, router) := s.router.refresh ttl s.now t
      some ({ s with router }.put c { call with
        stage := .redeeming t (some answer)
        served := call.served && s.router.services u })
    | _, _ => none
  | .receive c written => (s.calls.lookup c).bind fun call => match call.stage with
    | .refreshing _ (some (.pair t a)) | .redeeming _ (some (.pair t a)) =>
      some (s.storeUser c call t a)
    | .renewing _ (some (.pair t a)) => some (s.storeService c call t a written)
    | .minting _ (some (.minted t)) =>
      some ((s.present t).put c { call with stage := .redeeming t none })
    | .refreshing _ (some _) | .renewing _ (some _) | .minting _ (some _) | .redeeming _ (some _) =>
      some (s.finish c call none)
    | _ => none
  | .fail c => (s.calls.lookup c).bind fun call =>
    if call.stage.isDone then none else some (s.finish c { call with served := false } none)
  | .restart => some { s with
      client := { configToken := s.client.fileToken, fileToken := s.client.fileToken }
      calls := ∅ }
  | .tick n => some { s with now := s.now + n }
  | .drop t => some { s with router.rows := s.router.rows.erase t }
  | .issue u => some { s with router := s.router.issue u }
  | .users suspended deleted serviced =>
    some { s with router := { s.router with suspended, deleted, serviced } }

/-- A channel that has been onboarded, with a token of its own or without. -/
def onboarded (provisioned : Bool) : ChannelState where
  router := if provisioned then ({} : TokenRouter).issue service else {}
  client := if provisioned then { configToken := some 0, fileToken := some 0 } else {}

end ChannelState

/-- The channel and the router, from the onboarding on. -/
def channelSystem (service : UserId) (ttl : ℕ) (provisioned : Bool) :
    EventSystem ChannelState ChannelEvent :=
  ⟨.onboarded service provisioned, ChannelState.step service ttl⟩

end Backplane.Chatbot
