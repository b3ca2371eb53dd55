import Backplane.Identity.Accounts
import Backplane.Identity.Effects

/-!
# What is left of a rejected request

A handler that turns a request away appends an event and raises, all in one transaction: the event
goes with it, and so does what consuming the token has done.

* `AuthRequest.body_refines` : the statements do what the transactions of `Change` do.
* `RejectionDurable` : the event of a rejection is logged, and a link token is used up.
* `AuthRequest.Harmless` : the request is turned away, if at all, where nothing was to be kept.
* `rejections_durable_iff` : that is when its rejection is durable.
-/

namespace Backplane

open Rollback

/-! ### Statements -/

namespace Accounts

variable {cfg : AuthSettings} {e : AuthEnv} {s s' : Accounts} {h : TokenHash} {u : UserId}
  {a : AgentId} {err : RequestFailure}

theorem run_onDirectory (f : Directory → Directory) :
    (onDirectory f).run s = .ok () { s with toDirectory := f s.toDirectory } := rfl

theorem run_tryDirectory (f : Directory → Except RequestFailure Directory) :
    (tryDirectory f).run s = match f s.toDirectory with
      | .ok d => .ok () { s with toDirectory := d }
      | .error e => .error e s := by
  simp only [tryDirectory, EStateM.run_bind, EStateM.run_get]
  cases f s.toDirectory <;> rfl

theorem run_appendAuditEvent (ev : AuditEvent) :
    (Accounts.appendAuditEvent ev).run s = .ok () { s with auditLog := s.auditLog ++ [ev] } := rfl

theorem tryDirectory_silent (f : Directory → Except RequestFailure Directory) :
    Preserves auditLog (tryDirectory f) := by
  intro s
  rw [working, run_tryDirectory]
  cases f s.toDirectory <;> rfl

theorem run_activeUser : (activeUser u err).run s =
    match (s.users.lookup u).filter UserRecord.isActive with
    | none => .error err s
    | some r => .ok r s := by
  simp only [activeUser, EStateM.run_bind, EStateM.run_get]
  cases (s.users.lookup u).filter UserRecord.isActive <;> rfl

theorem run_consumeRefreshToken {h' : TokenHash} :
    (Accounts.consumeRefreshToken h h').run s =
      let (d, u) := s.toDirectory.consumeRefreshToken h h'
      .ok u { s with toDirectory := d, lookedUp := true } := rfl

theorem run_consumePasswordResetToken : (Accounts.consumePasswordResetToken h).run s =
    match s.toDirectory.consumePasswordResetToken h with
    | none => .ok none { s with lookedUp := true }
    | some (d, u) => .ok (some u) { s with toDirectory := d, lookedUp := true } := by
  simp only [Accounts.consumePasswordResetToken, EStateM.run_bind, EStateM.run_get,
    EStateM.run_modify]
  cases s.toDirectory.consumePasswordResetToken h with
  | none => rfl
  | some p => rfl

theorem run_consumeInvitation : (Accounts.consumeInvitation h a).run s =
    match s.toDirectory.consumeInvitation h a with
    | none => .ok none { s with lookedUp := true }
    | some (d, i) => .ok (some i) { s with toDirectory := d, lookedUp := true } := by
  simp only [Accounts.consumeInvitation, EStateM.run_bind, EStateM.run_get, EStateM.run_modify]
  cases s.toDirectory.consumeInvitation h a with
  | none => rfl
  | some p => rfl

/-- The event of a provisioning. -/
def provisioned (a : AgentId) (reused : Bool) : AuditEvent where
  actorKind := "agent"
  actorId := some a
  event := "agent.service_principal_provisioned"
  targetKind := some "user"
  targetId := some (serviceUserIdForAgent a)
  payload := [("reused", toString reused)]

theorem run_provisionServicePrincipal : (provisionServicePrincipal cfg e a).run s =
    match s.toDirectory.provisionServiceUser a with
    | .error err => .error err s
    | .ok d =>
      match orRaise (d.insertRefreshToken e.secret (serviceUserIdForAgent a)
        (d.clock + cfg.refreshTokenTtlS)) with
      | .error err => .error err { s with toDirectory := d }
      | .ok d' => .ok (serviceUserIdForAgent a, e.secret) { s with
          toDirectory := d'
          auditLog := s.auditLog ++
            [provisioned a (s.users.lookup (serviceUserIdForAgent a)).isSome] } := by
  simp only [provisionServicePrincipal, EStateM.run_bind, EStateM.run_get, run_tryDirectory,
    Accounts.insertRefreshToken]
  cases s.toDirectory.provisionServiceUser a with
  | error err => rfl
  | ok d =>
    simp only
    cases orRaise (d.insertRefreshToken e.secret (serviceUserIdForAgent a)
      (d.clock + cfg.refreshTokenTtlS)) <;> rfl

theorem provisionServicePrincipal_logs
    (hr : (provisionServicePrincipal cfg e a).run s = .error err s') :
    s'.auditLog = s.auditLog := by
  rw [run_provisionServicePrincipal] at hr
  split at hr
  · cases hr
    rfl
  · split at hr <;> cases hr
    rfl

end Accounts

/-! ### The transactions -/

namespace AuthRequest

open Accounts

variable {cfg : AuthSettings} {e : AuthEnv} {s s' : Accounts} {req : AuthRequest} {c : Change}

/-- The transaction a request runs; linking a sign-in identity is none of these. -/
def change : AuthRequest → Option Change
  | refresh h => some (.refresh h)
  | resetPassword h newHash => some (.resetPassword h newHash)
  | linkChannel h service grantService => some (.linkChannel h service grantService)
  | oidcLink _ _ => none
  | onboard a invitation => some (.onboard a invitation)

/-- The statements commit what the transaction commits, and raise what it raises. -/
def Refines (x : Stmt Outcome) (s : Accounts) (tx : Tx) : Prop :=
  match x.run s with
  | .ok out s' => tx = .ok (s'.toDirectory, out)
  | .error err _ => tx = .error err

theorem refresh_refines (h : TokenHash) : Refines (Accounts.refresh cfg e h) s
    (s.toDirectory.refresh cfg.toIdentitySettings e.toDirEnv h) := by
  unfold Refines Directory.refresh
  simp only [Accounts.refresh, EStateM.run_bind, run_consumeRefreshToken]
  rcases s.toDirectory.consumeRefreshToken h e.secret with ⟨d, _ | u⟩
  · rfl
  · simp only [EStateM.run_bind, run_activeUser, Accounts.insertRefreshToken, run_tryDirectory]
    cases (d.users.lookup u).filter UserRecord.isActive with
    | none => rfl
    | some r =>
      simp only
      cases orRaise (d.insertRefreshToken e.secret u (d.clock + cfg.refreshTokenTtlS)) <;> rfl

theorem resetPassword_refines (h : TokenHash) (newHash : String) :
    Refines (Accounts.resetPassword cfg e h newHash) s
      (s.toDirectory.resetPassword cfg.toIdentitySettings e.toDirEnv h newHash) := by
  unfold Refines Directory.resetPassword
  simp only [Accounts.resetPassword, EStateM.run_bind, run_consumePasswordResetToken]
  rcases s.toDirectory.consumePasswordResetToken h with _ | ⟨d, u⟩
  · rfl
  · simp only [EStateM.run_bind, run_activeUser]
    cases (d.users.lookup u).filter UserRecord.isActive with
    | none => rfl
    | some r =>
      simp only
      by_cases hk : r.authKind = .password
      · simp only [hk, ne_eq, not_true_eq_false, if_false, EStateM.run_bind, EStateM.run_pure,
          run_onDirectory, EStateM.run_get, Accounts.insertRefreshToken, run_tryDirectory]
        cases orRaise (((d.setUserPasswordHash u newHash).deleteUserRefreshTokens u).insertRefreshToken
          e.secret u (((d.setUserPasswordHash u newHash).deleteUserRefreshTokens u).clock +
            cfg.refreshTokenTtlS)) <;> rfl
      · simp only [ne_eq, hk, not_false_eq_true, if_true]
        rfl

theorem linkChannel_refines (h : TokenHash) (service : UserId) (grantService : Bool) :
    Refines (Accounts.linkChannel e h service grantService) s
      (s.toDirectory.linkChannel h service grantService) := by
  unfold Refines Directory.linkChannel
  simp only [Accounts.linkChannel, EStateM.run_bind, run_consumePasswordResetToken]
  rcases s.toDirectory.consumePasswordResetToken h with _ | ⟨d, u⟩
  · rfl
  · simp only [EStateM.run_bind, run_activeUser]
    cases (d.users.lookup u).filter UserRecord.isActive with
    | none => rfl
    | some r =>
      cases grantService with
      | false => rfl
      | true =>
        cases hp : privileged r.level with
        | true =>
          simp only [hp, if_true]
          cases e.denialAuditAllowed <;> rfl
        | false =>
          simp only [hp, Bool.false_eq_true, if_false, if_true]
          rfl

theorem onboard_refines (a : AgentId) (invitation : TokenHash) :
    Refines (Accounts.onboard cfg e a invitation) s
      (s.toDirectory.onboard cfg.toIdentitySettings e.toDirEnv a invitation) := by
  unfold Refines Directory.onboard
  simp only [Accounts.onboard, EStateM.run_bind, EStateM.run_get]
  cases hx : (s.agents.lookup a).any fun r => decide (r.status = .removed) with
  | true => rfl
  | false =>
    simp only [Bool.false_eq_true, if_false, EStateM.run_bind, run_consumeInvitation]
    rcases s.toDirectory.consumeInvitation invitation a with _ | ⟨d, i⟩
    · rfl
    · simp only [EStateM.run_bind, run_tryDirectory]
      cases d.registerAgent a with
      | error err => rfl
      | ok d =>
        cases hp : i.provisionsServiceUser with
        | false => rfl
        | true =>
          simp only [EStateM.run_get, run_appendAuditEvent, EStateM.run_bind, Bool.not_true,
            Bool.false_eq_true, if_false, run_provisionServicePrincipal]
          simp only [bind, Except.bind]
          cases d.provisionServiceUser a with
          | error err => rfl
          | ok d =>
            simp only
            cases orRaise (d.insertRefreshToken e.secret (serviceUserIdForAgent a)
              (d.clock + cfg.refreshTokenTtlS)) <;> rfl

/-- **The statements refine the transactions**: each request that is one of `Change` commits and
raises what that does. -/
theorem body_refines (hc : req.change = some c) : Refines (req.body cfg e) s
    (c.apply cfg.toIdentitySettings e.toDirEnv s.toDirectory) := by
  cases req with
  | refresh h => obtain rfl := Option.some.inj hc; exact refresh_refines h
  | resetPassword h newHash => obtain rfl := Option.some.inj hc; exact resetPassword_refines h newHash
  | linkChannel h service g => obtain rfl := Option.some.inj hc; exact linkChannel_refines h service g
  | oidcLink => cases hc
  | onboard a i => obtain rfl := Option.some.inj hc; exact onboard_refines a i

theorem body_refines_refresh : Refines ((AuthRequest.refresh "t1").body {} {}) {}
    ((Change.refresh "t1").apply {} (AuthEnv.toDirEnv {}) {}) :=
  body_refines rfl

/-! ### Rejections -/

/-- The events that are appended for a rejection. -/
def rejections : List String :=
  ["auth.refresh_replayed", "auth.password_reset_token_invalid", "user.serviced_by_grant_denied",
    "agent.onboard_rejected", "auth.invitation_rejected"]

/-- Appended for a rejection. -/
def isRejection (ev : AuditEvent) : Bool := decide (ev.event ∈ rejections)

/-- The link token that is documented as consumed regardless of outcome. -/
def consumedRegardless : AuthRequest → Option TokenHash
  | linkChannel h _ _ => some h
  | _ => none

/-- The token can still be redeemed. -/
def redeemable (s : Accounts) (h : TokenHash) : Bool :=
  (s.resetTokens.lookup h).any fun t => t.live s.clock

/-- A transaction has begun: it has looked up nothing. -/
def begun (s : Accounts) : Accounts := { s with lookedUp := false }

variable (cfg e s) in
/-- When the request is rejected after its token was looked up, the event appended for that is in
the log after it, and a token documented as consumed regardless of outcome is no longer usable. -/
def RejectionDurable (req : AuthRequest) : Prop :=
  ∀ s₁ err s₂, (req.before cfg e).run (begun s) = .ok () s₁ →
    (req.body cfg e).run s₁ = .error err s₂ → s₂.lookedUp = true →
    Survives auditLog isRejection (req.body cfg e) s₁ ∧
    ∀ h, req.consumedRegardless = some h → redeemable (working (req.handle cfg e) (begun s)) h = false

variable (cfg e s) in
/-- The request is turned away, if at all, before its token is looked up, or where nothing was to
be kept: a token that is presented is good, and a link token also belongs to a user whom it can be
redeemed for. -/
def Harmless : AuthRequest → Prop
  | refresh h => e.limited = true ∨ (s.refreshTokens.lookup h).any (fun t => t.live s.clock) = true
  | resetPassword h _ => e.limited = true ∨ redeemable s h = true
  | linkChannel h _ grantService => ∃ t r, s.resetTokens.lookup h = some t ∧
      t.live s.clock = true ∧ s.users.lookup t.userId = some r ∧ r.isActive = true ∧
      (grantService = true → privileged r.level = false)
  | oidcLink _ _ => True
  | onboard a invitation => Identity.isAgentId a = false ∨
      (s.agents.lookup a).any (fun r => decide (r.status = .removed)) = true ∨
      (s.invitations.lookup invitation).any (fun i => i.live s.clock) = true

/-! ### What a request that raises has appended -/

variable {s₁ s₂ : Accounts} {err : RequestFailure} {h : TokenHash} {u : UserId} {a : AgentId}

theorem before_ok (hb : (req.before cfg e).run s = .ok () s₁) : s₁ = s := by
  cases req with
  | refresh h =>
    simp only [before] at hb
    split at hb
    · cases hb
    · cases hb; rfl
  | resetPassword h newHash =>
    simp only [before] at hb
    cases hl : e.limited with
    | false =>
      simp only [hl] at hb
      cases hb
      rfl
    | true =>
      cases hf : e.fault
      · simp [hl, hf] at hb
        cases hb
      · simp [hl, hf] at hb
  | linkChannel => cases hb; rfl
  | oidcLink h uri =>
    simp only [before] at hb
    cases hi : cfg.oidcIssuer.isNone <;> by_cases hu : uri ∈ cfg.oidcAllowedRedirectUris <;>
      cases hl : e.limited <;> cases hc : e.oidcClaims.isNone <;>
      simp [hi, hu, hl, hc] at hb <;> cases hb
    rfl
  | onboard a i =>
    simp only [before] at hb
    split at hb
    · cases hb; rfl
    · cases hb

theorem handle_of_error (hb : (req.before cfg e).run s = .ok () s₁)
    (hr : (req.body cfg e).run s₁ = .error err s₂) : working (req.handle cfg e) s = s := by
  obtain rfl := before_ok hb
  simp [working, handle, hb, run_transaction, hr]

/-- A request that raises has kept its promise if there was nothing to keep. -/
theorem durable_iff : RejectionDurable cfg e s req ↔ ∀ err s₂,
    (req.before cfg e).run (begun s) = .ok () (begun s) →
    (req.body cfg e).run (begun s) = .error err s₂ → s₂.lookedUp = true →
    appended auditLog isRejection (req.body cfg e) (begun s) = [] ∧
    ∀ h, req.consumedRegardless = some h → redeemable s h = false := by
  constructor
  · intro hd err s₂ hb hr hl
    obtain ⟨hs, hc⟩ := hd _ err s₂ hb hr hl
    rw [handle_of_error hb hr] at hc
    exact ⟨(survives_iff_of_error hr).1 hs, hc⟩
  · intro hq s₁ err s₂ hb hr hl
    obtain rfl := before_ok hb
    obtain ⟨hs, hc⟩ := hq err s₂ hb hr hl
    rw [handle_of_error hb hr]
    exact ⟨(survives_iff_of_error hr).2 hs, hc⟩

theorem consumeRefreshToken_isNone (h' : TokenHash) :
    (s.toDirectory.consumeRefreshToken h h').2 = none ↔
      (s.refreshTokens.lookup h).any (fun t => t.live s.clock) = false := by
  unfold Directory.consumeRefreshToken
  cases s.refreshTokens.lookup h with
  | none => simp
  | some t =>
    by_cases hx : s.clock < t.expiresAt <;> cases hu : t.usedAt <;>
      simp [RefreshToken.live, Option.filter, hx, hu]

theorem consumePasswordResetToken_isNone :
    s.toDirectory.consumePasswordResetToken h = none ↔ redeemable s h = false := by
  unfold Directory.consumePasswordResetToken redeemable
  cases s.resetTokens.lookup h with
  | none => simp
  | some t => cases hu : t.usedAt <;> simp [ResetToken.live, hu]

theorem consumeInvitation_isNone : s.toDirectory.consumeInvitation h a = none ↔
    (s.invitations.lookup h).any (fun i => i.live s.clock) = false := by
  unfold Directory.consumeInvitation
  cases s.invitations.lookup h with
  | none => simp
  | some i => cases hu : i.usedAt <;> simp [Invitation.live, hu]

variable (cfg e) in
/-- A refresh token that cannot be exchanged: the event is appended, and 401 raised. -/
theorem refresh_dead (hd : (s.refreshTokens.lookup h).any (fun t => t.live s.clock) = false) :
    ∃ s₂, (Accounts.refresh cfg e h).run s = .error (.http 401) s₂ ∧ s₂.lookedUp = true ∧
      s₂.auditLog = s.auditLog ++ [{ actorKind := "user", event := "auth.refresh_replayed" }] := by
  have hn := (consumeRefreshToken_isNone e.secret).2 hd
  simp only [Accounts.refresh, EStateM.run_bind, run_consumeRefreshToken]
  rcases hc : s.toDirectory.consumeRefreshToken h e.secret with ⟨d, _ | u⟩
  · exact ⟨_, rfl, rfl, rfl⟩
  · rw [hc] at hn
    cases hn

theorem refresh_live (hd : (s.refreshTokens.lookup h).any (fun t => t.live s.clock) = true)
    (hr : (Accounts.refresh cfg e h).run s = .error err s₂) : s₂.auditLog = s.auditLog := by
  have hn := mt (consumeRefreshToken_isNone e.secret).1 (by rw [hd]; decide)
  simp only [Accounts.refresh, EStateM.run_bind, run_consumeRefreshToken] at hr
  rcases hc : s.toDirectory.consumeRefreshToken h e.secret with ⟨d, _ | u⟩
  · rw [hc] at hn
    exact absurd rfl hn
  · simp only [hc, EStateM.run_bind, run_activeUser, Accounts.insertRefreshToken,
      run_tryDirectory] at hr
    cases hu : (d.users.lookup u).filter UserRecord.isActive with
    | none => simp only [hu] at hr; cases hr; rfl
    | some r =>
      simp only [hu] at hr
      cases ho : orRaise (d.insertRefreshToken e.secret u (d.clock + cfg.refreshTokenTtlS)) with
      | error err => simp only [ho] at hr; cases hr; rfl
      | ok d' => simp only [ho] at hr; cases hr

variable (cfg e) in
theorem resetPassword_dead (newHash : String) (hd : redeemable s h = false) :
    ∃ s₂, (Accounts.resetPassword cfg e h newHash).run s = .error (.http 401) s₂ ∧
      s₂.lookedUp = true ∧ s₂.auditLog = s.auditLog ++
        [{ actorKind := "user", event := "auth.password_reset_token_invalid" }] := by
  simp only [Accounts.resetPassword, EStateM.run_bind, run_consumePasswordResetToken,
    consumePasswordResetToken_isNone.2 hd]
  exact ⟨_, rfl, rfl, rfl⟩

theorem resetPassword_live {newHash : String} (hd : redeemable s h = true)
    (hr : (Accounts.resetPassword cfg e h newHash).run s = .error err s₂) :
    s₂.auditLog = s.auditLog := by
  have hn := mt consumePasswordResetToken_isNone.1 (by rw [hd]; decide)
  obtain ⟨⟨d, u⟩, hc⟩ := Option.ne_none_iff_exists'.1 hn
  simp only [Accounts.resetPassword, EStateM.run_bind, run_consumePasswordResetToken, hc,
    run_activeUser] at hr
  cases hu : (d.users.lookup u).filter UserRecord.isActive with
  | none => simp only [hu] at hr; cases hr; rfl
  | some r =>
    simp only [hu] at hr
    by_cases hk : r.authKind = .password
    · simp only [hk, ne_eq, not_true_eq_false, if_false, EStateM.run_bind, EStateM.run_pure,
        run_onDirectory, EStateM.run_get, Accounts.insertRefreshToken, run_tryDirectory] at hr
      split at hr <;> cases hr
      rename_i ho
      split at ho <;> cases ho
      rfl
    · simp only [ne_eq, hk, not_false_eq_true, if_true] at hr
      cases hr
      rfl

variable (e) in
theorem linkChannel_dead (service : UserId) (g : Bool) (hd : redeemable s h = false) :
    ∃ s₂ ev, (Accounts.linkChannel e h service g).run s = .error (.http 401) s₂ ∧
      s₂.lookedUp = true ∧ s₂.auditLog = s.auditLog ++ [ev] ∧ isRejection ev = true := by
  simp only [Accounts.linkChannel, EStateM.run_bind, run_consumePasswordResetToken,
    consumePasswordResetToken_isNone.2 hd]
  exact ⟨_, _, rfl, rfl, rfl, by simp [isRejection, rejections]⟩

/-- A link token is redeemed where its user is active, and may be serviced if that is asked for. -/
theorem linkChannel_ok_of_harmless {service : UserId} {g : Bool}
    (hh : Harmless e s (.linkChannel h service g)) :
    ∃ out s₂, (Accounts.linkChannel e h service g).run s = .ok out s₂ := by
  obtain ⟨t, r, ht, hlive, hr, hact, hg⟩ := hh
  have hn := mt consumePasswordResetToken_isNone.1 (by rw [redeemable, ht, Option.any_some, hlive]; decide)
  obtain ⟨⟨d, u⟩, hc⟩ := Option.ne_none_iff_exists'.1 hn
  obtain ⟨t', ht', -, rfl, rfl⟩ := Directory.consumePasswordResetToken_eq_some hc
  obtain rfl := Option.some.inj (ht.symm.trans ht')
  have hu : (s.users.lookup t.userId).filter UserRecord.isActive = some r := by
    rw [hr, Option.filter_some, hact, if_pos rfl]
  simp only [Accounts.linkChannel, EStateM.run_bind, run_consumePasswordResetToken, hc,
    run_activeUser, hu]
  cases g with
  | false => exact ⟨_, _, rfl⟩
  | true =>
    simp only [hg rfl, Bool.false_eq_true, if_false, if_true]
    exact ⟨_, _, rfl⟩

/-- Else the request is turned away after it has consumed the token. -/
theorem linkChannel_turns_away {service : UserId} {g : Bool} (hd : redeemable s h = true)
    (hh : ¬ Harmless e s (.linkChannel h service g)) :
    ∃ err s₂, (Accounts.linkChannel e h service g).run s = .error err s₂ ∧ s₂.lookedUp = true := by
  have hn := mt consumePasswordResetToken_isNone.1 (by rw [hd]; decide)
  obtain ⟨⟨d, u⟩, hc⟩ := Option.ne_none_iff_exists'.1 hn
  obtain ⟨t, ht, hlive, rfl, rfl⟩ := Directory.consumePasswordResetToken_eq_some hc
  simp only [Accounts.linkChannel, EStateM.run_bind, run_consumePasswordResetToken, hc,
    run_activeUser]
  cases hu : (s.users.lookup t.userId).filter UserRecord.isActive with
  | none => exact ⟨_, _, rfl, rfl⟩
  | some r =>
    obtain ⟨hr, hact⟩ := Option.filter_eq_some_iff.1 hu
    have hp : g = true ∧ privileged r.level = true := by
      by_contra hgp
      refine hh ⟨t, r, ht, hlive, hr, hact, fun hg => ?_⟩
      simpa [hg] using hgp
    obtain ⟨rfl, hp⟩ := hp
    simp only [hp, if_true]
    cases e.denialAuditAllowed <;> exact ⟨_, _, rfl, rfl⟩

theorem linkOidcIdentity_silent (issuer sub : String) (email : Option String) :
    Preserves auditLog (linkOidcIdentity issuer sub u email) := by
  refine .bind .get fun s => ?_
  cases s.identities.lookup (issuer, sub) with
  | none =>
    refine .bind .get fun s => ?_
    cases (s.users.lookup u).isNone
    · exact .modify fun _ => rfl
    · exact .throw _
  | some i =>
    dsimp only
    by_cases hi : i.userId = u
    · rw [if_neg (not_not.2 hi)]
      exact .modify fun _ => rfl
    · rw [if_pos hi]
      exact .throw _

/-- Linking a sign-in identity logs nothing when it fails. -/
theorem oidcExchange_logs {issuer : String} {claims : OidcClaims}
    (hr : (Accounts.oidcExchange cfg e h issuer claims).run s = .error err s₂) :
    s₂.auditLog = s.auditLog := by
  have hlink : Preserves auditLog (linkOidcViaToken h issuer claims) := by
    refine .bind ?_ fun u => ?_
    · refine .bind (.modify fun _ => rfl) fun _ => .bind .get fun s => ?_
      cases s.toDirectory.consumePasswordResetToken h with
      | none => exact .pure _
      | some p => exact .bind (.modify fun _ => rfl) fun _ => .pure _
    · cases u with
      | none => exact .throw _
      | some u =>
        refine .bind (.bind .get fun s => ?_) fun r => .bind ?_ fun _ => .pure _
        · cases (s.users.lookup u).filter UserRecord.isActive with
          | none => exact .throw _
          | some r => exact .pure _
        · exact (linkOidcIdentity_silent issuer claims.sub claims.email).tryCatch fun _ => .throw _
  obtain hl | ⟨⟨u, r⟩, s₁, hl, hr⟩ := bind_eq_error hr
  · exact hlink.of_error hl
  obtain hi | ⟨_, s₃, hi, hr⟩ := bind_eq_error hr
  · exact ((tryDirectory_silent _).of_error hi).trans (hlink.of_ok hl)
  · cases hr

/-- An agent that was evicted is turned away before the invitation is looked at. -/
theorem onboard_removed {i : TokenHash}
    (hx : (s.agents.lookup a).any (fun r => decide (r.status = .removed)) = true)
    (hr : (Accounts.onboard cfg e a i).run s = .error err s₂) : s₂.lookedUp = s.lookedUp := by
  simp only [Accounts.onboard, EStateM.run_bind, EStateM.run_get, hx, if_true] at hr
  cases hr
  rfl

variable (cfg e) in
theorem onboard_dead {i : TokenHash}
    (hx : (s.agents.lookup a).any (fun r => decide (r.status = .removed)) = false)
    (hd : (s.invitations.lookup i).any (fun i => i.live s.clock) = false) :
    ∃ s₂ ev, (Accounts.onboard cfg e a i).run s = .error (.http 403) s₂ ∧
      s₂.lookedUp = true ∧ s₂.auditLog = s.auditLog ++ [ev] ∧ isRejection ev = true := by
  simp only [Accounts.onboard, EStateM.run_bind, EStateM.run_get, hx, Bool.false_eq_true, if_false,
    run_consumeInvitation, consumeInvitation_isNone.2 hd]
  exact ⟨_, _, rfl, rfl, rfl, by simp [isRejection, rejections]⟩

/-- What an onboard with a good invitation appends before it raises is not about a rejection. -/
theorem onboard_live {i : TokenHash}
    (hx : (s.agents.lookup a).any (fun r => decide (r.status = .removed)) = false)
    (hd : (s.invitations.lookup i).any (fun i => i.live s.clock) = true)
    (hr : (Accounts.onboard cfg e a i).run s = .error err s₂) :
    ∃ l, s₂.auditLog = s.auditLog ++ l ∧ l.filter isRejection = [] := by
  have hn := mt (consumeInvitation_isNone (a := a)).1 (by rw [hd]; decide)
  obtain ⟨⟨d, inv⟩, hc⟩ := Option.ne_none_iff_exists'.1 hn
  simp only [Accounts.onboard, EStateM.run_bind, EStateM.run_get, hx, Bool.false_eq_true, if_false,
    run_consumeInvitation, hc, run_tryDirectory] at hr
  cases hreg : d.registerAgent a with
  | error err' =>
    simp only [hreg] at hr
    cases hr
    exact ⟨[], (List.append_nil _).symm, rfl⟩
  | ok d' =>
    simp only [hreg, run_appendAuditEvent] at hr
    cases hp : inv.provisionsServiceUser with
    | false => simp [hp] at hr
    | true =>
      simp only [hp, Bool.not_true, Bool.false_eq_true, if_false] at hr
      obtain hr | ⟨_, _, -, hr⟩ := bind_eq_error hr
      · -- The agent's own event is there; that it goes too is as it should be.
        exact ⟨_, provisionServicePrincipal_logs hr, by simp [isRejection, rejections]⟩
      · cases hr

/-! ### Which rejections are durable -/

theorem appended_of_error (hr : (req.body cfg e).run s = .error err s₂) {l : List AuditEvent}
    (hl : s₂.auditLog = s.auditLog ++ l) :
    appended auditLog isRejection (req.body cfg e) s = l.filter isRejection := by
  simp [appended, working, hr, hl]

/-- A request that appends the event of its rejection and raises loses it. -/
theorem not_durable_of_event {ev : AuditEvent}
    (hb : (req.before cfg e).run (begun s) = .ok () (begun s))
    (hr : (req.body cfg e).run (begun s) = .error err s₂) (hl : s₂.lookedUp = true)
    (hlog : s₂.auditLog = s.auditLog ++ [ev]) (hev : isRejection ev = true) :
    ¬ RejectionDurable cfg e s req := by
  rw [durable_iff]
  intro hd
  have hnil := (hd err s₂ hb hr hl).1
  rw [appended_of_error hr hlog] at hnil
  simp [hev] at hnil

/-- A request without a link token is harmless if it raises without the event of a rejection. -/
theorem durable_of_quiet (hn : req.consumedRegardless = none)
    (hq : ∀ err s₂, (req.before cfg e).run (begun s) = .ok () (begun s) →
      (req.body cfg e).run (begun s) = .error err s₂ → s₂.lookedUp = true →
      ∃ l, s₂.auditLog = s.auditLog ++ l ∧ l.filter isRejection = []) :
    RejectionDurable cfg e s req := by
  rw [durable_iff]
  intro err s₂ hb hr hl
  obtain ⟨l, hlog, hfil⟩ := hq err s₂ hb hr hl
  refine ⟨(appended_of_error hr hlog).trans hfil, fun h hh => ?_⟩
  rw [hn] at hh
  cases hh

theorem refresh_durable_iff : RejectionDurable cfg e s (.refresh h) ↔
    Harmless e s (.refresh h) := by
  constructor
  · intro hd
    by_contra hh
    obtain ⟨hlim, hdead⟩ := not_or.1 hh
    rw [Bool.not_eq_true] at hlim hdead
    obtain ⟨s₂, hr, hl, hlog⟩ := refresh_dead cfg e (s := begun s) hdead
    refine absurd hd (not_durable_of_event ?_ hr hl hlog (by simp [isRejection, rejections]))
    simp only [before, hlim]
    rfl
  · intro hh
    refine durable_of_quiet rfl fun err s₂ hb hr _ => ?_
    obtain hlim | hlive := hh
    · simp only [before, hlim, if_true] at hb
      cases hb
    · exact ⟨[], by rw [List.append_nil]; exact refresh_live (s := begun s) hlive hr, rfl⟩

theorem resetPassword_durable_iff {newHash : String} :
    RejectionDurable cfg e s (.resetPassword h newHash) ↔
      Harmless e s (.resetPassword h newHash) := by
  constructor
  · intro hd
    by_contra hh
    obtain ⟨hlim, hdead⟩ := not_or.1 hh
    rw [Bool.not_eq_true] at hlim hdead
    obtain ⟨s₂, hr, hl, hlog⟩ := resetPassword_dead cfg e newHash (s := begun s) hdead
    refine absurd hd (not_durable_of_event ?_ hr hl hlog (by simp [isRejection, rejections]))
    simp only [before, hlim]
    rfl
  · intro hh
    refine durable_of_quiet rfl fun err s₂ hb hr _ => ?_
    obtain hlim | hlive := hh
    · cases hf : e.fault
      · simp [before, hlim, hf] at hb
        cases hb
      · simp [before, hlim, hf] at hb
    · exact ⟨[], by rw [List.append_nil]; exact resetPassword_live (s := begun s) hlive hr, rfl⟩

theorem linkChannel_durable_iff {service : UserId} {g : Bool} :
    RejectionDurable cfg e s (.linkChannel h service g) ↔
      Harmless e s (.linkChannel h service g) := by
  constructor
  · intro hd
    by_contra hh
    cases hr : redeemable s h with
    | false =>
      obtain ⟨s₂, ev, hrun, hl, hlog, hev⟩ :=
        linkChannel_dead e service g (s := begun s) hr
      exact absurd hd (not_durable_of_event rfl hrun hl hlog hev)
    | true =>
      obtain ⟨err, s₂, hrun, hl⟩ := linkChannel_turns_away (e := e) (s := begun s) hr hh
      have hused := (durable_iff.1 hd err s₂ rfl hrun hl).2 h rfl
      rw [hr] at hused
      cases hused
  · intro hh
    rw [durable_iff]
    intro err s₂ _ hr _
    obtain ⟨out, s₃, hok⟩ := linkChannel_ok_of_harmless (s := begun s) hh
    exact absurd (hok.symm.trans hr) (by simp)

theorem onboard_durable_iff {i : TokenHash} : RejectionDurable cfg e s (.onboard a i) ↔
    Harmless e s (.onboard a i) := by
  constructor
  · intro hd
    by_contra hh
    obtain ⟨hid, hh⟩ := not_or.1 hh
    obtain ⟨hrem, hdead⟩ := not_or.1 hh
    rw [Bool.not_eq_false] at hid
    rw [Bool.not_eq_true] at hrem hdead
    obtain ⟨s₂, ev, hr, hl, hlog, hev⟩ := onboard_dead cfg e (s := begun s) hrem hdead
    refine absurd hd (not_durable_of_event ?_ hr hl hlog hev)
    simp only [before, hid]
    rfl
  · intro hh
    refine durable_of_quiet rfl fun err s₂ hb hr hl => ?_
    cases hrem : (s.agents.lookup a).any fun r => decide (r.status = .removed) with
    | true =>
      -- The flag is still down: the invitation was not looked at.
      have hdown := onboard_removed (s := begun s) hrem hr
      rw [hl] at hdown
      cases hdown
    | false =>
      obtain hid | hrem' | hlive := hh
      · simp only [before, hid, Bool.false_eq_true, if_false] at hb
        cases hb
      · rw [hrem] at hrem'
        cases hrem'
      · exact onboard_live (s := begun s) hrem hlive hr

/-- **Rejections are not durable**: a request keeps what its rejection should leave exactly when
it is turned away, if at all, where there is nothing to keep. -/
theorem rejections_durable_iff (cfg : AuthSettings) (e : AuthEnv) (s : Accounts)
    (req : AuthRequest) : RejectionDurable cfg e s req ↔ Harmless e s req := by
  cases req with
  | refresh h => exact refresh_durable_iff
  | resetPassword h newHash => exact resetPassword_durable_iff
  | linkChannel h service g => exact linkChannel_durable_iff
  | oidcLink h uri =>
    refine iff_of_true (durable_of_quiet rfl fun err s₂ _ hr _ => ?_) trivial
    exact ⟨[], by rw [List.append_nil]; exact oidcExchange_logs hr, rfl⟩
  | onboard a i => exact onboard_durable_iff

end AuthRequest

namespace Sample

def accounts : Accounts where
  users := (∅ : Table UserId UserRecord)
    |>.insert "ada" { userId := "ada", level := "tier1" }
    |>.insert "root" { userId := "root", level := "admin" }
  refreshTokens := (∅ : Table TokenHash RefreshToken).insert "used" ⟨"ada", 100, some 1, none⟩
  resetTokens := (∅ : Table TokenHash ResetToken).insert "link" ⟨"root", 100, none, none⟩

/-- A replayed refresh token leaves no event, and a link token that was turned away still works. -/
theorem rejections_lost : ¬ AuthRequest.RejectionDurable {} {} accounts (.refresh "used") ∧
    ¬ AuthRequest.RejectionDurable {} {} accounts (.linkChannel "link" "usr_service_bot" true) := by
  rw [AuthRequest.refresh_durable_iff, AuthRequest.linkChannel_durable_iff]
  constructor
  · simp only [AuthRequest.Harmless]
    decide
  · rintro ⟨t, r, ht, -, hr, -, hp⟩
    have ht' : some (⟨"root", 100, none, none⟩ : ResetToken) = some t := ht
    obtain rfl := Option.some.inj ht'
    have hr' : some ({ userId := "root", level := "admin" } : UserRecord) = some r := hr
    obtain rfl := Option.some.inj hr'
    exact absurd (hp rfl) (by decide)

end Sample

end Backplane
