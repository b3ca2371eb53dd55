import Backplane.Identity.Effects

/-!
# Login, refresh and logout

A refresh token is exchanged for a new pair once.  One that is presented again is a replay, and is to
take the user's other tokens with it.

* `SessionAct`, `SessionCall.body`, `signing` : the requests and the machine that runs them.
* `FamilyInvalidated` : every token is exchanged at most once, and after a replay no token that the
  user had is accepted.
* `quietReplays` : a token is replayed only while its user has no other token that can be exchanged.
* `exchanged_once` : the first half holds in every run.
* `family_invalidated` : the whole holds in every run whose replays are quiet.
* `family_survives` : the deletion is undone by the 401 that reports it.
-/

namespace Backplane

open Concur Prog

/-! ### The requests -/

/-- What a step of these requests learns from outside. -/
structure SessionEnv extends DirEnv where
  /-- The password matches the hash. -/
  verified : Bool := true
  /-- The hash was made with parameters that are no longer used. -/
  outdated : Bool := false

/-- The atomic actions of login, refresh and logout. -/
inductive SessionAct : Type → Type 1
  /-- `try_consume`: does the rate limiter deny? -/
  | limited : SessionAct Bool
  | getUserByEmail (email : String) : SessionAct (Option UserRecord)
  | verifyPassword (password hash : String) : SessionAct Bool
  | needsRehash (hash : String) : SessionAct Bool
  /-- Store a new hash of the same password. -/
  | rehash (u : UserId) : SessionAct Unit
  | login (r : UserRecord) : SessionAct (Except RequestFailure Outcome)
  | refresh (h : TokenHash) : SessionAct (Except RequestFailure Outcome)
  | revokeJti (jti : String) : SessionAct Unit
  | revokeRefreshToken (h : TokenHash) : SessionAct Bool

namespace Directory

/-- The transaction of `login`. -/
def login (cfg : IdentitySettings) (e : DirEnv) (s : Directory) (r : UserRecord) : Tx := do
  let s ← orRaise (s.insertRefreshToken e.secret r.userId (s.clock + cfg.refreshTokenTtlS))
  .ok (s, .session r.userId r.level e.secret)

/-- `revoke_refresh_token`: mark a token as used; whether it was not. -/
def revokeRefreshToken (s : Directory) (h : TokenHash) : Directory × Bool :=
  match (s.refreshTokens.lookup h).filter fun t => t.usedAt.isNone with
  | none => (s, false)
  | some t =>
    ({ s with refreshTokens := s.refreshTokens.insert h { t with usedAt := some s.clock } }, true)

/-- The tables after a transaction, which leaves them as they were if it fails. -/
def settled (e : DirEnv) (s : Directory) (tx : Tx) : Directory × Except RequestFailure Outcome :=
  if e.fault then (s, .error .raised)
  else match tx with
    | .error err => (s, .error err)
    | .ok (s', out) => (s', .ok out)

end Directory

/-- What an action does once the clock has been read. -/
def SessionAct.perform (cfg : IdentitySettings) {β : Type} (e : SessionEnv) (s : Directory) :
    SessionAct β → Directory × β
  | limited => (s, e.limited)
  | getUserByEmail email => (s, s.getUserByEmail email)
  | verifyPassword _ _ => (s, e.verified)
  | needsRehash _ => (s, e.outdated)
  | rehash u => (s.setUserPasswordHash u e.secret, ())
  | login r => s.settled e.toDirEnv (s.login cfg e.toDirEnv r)
  | refresh h => s.settled e.toDirEnv (s.refresh cfg e.toDirEnv h)
  | revokeJti jti => ({ s with revokedJtis := jti :: s.revokedJtis }, ())
  | revokeRefreshToken h => s.revokeRefreshToken h

/-- What an action does; the clock never runs backwards. -/
def SessionAct.exec (cfg : IdentitySettings) {β : Type} (a : SessionAct β) (e : SessionEnv)
    (s : Directory) : Option (Directory × β) :=
  if s.clock ≤ e.now then some (a.perform cfg e { s with clock := e.now }) else none

/-- The hash a password is checked against. -/
def UserRecord.passwordHash (r : UserRecord) : Option String :=
  if r.authKind = .password then r.authSecretHash.filter fun hash => hash ≠ "" else none

namespace Session

/-- `login` -/
def login (email password : String) : Prog SessionAct Reply := do
  if ← perform .limited then pure (.error (.http 429))
  else match (← perform (.getUserByEmail email)).filter UserRecord.isActive with
    | none => pure (.error (.http 401))
    | some r =>
      match r.passwordHash with
      | none => pure (.error (.http 401))
      | some hash =>
        if ← perform (.verifyPassword password hash) then do
          if ← perform (.needsRehash hash) then
            perform (.rehash r.userId)
          perform (.login r)
        else pure (.error (.http 401))

/-- `refresh` -/
def refresh (h : TokenHash) : Prog SessionAct Reply := do
  if ← perform .limited then pure (.error (.http 429)) else perform (.refresh h)

/-- `logout`, of the session with this id. -/
def logout (redis : Bool) (jti : String) (h : Option TokenHash) : Prog SessionAct Reply := do
  if redis then
    perform (.revokeJti jti)
  match h with
  | none => pure (.ok .done)
  | some h => do
    let _ ← perform (.revokeRefreshToken h)
    pure (.ok .done)

end Session

/-- A request. -/
inductive SessionCall
  | login (email password : String)
  | refresh (h : TokenHash)
  /-- `logout`; the refresh token is optional. -/
  | logout (jti : String) (h : Option TokenHash)

/-- The program of a request. -/
def SessionCall.body (cfg : IdentitySettings) : SessionCall → Prog SessionAct Reply
  | login email password => Session.login email password
  | refresh h => Session.refresh h
  | logout jti h => Session.logout cfg.redis jti h

/-- The endpoints that sign users in and out. -/
def signing (cfg : IdentitySettings) : Machine SessionAct SessionEnv Directory SessionCall Reply where
  exec := SessionAct.exec cfg
  body := SessionCall.body cfg

/-! ### Tokens over time -/

/-- The token that an event issues, and to whom. -/
def issuedBy : Event SessionAct → Option (TokenHash × UserId)
  | ⟨.login _, .ok (.session u _ h)⟩ => some (h, u)
  | ⟨.refresh _, .ok (.session u _ h)⟩ => some (h, u)
  | _ => none

/-- The token that an event exchanges, and whose it is. -/
def exchangedBy : Event SessionAct → Option (TokenHash × UserId)
  | ⟨.refresh h, .ok (.session u _ _)⟩ => some (h, u)
  | _ => none

/-- The token that an event presents. -/
def presentedBy : Event SessionAct → Option TokenHash
  | ⟨.refresh h, _⟩ => some h
  | _ => none

/-- The token was exchanged. -/
def RefreshToken.exchanged (t : RefreshToken) : Bool := t.usedAt.isSome && t.replacedBy.isSome

/-- The token was issued to the user, in this history or before it. -/
def IssuedTo (s₀ : Directory) (log : Log SessionAct) (u : UserId) (h : TokenHash) : Prop :=
  (∃ t, s₀.refreshTokens.lookup h = some t ∧ t.userId = u) ∨
    ∃ x ∈ log, issuedBy x.2 = some (h, u)

/-- The user's token was exchanged, in this history or before it. -/
def ExchangedFor (s₀ : Directory) (log : Log SessionAct) (u : UserId) (h : TokenHash) : Prop :=
  (∃ t, s₀.refreshTokens.lookup h = some t ∧ t.userId = u ∧ t.exchanged = true) ∨
    ∃ x ∈ log, exchangedBy x.2 = some (h, u)

/-- Every token is exchanged at most once, and after a replay no token that the user had is
accepted. -/
structure FamilyInvalidated (s₀ : Directory) (log : Log SessionAct) : Prop where
  /-- Exchanged at most once. -/
  once : ∀ h, (log.countP fun x => (exchangedBy x.2).any fun p => p.1 = h) ≤ 1
  /-- None of the family is accepted after a replay. -/
  dead : ∀ l₁ x l₂ h u, log = l₁ ++ x :: l₂ → presentedBy x.2 = some h → ExchangedFor s₀ l₁ u h →
    ∀ h', IssuedTo s₀ l₁ u h' → ∀ y ∈ l₂, ∀ v, exchangedBy y.2 ≠ some (h', v)

/-- If the token was exchanged before, its user has none that can be exchanged now. -/
def Directory.quiet (s : Directory) (now : ℕ) (h : TokenHash) : Bool :=
  (s.refreshTokens.lookup h).all fun t => !t.exchanged ||
    s.refreshTokens.entries.all fun x => x.2.userId ≠ t.userId || !x.2.live now

/-- The action is no replay, or a quiet one. -/
def SessionAct.quiet {β : Type} (s : Directory) (now : ℕ) : SessionAct β → Bool
  | refresh h => s.quiet now h
  | _ => true

/-- A token is replayed only while its user has no other that can be exchanged. -/
def quietReplays : Guard SessionAct SessionEnv Directory SessionCall Reply :=
  ⟨fun _ _ => True, fun P _ _ a e => a.quiet P.shared e.now = true⟩

section

variable {cfg : IdentitySettings} {e : SessionEnv} {s s' s'' s₀ : Directory} {out : Outcome}
  {u v : UserId} {h : TokenHash} {log : Log SessionAct} {t t' : RefreshToken}
  {P : Pool SessionAct Directory SessionCall Reply}

/-! ### One step -/

/-- The token later on: it may have been used. -/
structure RefreshToken.Later (t t' : RefreshToken) : Prop where
  /-- Whose it is stays. -/
  userId : t'.userId = t.userId
  /-- When it expires stays. -/
  expiresAt : t'.expiresAt = t.expiresAt
  used : t.usedAt.isSome = true → t'.usedAt.isSome = true
  exchanged : t.exchanged = true → t'.exchanged = true

theorem RefreshToken.Later.refl : t.Later t := ⟨rfl, rfl, id, id⟩

theorem RefreshToken.Later.dead (hl : t.Later t') {now now' : ℕ} (hn : now ≤ now')
    (hd : t.live now = false) : t'.live now' = false := by
  simp only [live, Bool.and_eq_false_iff, Option.isNone_eq_false_iff, decide_eq_false_iff_not,
    not_lt] at hd ⊢
  obtain hused | hexpired := hd
  · exact .inl (hl.used hused)
  · exact .inr (hl.expiresAt ▸ hexpired.trans hn)

/-- No token is lost. -/
structure Directory.Keeps (s s' : Directory) : Prop where
  clock : s.clock ≤ s'.clock
  /-- Every token is still there. -/
  tokens : ∀ h t, s.refreshTokens.lookup h = some t →
    ∃ t', s'.refreshTokens.lookup h = some t' ∧ t.Later t'

theorem Directory.Keeps.of_tokens (hc : s.clock ≤ s'.clock)
    (hs : s'.refreshTokens = s.refreshTokens) : s.Keeps s' :=
  ⟨hc, fun _ t ht => ⟨t, hs ▸ ht, .refl⟩⟩

theorem Directory.Keeps.trans (h₁ : s.Keeps s') (h₂ : s'.Keeps s'') : s.Keeps s'' := by
  refine ⟨h₁.clock.trans h₂.clock, fun h t ht => ?_⟩
  obtain ⟨t₁, ht₁, hl₁⟩ := h₁.tokens h t ht
  obtain ⟨t₂, ht₂, hl₂⟩ := h₂.tokens h t₁ ht₁
  exact ⟨t₂, ht₂, hl₂.userId.trans hl₁.userId, hl₂.expiresAt.trans hl₁.expiresAt,
    fun hu => hl₂.used (hl₁.used hu), fun hx => hl₂.exchanged (hl₁.exchanged hx)⟩

theorem Directory.keeps_use {r : Option TokenHash} (ht : s.refreshTokens.lookup h = some t)
    (hu : t.usedAt = none) :
    s.Keeps { s with
      refreshTokens := s.refreshTokens.insert h { t with usedAt := some s.clock, replacedBy := r } } := by
  refine ⟨le_rfl, fun h' t' ht' => ?_⟩
  dsimp only
  rw [Table.lookup_insert]
  split_ifs with hh
  · obtain rfl := Option.some.inj (ht'.symm.trans (hh ▸ ht))
    refine ⟨_, rfl, rfl, rfl, fun _ => rfl, fun hx => ?_⟩
    rw [RefreshToken.exchanged, hu] at hx
    exact absurd hx (by simp)
  · exact ⟨t', ht', .refl⟩

theorem Directory.keeps_insertRefreshToken {x : ℕ} (hi : s.insertRefreshToken h u x = some s') :
    s.Keeps s' := by
  obtain ⟨hnone, -, rfl⟩ := insertRefreshToken_eq_some.1 hi
  refine ⟨le_rfl, fun h' t' ht' => ⟨t', ?_, .refl⟩⟩
  rw [Table.lookup_insert, if_neg]
  · exact ht'
  · rintro rfl
    exact absurd (hnone.symm.trans ht') (by simp)

theorem Directory.lookup_insertRefreshToken {x : ℕ} (hi : s.insertRefreshToken h u x = some s') :
    s'.refreshTokens.lookup h = some ⟨u, x, none, none⟩ := by
  obtain ⟨-, -, rfl⟩ := insertRefreshToken_eq_some.1 hi
  rw [Table.lookup_insert, if_pos rfl]

/-- What one event does to the tokens. -/
structure TokenStep (s s' : Directory) (x : Event SessionAct) : Prop where
  /-- None is lost. -/
  keeps : s.Keeps s'
  /-- One that is issued is there. -/
  issues : ∀ h u, issuedBy x = some (h, u) → ∃ t, s'.refreshTokens.lookup h = some t ∧ t.userId = u
  /-- One that is exchanged could be, and was. -/
  exchanges : ∀ h u, exchangedBy x = some (h, u) →
    (∃ t, s.refreshTokens.lookup h = some t ∧ t.userId = u ∧ t.live s'.clock = true) ∧
      ∃ t, s'.refreshTokens.lookup h = some t ∧ t.userId = u ∧ t.exchanged = true

theorem TokenStep.of_keeps {x : Event SessionAct} (hk : s.Keeps s') (hi : issuedBy x = none)
    (hx : exchangedBy x = none) : TokenStep s s' x :=
  ⟨hk, fun _ _ h => absurd (hi.symm.trans h) (by simp), fun _ _ h => absurd (hx.symm.trans h) (by simp)⟩

theorem Directory.settled_eq {d : DirEnv} {tx : Tx} {r : Except RequestFailure Outcome}
    (hs : s.settled d tx = (s', r)) :
    (s' = s ∧ ∃ err, r = .error err) ∨ ∃ out, tx = .ok (s', out) ∧ r = .ok out := by
  unfold settled at hs
  split_ifs at hs
  · obtain ⟨rfl, rfl⟩ := Prod.mk.inj hs
    exact .inl ⟨rfl, _, rfl⟩
  · cases tx with
    | error err =>
      obtain ⟨rfl, rfl⟩ := Prod.mk.inj hs
      exact .inl ⟨rfl, _, rfl⟩
    | ok x =>
      obtain ⟨rfl, rfl⟩ := Prod.mk.inj hs
      exact .inr ⟨_, rfl, rfl⟩

theorem Directory.login_ok {d : DirEnv} {r : UserRecord} (hx : s.login cfg d r = .ok (s', out)) :
    s.insertRefreshToken d.secret r.userId (s.clock + cfg.refreshTokenTtlS) = some s' ∧
      out = .session r.userId r.level d.secret := by
  obtain ⟨s₁, h₁, hx⟩ := bind_eq_ok.1 hx
  obtain ⟨rfl, rfl⟩ := Prod.mk.inj (Except.ok.inj hx)
  exact ⟨orRaise_eq_ok.1 h₁, rfl⟩

theorem Directory.tokenStep_login {d : DirEnv} {r : UserRecord} {b : Except RequestFailure Outcome}
    (hs : s.settled d (s.login cfg d r) = (s', b)) : TokenStep s s' ⟨.login r, b⟩ := by
  obtain ⟨rfl, err, rfl⟩ | ⟨out, hx, rfl⟩ := settled_eq hs
  · exact .of_keeps (.of_tokens le_rfl rfl) rfl rfl
  · obtain ⟨hi, rfl⟩ := login_ok hx
    refine ⟨keeps_insertRefreshToken hi, fun h u hh => ?_, fun h u hh => absurd hh (by simp [exchangedBy])⟩
    obtain ⟨rfl, rfl⟩ := Prod.mk.inj (Option.some.inj hh)
    exact ⟨_, lookup_insertRefreshToken hi, rfl⟩

theorem Directory.tokenStep_refresh {d : DirEnv} {b : Except RequestFailure Outcome}
    (hs : s.settled d (s.refresh cfg d h) = (s', b)) : TokenStep s s' ⟨.refresh h, b⟩ := by
  obtain ⟨rfl, err, rfl⟩ | ⟨out, hx, rfl⟩ := settled_eq hs
  · exact .of_keeps (.of_tokens le_rfl rfl) rfl rfl
  · obtain ⟨t, r, s₁, ht, hlive, -, rfl, rfl, hi⟩ := refresh_ok hx
    have hunused : t.usedAt = none := by
      rw [RefreshToken.live, Bool.and_eq_true] at hlive
      exact Option.isNone_iff_eq_none.1 hlive.1
    have hused := keeps_use (r := some d.secret) ht hunused
    have hinsert := keeps_insertRefreshToken hi
    refine ⟨hused.trans hinsert, fun h' u hh => ?_, fun h' u hh => ?_⟩
    · obtain ⟨rfl, rfl⟩ := Prod.mk.inj (Option.some.inj hh)
      exact ⟨_, lookup_insertRefreshToken hi, rfl⟩
    · obtain ⟨rfl, rfl⟩ := Prod.mk.inj (Option.some.inj hh)
      obtain ⟨-, -, rfl⟩ := insertRefreshToken_eq_some.1 hi
      refine ⟨⟨t, ht, rfl, hlive⟩, ?_⟩
      obtain ⟨t', ht', hl⟩ := hinsert.tokens h _ (by rw [Table.lookup_insert, if_pos rfl])
      exact ⟨t', ht', hl.userId, hl.exchanged rfl⟩

theorem Directory.revokeRefreshToken_keeps : s.Keeps (s.revokeRefreshToken h).1 := by
  unfold revokeRefreshToken
  cases ht : (s.refreshTokens.lookup h).filter fun t => t.usedAt.isNone with
  | none => exact .of_tokens le_rfl rfl
  | some t =>
    obtain ⟨ht, hunused⟩ := Option.filter_eq_some_iff.1 ht
    exact keeps_use ht (Option.isNone_iff_eq_none.1 hunused)

theorem TokenStep.of_tick {x : Event SessionAct} {n : ℕ} (hn : s.clock ≤ n)
    (h : TokenStep { s with clock := n } s' x) : TokenStep s s' x := by
  have htick : s.Keeps { s with clock := n } := .of_tokens hn rfl
  exact ⟨htick.trans h.keeps, h.issues, h.exchanges⟩

theorem SessionAct.perform_tokens {β : Type} {a : SessionAct β} {b : β}
    (hp : a.perform cfg e s = (s', b)) : TokenStep s s' ⟨a, b⟩ := by
  cases a with
  | login r => exact Directory.tokenStep_login hp
  | refresh h => exact Directory.tokenStep_refresh hp
  | revokeRefreshToken h =>
    obtain rfl : (s.revokeRefreshToken h).1 = s' := congrArg Prod.fst hp
    exact .of_keeps Directory.revokeRefreshToken_keeps rfl rfl
  | _ =>
    obtain ⟨rfl, -⟩ := Prod.mk.inj hp
    exact .of_keeps (.of_tokens le_rfl rfl) rfl rfl

theorem SessionAct.perform_clock {β : Type} {a : SessionAct β} {b : β}
    (hp : a.perform cfg e s = (s', b)) : s'.clock = s.clock := by
  cases a with
  | login r =>
    obtain ⟨rfl, -⟩ | ⟨out, hx, -⟩ := Directory.settled_eq hp
    · rfl
    · obtain ⟨-, -, rfl⟩ := Directory.insertRefreshToken_eq_some.1 (Directory.login_ok hx).1
      rfl
  | refresh h =>
    obtain ⟨rfl, -⟩ | ⟨out, hx, -⟩ := Directory.settled_eq hp
    · rfl
    · obtain ⟨t, r, s₁, -, -, -, -, rfl, hi⟩ := Directory.refresh_ok hx
      obtain ⟨-, -, rfl⟩ := Directory.insertRefreshToken_eq_some.1 hi
      rfl
  | revokeRefreshToken h =>
    obtain rfl : (s.revokeRefreshToken h).1 = s' := congrArg Prod.fst hp
    unfold Directory.revokeRefreshToken
    split <;> rfl
  | _ =>
    obtain ⟨rfl, -⟩ := Prod.mk.inj hp
    rfl

/-- **What one action does to the tokens**, when it is performed at this time. -/
theorem SessionAct.exec_tokens {β : Type} {a : SessionAct β} {b : β}
    (he : a.exec cfg e s = some (s', b)) :
    s.clock ≤ e.now ∧ s'.clock = e.now ∧ TokenStep s s' ⟨a, b⟩ := by
  obtain ⟨hn, hp⟩ := Option.ite_none_right_eq_some.1 he
  have hp := Option.some.inj hp
  exact ⟨hn, perform_clock hp, (perform_tokens hp).of_tick hn⟩

/-! ### A whole run -/

theorem issuedTo_snoc {i : ℕ} {x : Event SessionAct} :
    IssuedTo s₀ (log ++ [(i, x)]) u h ↔ IssuedTo s₀ log u h ∨ issuedBy x = some (h, u) := by
  simp only [IssuedTo, List.mem_append, List.mem_singleton, or_and_right, exists_or, or_assoc,
    exists_eq_left]

theorem exchangedFor_snoc {i : ℕ} {x : Event SessionAct} :
    ExchangedFor s₀ (log ++ [(i, x)]) u h ↔ ExchangedFor s₀ log u h ∨ exchangedBy x = some (h, u) := by
  simp only [ExchangedFor, List.mem_append, List.mem_singleton, or_and_right, exists_or, or_assoc,
    exists_eq_left]

/-- What the table tells about the past. -/
structure FamilyKept (s₀ s : Directory) (log : Log SessionAct) : Prop where
  /-- Every token issued is there. -/
  issued : ∀ u h, IssuedTo s₀ log u h → ∃ t, s.refreshTokens.lookup h = some t ∧ t.userId = u
  /-- Every token exchanged is marked so. -/
  exchanged : ∀ u h, ExchangedFor s₀ log u h →
    ∃ t, s.refreshTokens.lookup h = some t ∧ t.userId = u ∧ t.exchanged = true
  /-- None was exchanged twice. -/
  once : ∀ h, (log.countP fun x => (exchangedBy x.2).any fun p => p.1 = h) ≤ 1

theorem FamilyKept.init (s₀ : Directory) : FamilyKept s₀ s₀ [] where
  issued u h hi := hi.resolve_right (by simp)
  exchanged u h hi := hi.resolve_right (by simp)
  once h := by simp

theorem RefreshToken.not_live_of_exchanged {now : ℕ} (hx : t.exchanged = true) :
    t.live now = false := by
  rw [exchanged, Bool.and_eq_true] at hx
  rw [live, Option.isNone_eq_false_iff.2 hx.1, Bool.false_and]

theorem FamilyKept.step {i : ℕ} {x : Event SessionAct} (hk : FamilyKept s₀ s log)
    (hs : TokenStep s s' x) : FamilyKept s₀ s' (log ++ [(i, x)]) := by
  refine ⟨fun u h hi => ?_, fun u h hi => ?_, fun h => ?_⟩
  · obtain hi | hi := issuedTo_snoc.1 hi
    · obtain ⟨t, ht, hu⟩ := hk.issued u h hi
      obtain ⟨t', ht', hl⟩ := hs.keeps.tokens h t ht
      exact ⟨t', ht', hl.userId.trans hu⟩
    · exact hs.issues h u hi
  · obtain hi | hi := exchangedFor_snoc.1 hi
    · obtain ⟨t, ht, hu, hx⟩ := hk.exchanged u h hi
      obtain ⟨t', ht', hl⟩ := hs.keeps.tokens h t ht
      exact ⟨t', ht', hl.userId.trans hu, hl.exchanged hx⟩
    · exact (hs.exchanges h u hi).2
  · rw [List.countP_append, List.countP_singleton]
    split_ifs with hx
    · -- a token that is exchanged now was never exchanged before
      obtain ⟨⟨h', u⟩, hp, hh⟩ := Option.any_eq_true _ _ |>.1 hx
      obtain rfl : h' = h := of_decide_eq_true hh
      obtain ⟨⟨t, ht, -, hlive⟩, -⟩ := hs.exchanges h' u hp
      have hzero : (log.countP fun x => (exchangedBy x.2).any fun p => p.1 = h') = 0 := by
        refine List.countP_eq_zero.2 fun y hy hany => ?_
        obtain ⟨⟨h'', v⟩, hv, hh⟩ := Option.any_eq_true _ _ |>.1 hany
        obtain rfl : h'' = h' := of_decide_eq_true hh
        obtain ⟨t', ht', -, hx'⟩ := hk.exchanged v h'' (.inr ⟨y, hy, hv⟩)
        obtain rfl := Option.some.inj (ht.symm.trans ht')
        exact absurd (hlive.symm.trans (RefreshToken.not_live_of_exchanged hx')) (by simp)
      rw [hzero]
    · exact hk.once h

/-- **A token is exchanged at most once**, in every run. -/
theorem exchanged_once (hr : Run (signing cfg) .free (.init s₀) P) : FamilyKept s₀ P.shared P.log :=
  hr.guarded (.init s₀) fun hk _ he => hk.step (SessionAct.exec_tokens he).2.2

/-- Every replay so far has found the user's tokens dead, and they are. -/
def FamilyDead (s₀ s : Directory) (log : Log SessionAct) : Prop :=
  ∀ l₁ x l₂ h u, log = l₁ ++ x :: l₂ → presentedBy x.2 = some h → ExchangedFor s₀ l₁ u h →
    ∀ h', IssuedTo s₀ l₁ u h' → (∀ y ∈ l₂, ∀ v, exchangedBy y.2 ≠ some (h', v)) ∧
      ∃ t, s.refreshTokens.lookup h' = some t ∧ t.live s.clock = false

/-- At a quiet replay the user has no token that can be exchanged. -/
theorem Directory.dead_of_quiet {now : ℕ} (hq : s.quiet now h = true)
    (ht : s.refreshTokens.lookup h = some t) (hx : t.exchanged = true) {h' : TokenHash}
    (ht' : s.refreshTokens.lookup h' = some t') (hu : t'.userId = t.userId) :
    t'.live now = false := by
  rw [quiet, ht, Option.all_some, hx, Bool.not_true, Bool.false_or, List.all_eq_true] at hq
  have hrow := hq ⟨h', t'⟩ (AList.mem_lookup_iff.1 ht')
  simpa [hu] using hrow

theorem FamilyDead.step {i : ℕ} {β : Type} {a : SessionAct β} {b : β} (hk : FamilyKept s₀ s log)
    (hd : FamilyDead s₀ s log) (hq : a.quiet s e.now = true)
    (he : a.exec cfg e s = some (s', b)) : FamilyDead s₀ s' (log ++ [(i, ⟨a, b⟩)]) := by
  obtain ⟨hn, hclock, hs⟩ := SessionAct.exec_tokens he
  intro l₁ x l₂ h u hl hp hx h' hi
  obtain rfl | ⟨l₂, z, rfl⟩ := l₂.eq_nil_or_concat
  · -- the event itself is the replay
    obtain ⟨rfl, hxs⟩ := List.append_inj' hl rfl
    obtain rfl := (List.cons.inj hxs).1
    obtain ⟨t, ht, hu, hxt⟩ := hk.exchanged u h hx
    obtain ⟨t', ht', hu'⟩ := hk.issued u h' hi
    have hquiet : s.quiet e.now h = true := by
      cases a <;> cases hp
      exact hq
    have hdead := Directory.dead_of_quiet hquiet ht hxt ht' (hu'.trans hu.symm)
    obtain ⟨t'', ht'', hl⟩ := hs.keeps.tokens h' t' ht'
    exact ⟨by simp, t'', ht'', hl.dead (le_of_eq hclock.symm) hdead⟩
  · -- the replay was before: the token is dead and stays so
    rw [List.concat_eq_append, ← List.cons_append, ← List.append_assoc] at hl
    obtain ⟨hlog, hz⟩ := List.append_inj' hl rfl
    obtain rfl := (List.cons.inj hz).1
    obtain ⟨hno, t, ht, hdead⟩ := hd l₁ x l₂ h u hlog hp hx h' hi
    have hdead' : t.live s'.clock = false := RefreshToken.Later.refl.dead (hclock ▸ hn) hdead
    refine ⟨fun y hy v hv => ?_, ?_⟩
    · rw [List.concat_eq_append, List.mem_append, List.mem_singleton] at hy
      obtain hy | rfl := hy
      · exact hno y hy v hv
      · obtain ⟨⟨t', ht', -, hlive⟩, -⟩ := hs.exchanges h' v hv
        obtain rfl := Option.some.inj (ht.symm.trans ht')
        exact absurd (hlive.symm.trans hdead') (by simp)
    · obtain ⟨t', ht', hl⟩ := hs.keeps.tokens h' t ht
      exact ⟨t', ht', hl.dead le_rfl hdead'⟩

/-- **Where every replay is quiet**, every token is exchanged at most once and after a replay no token
that the user had is accepted. -/
theorem family_invalidated (cfg : IdentitySettings)
    {P : Pool SessionAct Directory SessionCall Reply}
    (hr : Run (signing cfg) quietReplays (.init s₀) P) : FamilyInvalidated s₀ P.log := by
  have hinv : FamilyKept s₀ P.shared P.log ∧ FamilyDead s₀ P.shared P.log := by
    refine hr.guarded (I := fun s log => FamilyKept s₀ s log ∧ FamilyDead s₀ s log)
      ⟨.init s₀, fun l₁ x l₂ h u hl => ?_⟩ fun hk hq he =>
        ⟨hk.1.step (SessionAct.exec_tokens he).2.2, hk.2.step hk.1 hq he⟩
    exact absurd hl.symm (List.append_ne_nil_of_right_ne_nil l₁ (List.cons_ne_nil x l₂))
  exact ⟨hinv.1.once, fun l₁ x l₂ h u hl hp hx h' hi =>
    (hinv.2 l₁ x l₂ h u hl hp hx h' hi).1⟩

end

/-! ### A replay to run -/

namespace Sample

/-- A directory with one user, who signs in with a password. -/
def passwordUser : Directory where
  users := AList.insert "ada"
    { userId := "ada"
      level := "tier0"
      email := some "ada@example.org"
      authKind := .password
      authSecretHash := some "hash" } ∅

/-- A user signs in and the token is exchanged. -/
def firstExchange : List (Move SessionEnv SessionCall) :=
  .start (.login "ada@example.org" "secret") :: List.replicate 5 (.step 0 { secret := "t1" }) ++
    .start (.refresh "t1") :: List.replicate 2 (.step 1 { secret := "t2" })

/-- The token is presented again, and then the one it was exchanged for. -/
def replayed : List (Move SessionEnv SessionCall) :=
  firstExchange ++ .start (.refresh "t1") :: List.replicate 2 (.step 2 { secret := "t3" }) ++
    .start (.refresh "t2") :: List.replicate 2 (.step 3 { secret := "t4" })

/-- The same, after a logout has revoked the second token. -/
def quietlyReplayed : List (Move SessionEnv SessionCall) :=
  firstExchange ++ .start (.logout "j1" (some "t2")) :: List.replicate 2 (.step 2 {}) ++
    .start (.refresh "t1") :: List.replicate 2 (.step 3 { secret := "t3" }) ++
    .start (.refresh "t2") :: List.replicate 2 (.step 4 { secret := "t4" })

/-- What was issued and exchanged by the first seven events, what the ninth presented, and what was
exchanged afterwards. -/
def replayReading (P : Pool SessionAct Directory SessionCall Reply) :
    List (TokenHash × UserId) × List (TokenHash × UserId) × Option TokenHash ×
      List (TokenHash × UserId) :=
  ((P.log.take 8).filterMap fun x => issuedBy x.2, (P.log.take 8).filterMap fun x => exchangedBy x.2,
    P.log[8]?.bind fun x => presentedBy x.2, (P.log.drop 9).filterMap fun x => exchangedBy x.2)

end Sample

theorem exchanged_once_twice_presented : ∃ P, Run (signing {}) .free (.init Sample.passwordUser) P ∧
    (P.log.filterMap fun x => presentedBy x.2) = ["t1", "t1", "t2"] ∧
    FamilyKept Sample.passwordUser P.shared P.log := by
  have hplay : ((signing {}).run (fun _ _ _ _ _ => true) (.init Sample.passwordUser)
      Sample.replayed).map (fun P => P.log.filterMap fun x => presentedBy x.2) =
      some ["t1", "t1", "t2"] := by
    decide +kernel
  obtain ⟨P, hP, hread⟩ := Option.map_eq_some_iff.1 hplay
  have hrun : Run (signing {}) .free (.init Sample.passwordUser) P :=
    Run.of_run (fun _ _ => trivial) (fun _ _ _ _ _ _ => trivial) hP
  exact ⟨P, hrun, hread, exchanged_once hrun⟩

/-- The 401 undoes the deletion it reports, so the token of the first exchange is accepted after the
replay. -/
theorem family_survives : ¬ ∀ (cfg : IdentitySettings) (s₀ : Directory)
    (P : Pool SessionAct Directory SessionCall Reply),
    Run (signing cfg) .free (.init s₀) P → FamilyInvalidated s₀ P.log := by
  intro hall
  have hplay : (((signing {}).run (fun _ _ _ _ _ => true) (.init Sample.passwordUser)
      Sample.replayed).map Sample.replayReading) =
      some ([("t1", "ada"), ("t2", "ada")], [("t1", "ada")], some "t1", [("t2", "ada")]) := by
    decide +kernel
  obtain ⟨P, hP, hread⟩ := Option.map_eq_some_iff.1 hplay
  obtain ⟨hissued, hread⟩ := Prod.mk.inj hread
  obtain ⟨hexchanged, hread⟩ := Prod.mk.inj hread
  obtain ⟨hpresented, hafter⟩ := Prod.mk.inj hread
  have hinv := hall {} Sample.passwordUser P
    (Run.of_run (fun _ _ => trivial) (fun _ _ _ _ _ _ => trivial) hP)
  obtain ⟨x, hx, hpx⟩ := Option.bind_eq_some_iff.1 hpresented
  have hlog : P.log = P.log.take 8 ++ x :: P.log.drop 9 := by
    have hsplit := List.take_append_drop 8 P.log
    rw [List.drop_eq_getElem?_toList_append, hx] at hsplit
    exact hsplit.symm
  have hmem : ∀ (l : Log SessionAct) (f : Event SessionAct → Option (TokenHash × UserId)) p,
      p ∈ l.filterMap (fun x => f x.2) → ∃ y ∈ l, f y.2 = some p :=
    fun l f p hp => List.mem_filterMap.1 hp
  have hx₁ := hmem (P.log.take 8) exchangedBy ("t1", "ada") (by rw [hexchanged]; simp)
  have hi₂ := hmem (P.log.take 8) issuedBy ("t2", "ada") (by rw [hissued]; simp)
  obtain ⟨y, hy, hy₂⟩ := hmem (P.log.drop 9) exchangedBy ("t2", "ada") (by rw [hafter]; simp)
  exact hinv.dead _ x _ "t1" "ada" hlog hpx (.inr hx₁) "t2" (.inr hi₂) y hy "ada" hy₂

/-- The exchanged token is presented again after logout has revoked the other one: the replay is
quiet. -/
theorem family_invalidated_logout : ∃ P, Run (signing {}) quietReplays (.init Sample.passwordUser) P ∧
    (P.log.filterMap fun x => presentedBy x.2) = ["t1", "t1", "t2"] ∧
    FamilyInvalidated Sample.passwordUser P.log := by
  have hplay : (((signing {}).run (fun P _ _ a e => a.quiet P.shared e.now)
      (.init Sample.passwordUser) Sample.quietlyReplayed).map fun P =>
        P.log.filterMap fun x => presentedBy x.2) = some ["t1", "t1", "t2"] := by
    decide +kernel
  obtain ⟨P, hP, hread⟩ := Option.map_eq_some_iff.1 hplay
  have hrun : Run (signing {}) quietReplays (.init Sample.passwordUser) P :=
    Run.of_run (fun _ _ => trivial) (fun _ _ _ _ _ hc => hc) hP
  exact ⟨P, hrun, hread, family_invalidated {} hrun⟩

end Backplane
