import Backplane.Identity.Rejection
import Backplane.Suite.FactGraph

/-!
# Signing in through the OpenID provider

A validated ID token is resolved to the user its subject is linked to, else to the owner of the address
that the issuer has verified, else to a new user.  Whether the address is verified is read as Python
reads any value: the string "false" counts as true.

* `resolveOrProvisionOidcUser` : the three stages.
* `OidcSound` : nobody is handed an account that is not theirs.
* `Misjudged` : an address that is not asserted to be verified decides.
* `oidc_resolution_sound_iff` : resolution is sound, exactly when none does.
-/

namespace Backplane

open Rollback
open Memory (Object field fieldOrNil)

/-- How the ID token was resolved. -/
inductive OidcOutcome
  | login | linkedEmail | provisioned
  deriving DecidableEq, Repr

/-- What signing in is configured with. -/
structure OidcPolicy where
  groupClaim : String := "groups"
  allowedGroups : List String := []
  /-- `oidc_group_to_level`, in its order -/
  groupToLevel : List (String × String) := []
  defaultLevel : String := "tier1"
  autoLinkByVerifiedEmail : Bool := false
  jitProvisioning : Bool := true
  /-- `str`, of any value -/
  text : Memory.Json → String := fun _ => ""

namespace OidcPolicy

variable (policy : OidcPolicy) (claims : Object)

/-- The groups that the user carries; a single one may come by itself. -/
def groups : List String :=
  match fieldOrNil claims policy.groupClaim with
  | .arr gs => gs.map policy.text
  | g => [policy.text g]

/-- The group gate lets the user in. -/
def admits : Bool :=
  policy.allowedGroups.isEmpty || (policy.groups claims).any (· ∈ policy.allowedGroups)

/-- `_level_from_groups` -/
def levelFromGroups : String :=
  ((policy.groupToLevel.find? fun m => m.1 ∈ policy.groups claims).map Prod.snd).getD
    policy.defaultLevel

end OidcPolicy

/-- `email and email_verified` -/
def vouched (claims : Object) : Bool :=
  (field claims "email").truthy && (field claims "email_verified").truthy

/-- An account that may be linked by its address. -/
def UserRecord.isLinkable (r : UserRecord) : Bool := r.isActive && !privileged r.level

namespace Accounts

/-- A value as the text of a statement; `none`: the statement raises. -/
def asText : Memory.Json → Option (Option String)
  | .null => some none
  | .str x => if '\x00' ∈ x.toList then none else some (some x)
  | _ => none

/-- `get_user_by_oidc_sub` -/
def getUserByOidcSub (s : Accounts) (issuer sub : String) : Option UserRecord :=
  (s.identities.lookup (issuer, sub)).bind fun i => s.users.lookup i.userId

/-- `get_user_by_email`, where it is asked, of any value -/
def ownerOf (asked : Bool) (email : Memory.Json) : Stmt (Option UserRecord) := do
  if !asked then return none
  match asText email with
  | none => throw .raised
  | some x => return x.bind (← get).getUserByEmail

/-- `_link_or_conflict`, with any value for the address -/
def linkClaimed (issuer sub : String) (u : UserId) (email : Memory.Json) : Stmt Unit :=
  match asText email with
  | none => throw (.http 409)
  | some x => linkOrConflict issuer sub u x

variable (policy : OidcPolicy) (e : AuthEnv) (issuer : String) (claims : Object)

/-- The last stage: a new user, with the address if it is verified and free. -/
def provisionOidcUser (sub : String) : Stmt (UserRecord × OidcOutcome) := do
  if !policy.jitProvisioning then throw (.http 403)
  let email := field claims "email"
  let owner ← ownerOf (vouched claims) email
  let r : UserRecord := {
    userId := e.secret
    level := policy.levelFromGroups claims
    email := if vouched claims && owner.isNone then (asText email).join else none
    authKind := .oidc }
  tryDirectory fun d => orRaise (d.insertUser r)
  linkClaimed issuer sub r.userId email
  return (r, .provisioned)

/-- The stages of a subject that is not linked yet. -/
def admitOidcUser (sub : String) : Stmt (UserRecord × OidcOutcome) := do
  if !policy.admits claims then throw (.http 403)
  let email := field claims "email"
  let owner ← ownerOf (policy.autoLinkByVerifiedEmail && vouched claims) email
  match owner.filter UserRecord.isLinkable with
  | some r =>
    linkClaimed issuer sub r.userId email
    return (r, .linkedEmail)
  | none => provisionOidcUser policy e issuer claims sub

/-- `_resolve_or_provision_oidc_user` -/
def resolveOrProvisionOidcUser : Stmt (UserRecord × OidcOutcome) := do
  match asText (field claims "sub") with
  | some (some sub) =>
    match (← get).getUserByOidcSub issuer sub with
    | some r =>
      if !r.isActive then throw (.http 403)
      return (r, .login)
    | none => admitOidcUser policy e issuer claims sub
  -- A validated token has a subject; one that is no text fails in the first statement.
  | _ => throw .raised

/-- What the primary key and the foreign key enforce. -/
structure Keyed (s : Accounts) : Prop where
  /-- A user is stored under their id. -/
  users : ∀ k r, s.users.lookup k = some r → r.userId = k
  /-- An identity is that of a user. -/
  identities : ∀ k i, s.identities.lookup k = some i → s.users.lookup i.userId ≠ none

end Accounts

/-! ### What it has to meet -/

/-- The issuer asserts that the address is verified. -/
def assertsVerified (claims : Object) : Prop :=
  field claims "email_verified" = .bool true ∨ field claims "email_verified" = .str "true"

/-- The issuer marks the address as unverified. -/
def marksUnverified (claims : Object) : Prop :=
  field claims "email_verified" = .bool false ∨ field claims "email_verified" = .str "false"

section

variable (policy : OidcPolicy) (e : AuthEnv) (issuer : String) (claims : Object) (s : Accounts)

/-- The user `r` that the ID token was resolved to, in the tables `s'` it leaves. -/
structure OidcSound (r : UserRecord) (s' : Accounts) : Prop where
  /-- Linked to the subject, or new, or the owner of a verified address. -/
  user : (∃ sub, field claims "sub" = .str sub ∧ s.getUserByOidcSub issuer sub = some r ∧
      r.isActive = true) ∨
    (s.users.lookup r.userId = none ∧ s'.users.lookup r.userId = some r) ∨
    ((∃ k, s.users.lookup k = some r) ∧ r.isActive = true ∧ privileged r.level = false ∧
      (∃ x, field claims "email" = .str x ∧ r.email = some x) ∧ assertsVerified claims)
  /-- By an unverified address no account is linked that was there. -/
  unlinked : marksUnverified claims → ∀ k i, s'.identities.lookup k = some i →
    s.identities.lookup k = some i ∨ s.users.lookup i.userId = none
  /-- No new account has it. -/
  unclaimed : marksUnverified claims → ∀ u r', s'.users.lookup u = some r' →
    s.users.lookup u = none → r'.email = none

/-- An address that is not asserted to be verified decides about a subject that is not linked: it has
an owner who may be linked, or it is free, marked as unverified and goes to a new user. -/
def Misjudged : Prop := ∃ sub x, Accounts.asText (field claims "sub") = some (some sub) ∧
  Accounts.asText (field claims "email") = some (some x) ∧ s.getUserByOidcSub issuer sub = none ∧
  policy.admits claims = true ∧ vouched claims = true ∧ ¬ assertsVerified claims ∧
  (policy.autoLinkByVerifiedEmail = true ∧ (s.getUserByEmail x).any UserRecord.isLinkable = true ∨
    marksUnverified claims ∧ s.getUserByEmail x = none ∧ policy.jitProvisioning = true ∧
      s.users.lookup e.secret = none ∧ levelCheck (policy.levelFromGroups claims) = true)

end

/-! ### What the stages do -/

namespace Accounts

variable {policy : OidcPolicy} {e : AuthEnv} {issuer sub : String} {claims : Object}
  {s s' : Accounts} {r : UserRecord} {o : OidcOutcome} {email : Memory.Json} {u : UserId}
  {owner : Option UserRecord} {α β : Type}

theorem bind_eq_ok {x : Stmt α} {f : α → Stmt β} {b : β} (h : (x >>= f).run s = .ok b s') :
    ∃ a s₁, x.run s = .ok a s₁ ∧ (f a).run s₁ = .ok b s' := by
  rw [EStateM.run_bind] at h
  cases hx : x.run s with
  | error err s₁ => simp [hx] at h
  | ok a s₁ => exact ⟨a, s₁, rfl, by simpa [hx] using h⟩

theorem run_ownerOf {x : String} (h : asText email = some (some x)) :
    (ownerOf true email).run s = .ok (s.getUserByEmail x) s := by
  simp only [ownerOf, h]
  rfl

theorem ownerOf_ok {asked : Bool} (h : (ownerOf asked email).run s = .ok owner s') :
    s' = s ∧ (asked = false ∧ owner = none ∨ asked = true ∧ ∃ x, asText email = some x ∧
      owner = x.bind s.getUserByEmail) := by
  cases asked with
  | false =>
    cases h
    exact ⟨rfl, .inl ⟨rfl, rfl⟩⟩
  | true =>
    cases hx : asText email with
    | none =>
      simp only [ownerOf, hx] at h
      cases h
    | some x =>
      simp only [ownerOf, hx] at h
      cases h
      exact ⟨rfl, .inr ⟨rfl, x, rfl, rfl⟩⟩

theorem linkClaimed_ok (h : (linkClaimed issuer sub u email).run s = .ok () s') :
    s'.toDirectory = s.toDirectory ∧ ∃ y : OidcIdentity, y.userId = u ∧
      s'.identities = s.identities.insert (issuer, sub) y := by
  unfold linkClaimed at h
  split at h
  · cases h
  · next x _ =>
    rw [linkOrConflict, run_tryCatch] at h
    cases hl : (linkOidcIdentity issuer sub u x).run s with
    | error err s₁ =>
      rw [hl] at h
      cases h
    | ok a s₁ =>
      rw [hl] at h
      cases h
      simp only [linkOidcIdentity, EStateM.run_bind, EStateM.run_get] at hl
      cases hi : s.identities.lookup (issuer, sub) with
      | none =>
        cases hu : (s.users.lookup u).isNone <;> rw [hi] at hl <;>
          simp only [EStateM.run_bind, EStateM.run_get, hu] at hl <;> cases hl
        exact ⟨rfl, _, rfl, rfl⟩
      | some i =>
        rw [hi] at hl
        by_cases hu : i.userId = u <;> simp only [hu, not_true, not_false_iff, ne_eq] at hl <;>
          cases hl
        exact ⟨rfl, _, rfl, rfl⟩

theorem run_linkClaimed {x : String} (hx : asText email = some (some x))
    (hi : s.identities.lookup (issuer, sub) = none) (hu : s.users.lookup u ≠ none) :
    (linkClaimed issuer sub u email).run s =
      .ok () { s with identities := s.identities.insert (issuer, sub) ⟨u, some x⟩ } := by
  have hu' : (s.users.lookup u).isNone = false :=
    Option.isNone_eq_false_iff.2 (Option.isSome_iff_ne_none.2 hu)
  simp only [linkClaimed, hx, linkOrConflict, run_tryCatch, linkOidcIdentity, EStateM.run_bind,
    EStateM.run_get, hi, hu']
  rfl

/-- A new user has a new id, and an address only if it was vouched for. -/
theorem provisionOidcUser_ok
    (h : (provisionOidcUser policy e issuer claims sub).run s = .ok (r, o) s') :
    policy.jitProvisioning = true ∧ r.userId = e.secret ∧
      levelCheck (policy.levelFromGroups claims) = true ∧ s.users.lookup r.userId = none ∧
      s'.users = s.users.insert r.userId r ∧
      (∃ y : OidcIdentity, y.userId = r.userId ∧
        s'.identities = s.identities.insert (issuer, sub) y) ∧
      ∀ x, r.email = some x → vouched claims = true ∧
        asText (field claims "email") = some (some x) ∧ s.getUserByEmail x = none := by
  cases hjit : policy.jitProvisioning with
  | false =>
    simp only [provisionOidcUser, hjit] at h
    cases h
  | true =>
    simp only [provisionOidcUser, hjit, Bool.not_true, Bool.false_eq_true, if_false] at h
    obtain ⟨owner, s₁, howner, h⟩ := bind_eq_ok h
    obtain ⟨_, s₂, hins, h⟩ := bind_eq_ok h
    obtain ⟨_, s₃, hlink, h⟩ := bind_eq_ok h
    cases h
    obtain ⟨rfl, howner⟩ := ownerOf_ok howner
    rw [run_tryDirectory] at hins
    split at hins
    · next d hd =>
      cases hins
      obtain ⟨hnew, -, hlevel, rfl⟩ := Directory.insertUser_eq_some.1 (Directory.orRaise_eq_ok.1 hd)
      obtain ⟨hdir, hy⟩ := linkClaimed_ok hlink
      refine ⟨rfl, rfl, hlevel, hnew, by rw [hdir], hy, fun x hx => ?_⟩
      obtain ⟨hv, rfl⟩ | ⟨hv, y, htext, rfl⟩ := howner
      · simp [hv] at hx
      · rw [hv, Bool.true_and, htext, Option.join_some, Option.ite_none_right_eq_some,
          Option.isNone_iff_eq_none] at hx
        obtain ⟨hfree, rfl⟩ := hx
        exact ⟨hv, htext, hfree⟩
    · cases hins

/-- Who is admitted owns the address that was vouched for, or is new. -/
theorem admitOidcUser_ok (h : (admitOidcUser policy e issuer claims sub).run s = .ok (r, o) s') :
    policy.admits claims = true ∧
      ((policy.autoLinkByVerifiedEmail = true ∧ vouched claims = true ∧ r.isLinkable = true ∧
        (∃ x, asText (field claims "email") = some (some x) ∧ s.getUserByEmail x = some r) ∧
        s'.users = s.users) ∨
      (provisionOidcUser policy e issuer claims sub).run s = .ok (r, o) s') := by
  cases hadmits : policy.admits claims with
  | false =>
    simp only [admitOidcUser, hadmits] at h
    cases h
  | true =>
    simp only [admitOidcUser, hadmits, Bool.not_true, Bool.false_eq_true, if_false] at h
    obtain ⟨owner, s₁, howner, hrest⟩ := bind_eq_ok h
    obtain ⟨rfl, howner⟩ := ownerOf_ok howner
    refine ⟨rfl, ?_⟩
    cases hr : owner.filter UserRecord.isLinkable with
    | none =>
      rw [hr] at hrest
      exact .inr hrest
    | some r' =>
      rw [hr] at hrest
      obtain ⟨_, s₂, hlink, hret⟩ := bind_eq_ok hrest
      cases hret
      obtain ⟨hr, hlinkable⟩ := Option.filter_eq_some_iff.1 hr
      obtain ⟨-, rfl⟩ | ⟨hask, x, hx, rfl⟩ := howner
      · cases hr
      · rw [Bool.and_eq_true] at hask
        obtain ⟨y, rfl, hy⟩ := Option.bind_eq_some_iff.1 hr
        exact .inl ⟨hask.1, hask.2, hlinkable, ⟨y, hx, hy⟩, by rw [(linkClaimed_ok hlink).1]⟩

theorem resolveOrProvisionOidcUser_ok
    (h : (resolveOrProvisionOidcUser policy e issuer claims).run s = .ok (r, o) s') :
    ∃ sub, asText (field claims "sub") = some (some sub) ∧
      ((s.getUserByOidcSub issuer sub = some r ∧ r.isActive = true ∧ s' = s) ∨
      (s.getUserByOidcSub issuer sub = none ∧
        (admitOidcUser policy e issuer claims sub).run s = .ok (r, o) s')) := by
  unfold resolveOrProvisionOidcUser at h
  split at h
  · next sub hsub =>
    refine ⟨sub, hsub, ?_⟩
    simp only [EStateM.run_bind, EStateM.run_get] at h
    cases hr : s.getUserByOidcSub issuer sub with
    | none =>
      rw [hr] at h
      exact .inr ⟨rfl, h⟩
    | some r' =>
      cases hactive : r'.isActive <;> simp only [hr, hactive] at h <;> cases h
      exact .inl ⟨rfl, hactive, rfl⟩
  · cases h

theorem asText_eq_some {j : Memory.Json} {x : String} (h : asText j = some (some x)) :
    j = .str x := by
  unfold asText at h
  split at h
  · cases h
  · split_ifs at h
    cases h
    rfl
  · cases h

theorem getUserByEmail_eq_some {x : String} (h : s.getUserByEmail x = some r) :
    (∃ k, s.users.lookup k = some r) ∧ r.email = some x := by
  obtain ⟨⟨k, r'⟩, hmem, rfl⟩ := List.mem_map.1 (List.mem_of_mem_head? h)
  obtain ⟨hk, hemail⟩ := Table.mem_select.1 hmem
  exact ⟨⟨k, hk⟩, of_decide_eq_true hemail⟩

theorem identities_eq_none (hs : s.Keyed) (h : s.getUserByOidcSub issuer sub = none) :
    s.identities.lookup (issuer, sub) = none := by
  cases hi : s.identities.lookup (issuer, sub) with
  | none => rfl
  | some i =>
    rw [getUserByOidcSub, hi] at h
    exact absurd h (hs.identities _ i hi)

end Accounts

section

variable {policy : OidcPolicy} {e : AuthEnv} {issuer : String} {claims : Object} {s s' : Accounts}
  {r : UserRecord} {o : OidcOutcome}

theorem not_assertsVerified (h : marksUnverified claims) : ¬ assertsVerified claims := by
  rintro (h' | h') <;> rcases h with h | h <;> simp [h] at h'

open Accounts

/-- Unless an address is misjudged, nobody is handed an account that is not theirs. -/
theorem sound_of_not_misjudged (hm : ¬ Misjudged policy e issuer claims s)
    (h : (resolveOrProvisionOidcUser policy e issuer claims).run s = .ok (r, o) s') :
    OidcSound issuer claims s r s' := by
  obtain ⟨sub, hsub, ⟨hr, hactive, rfl⟩ | ⟨hnone, h⟩⟩ := resolveOrProvisionOidcUser_ok h
  · exact ⟨.inl ⟨sub, asText_eq_some hsub, hr, hactive⟩, fun _ k i hi => .inl hi,
      fun _ u r' hu hu' => absurd (hu'.symm.trans hu) (by simp)⟩
  obtain ⟨hadmits, ⟨hauto, hv, hlinkable, ⟨x, hx, hr⟩, husers⟩ | h⟩ := admitOidcUser_ok h
  · have hasserts : assertsVerified claims := by
      by_contra hasserts
      exact hm ⟨sub, x, hsub, hx, hnone, hadmits, hv, hasserts, .inl ⟨hauto, by simp [hr, hlinkable]⟩⟩
    obtain ⟨hk, hemail⟩ := getUserByEmail_eq_some hr
    rw [UserRecord.isLinkable, Bool.and_eq_true, Bool.not_eq_true'] at hlinkable
    exact ⟨.inr (.inr ⟨hk, hlinkable.1, hlinkable.2, ⟨x, asText_eq_some hx, hemail⟩, hasserts⟩),
      fun hmarks => absurd hasserts (not_assertsVerified hmarks),
      fun hmarks => absurd hasserts (not_assertsVerified hmarks)⟩
  · obtain ⟨hjit, hid, hlevel, hnew, husers, ⟨y, hy, hids⟩, hemail⟩ := provisionOidcUser_ok h
    refine ⟨.inr (.inl ⟨hnew, by rw [husers, AList.lookup_insert]⟩), fun _ k i hi => ?_,
      fun hmarks u r' hu hu' => ?_⟩
    · rw [hids, Table.lookup_insert] at hi
      split_ifs at hi
      · cases hi
        exact .inr (hy ▸ hnew)
      · exact .inl hi
    · rw [husers, Table.lookup_insert] at hu
      split_ifs at hu
      · cases hu
        -- An address that a new user has was vouched for, and free.
        refine Option.eq_none_iff_forall_ne_some.2 fun x hx => ?_
        obtain ⟨hv, htext, hfree⟩ := hemail x hx
        exact hm ⟨sub, x, hsub, htext, hnone, hadmits, hv, not_assertsVerified hmarks,
          .inr ⟨hmarks, hfree, hjit, hid ▸ hnew, hlevel⟩⟩
      · cases hu'.symm.trans hu

/-- By a misjudged address the owner is linked, or a new user gets it. -/
theorem not_sound_of_misjudged (hs : s.Keyed) (hm : Misjudged policy e issuer claims s) :
    ∃ r o s', (resolveOrProvisionOidcUser policy e issuer claims).run s = .ok (r, o) s' ∧
      ¬ OidcSound issuer claims s r s' := by
  obtain ⟨sub, x, hsub, hx, hnone, hadmits, hv, hasserts, hcase⟩ := hm
  have hids := identities_eq_none hs hnone
  have hrun : (resolveOrProvisionOidcUser policy e issuer claims).run s =
      (admitOidcUser policy e issuer claims sub).run s := by
    unfold resolveOrProvisionOidcUser
    rw [hsub]
    simp only [EStateM.run_bind, EStateM.run_get, hnone]
  rw [hrun]
  obtain ⟨hauto, hlinkable⟩ | ⟨hmarks, hfree, hjit, hnew, hlevel⟩ := hcase
  · obtain ⟨r, hr, hlinkable⟩ := (Option.any_eq_true _ _).1 hlinkable
    obtain ⟨⟨k, hk⟩, -⟩ := getUserByEmail_eq_some hr
    have hu : s.users.lookup r.userId ≠ none := by
      rw [hs.users k r hk, hk]
      simp
    refine ⟨r, .linkedEmail,
      { s with identities := s.identities.insert (issuer, sub) ⟨r.userId, some x⟩ }, ?_,
      fun hsound => ?_⟩
    · simp only [admitOidcUser, hadmits, hauto, hv, Bool.not_true, Bool.false_eq_true, if_false,
        Bool.and_self, EStateM.run_bind, run_ownerOf hx, hr, Option.filter_some, hlinkable, if_true,
        run_linkClaimed hx hids hu]
      rfl
    · obtain ⟨sub', hsub', hr', -⟩ | ⟨hnew, -⟩ | ⟨-, -, -, -, hasserts'⟩ := hsound.user
      · obtain rfl : sub = sub' := by simpa [asText_eq_some hsub] using hsub'
        cases hnone.symm.trans hr'
      · exact hu hnew
      · exact hasserts hasserts'
  · let r : UserRecord := {
      userId := e.secret, level := policy.levelFromGroups claims, email := some x, authKind := .oidc }
    let s₁ : Accounts := { s with users := s.users.insert e.secret r }
    have hrow : s.insertUser r = some s₁.toDirectory :=
      Directory.insertUser_eq_some.2 ⟨hnew, by simp [Directory.emailTaken, r, hfree], hlevel, rfl⟩
    have hown : (ownerOf policy.autoLinkByVerifiedEmail (field claims "email")).run s =
        .ok none s := by
      cases policy.autoLinkByVerifiedEmail with
      | false => rfl
      | true => rw [run_ownerOf hx, hfree]
    have hlink := run_linkClaimed (u := e.secret) (s := s₁) hx hids (by simp [s₁])
    refine ⟨r, .provisioned,
      { s₁ with identities := s.identities.insert (issuer, sub) ⟨e.secret, some x⟩ }, ?_,
      fun hsound => ?_⟩
    · simp only [admitOidcUser, hadmits, Bool.not_true, Bool.false_eq_true, if_false, hv,
        Bool.and_true, EStateM.run_bind, hown, Option.filter_none, provisionOidcUser, hjit,
        run_ownerOf hx, hfree, Option.isNone_none, Bool.and_self, if_true, hx, Option.join_some,
        run_tryDirectory]
      rw [show s.toDirectory.insertUser _ = _ from hrow]
      simp only [orRaise]
      rw [hlink]
      rfl
    · have hnone := hsound.unclaimed hmarks e.secret r (by simp [s₁]) hnew
      cases hnone

/-- **OIDC resolution is sound** exactly when no address is misjudged: an address that the issuer has
not asserted to be verified counts as verified where the claim counts as true. -/
theorem oidc_resolution_sound_iff (hs : s.Keyed) :
    (∀ r o s', (resolveOrProvisionOidcUser policy e issuer claims).run s = .ok (r, o) s' →
      OidcSound issuer claims s r s') ↔ ¬ Misjudged policy e issuer claims s := by
  constructor
  · intro hsound hm
    obtain ⟨r, o, s', hrun, hnot⟩ := not_sound_of_misjudged hs hm
    exact hnot (hsound r o s' hrun)
  · exact fun hm r o s' => sound_of_not_misjudged hm

end

namespace Sample

def adaAtHome : UserRecord := { userId := "ada", level := "tier1", email := some "ada@home" }

/-- No sign-in identities yet. -/
def adaOnly : Accounts := { users := AList.insert "ada" adaAtHome ∅ }

/-- Claims with the address. -/
def claimsOf (verified : Memory.Json) : Object :=
  [("sub", .str "248"), ("email", .str "ada@home"), ("email_verified", verified)]

theorem keyed_adaOnly : adaOnly.Keyed where
  users k r h := by
    rw [adaOnly, Table.lookup_insert] at h
    split_ifs at h with hk
    · cases h
      exact hk.symm
    · cases h
  identities k i h := by cases h

end Sample

open Sample Accounts

/-- The issuer asserts the address: its owner is linked. -/
theorem oidc_resolution_sound_asserted : ∃ r o s',
    (resolveOrProvisionOidcUser { autoLinkByVerifiedEmail := true } {} "op"
      (claimsOf (.bool true))).run adaOnly = .ok (r, o) s' ∧
      OidcSound "op" (claimsOf (.bool true)) adaOnly r s' := by
  refine ⟨_, _, _, rfl, (@oidc_resolution_sound_iff { autoLinkByVerifiedEmail := true } {} "op"
    (claimsOf (.bool true)) adaOnly keyed_adaOnly).2 ?_ _ _ _ rfl⟩
  rintro ⟨-, -, -, -, -, -, -, hasserts, -⟩
  exact hasserts (.inl rfl)

/-- The issuer marks the address as unverified with a string: its owner is linked all the same. -/
theorem unverified_address_linked : ¬ ∀ r o s',
    (resolveOrProvisionOidcUser { autoLinkByVerifiedEmail := true } {} "op"
      (claimsOf (.str "false"))).run adaOnly = .ok (r, o) s' →
      OidcSound "op" (claimsOf (.str "false")) adaOnly r s' := by
  intro hsound
  rcases (hsound adaAtHome .linkedEmail _ rfl).unlinked (.inr rfl) ("op", "248") _
    (AList.lookup_insert _) with h | h
  · cases h
  · cases h

end Backplane
