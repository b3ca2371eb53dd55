import Backplane.Identity.Effects

/-!
# What becomes of users and tokens

* `users_ok` : no user vanishes; what becomes of its id and its level.
* `refreshTokens_ok`, `resetTokens_ok` : a live token has just been issued, or it was live before and
  is the same user's.
-/

namespace Backplane

open Directory

/-- The id the user of this id has after a transaction. -/
def Change.follow (s : Directory) (u : UserId) : Change → UserId
  | release a epoch =>
    if u = serviceUserIdForAgent a ∧ (s.agents.lookup a).any (fun r => r.status = .removed) ∧
        (s.users.lookup u).any (fun r => r.level = "service") then tombstoneAgentId u epoch
    else u
  | _ => u

/-- The level the user of this id has after a transaction, if it had this one. -/
def Change.relevel (u : UserId) (level : String) : Change → String
  | updateUser u' (some l) _ => if u = u' then l else level
  | _ => level

/-- The refresh token a transaction issues, and to whom. -/
def Change.issues : Change → Outcome → Option (UserId × TokenHash)
  | createUser req, .user u => req.refreshToken.map (u, ·)
  | mintRefreshToken _ u, .token h => some (u, h)
  | refresh _, .session u _ h | resetPassword _ _, .session u _ h => some (u, h)
  | onboard _ _, .onboarded _ service => service
  | _, _ => none

/-- The password-reset token a transaction issues, and to whom. -/
def Change.issuesReset : Change → Outcome → Option (UserId × TokenHash)
  | mintResetToken _ _ u, .token h | mintLinkToken u, .token h => some (u, h)
  | _, _ => none

section

variable {cfg : IdentitySettings} {e : DirEnv} {s s' : Directory} {out : Outcome} {c : Change}
  {a : AgentId} {u v : UserId} {h : TokenHash}

theorem Change.issues_eq_none (hw : .refreshTokens ∉ c.writes) : c.issues out = none := by
  cases c with
  | createUser _ | mintRefreshToken _ _ | refresh _ | resetPassword _ _ | onboard _ _ =>
    exact absurd (by simp [writes]) hw
  | _ => rfl

theorem Change.issuesReset_eq_none (hw : .resetTokens ∉ c.writes) : c.issuesReset out = none := by
  cases c with
  | mintResetToken _ _ _ | mintLinkToken _ => exact absurd (by simp [writes]) hw
  | _ => rfl

/-- Releasing an id renames the service principal, or leaves users and tokens alone. -/
theorem releaseId_users {epoch : ℕ} (hx : s.releaseId a epoch = .ok (s', out)) :
    (s'.users = s.users ∧ s'.refreshTokens = s.refreshTokens ∧ s'.resetTokens = s.resetTokens ∧
      ∀ u, (Change.release a epoch).follow s u = u) ∨
    ∃ r u', s.users.lookup (serviceUserIdForAgent a) = some r ∧ r.level = "service" ∧
      collides s.users (serviceUserIdForAgent a) u' = false ∧
      s'.users = (s.renameUser (serviceUserIdForAgent a) u' r).users ∧
      s'.refreshTokens = (s.renameUser (serviceUserIdForAgent a) u' r).refreshTokens ∧
      s'.resetTokens = (s.renameUser (serviceUserIdForAgent a) u' r).resetTokens ∧
      ∀ u, (Change.release a epoch).follow s u = if u = serviceUserIdForAgent a then u' else u := by
  obtain ⟨a', u', -, hx⟩ := releaseId_ok hx
  rcases renameEvictedAgent_eq_some hx with ⟨rfl, -, hno⟩ | ⟨r, hr, hrem, -, -, hx⟩
  · refine .inl ⟨rfl, rfl, rfl, fun u => if_neg ?_⟩
    rintro ⟨-, hag, -⟩
    obtain ⟨r, hr, hrem⟩ := Option.any_eq_true _ _ |>.1 hag
    exact hno r hr (by simpa using hrem)
  · rcases hx with ⟨hno, rfl⟩ | ⟨v, r', hv, hr', hl, hcol, rfl⟩
    · refine .inl ⟨rfl, rfl, rfl, fun u => if_neg ?_⟩
      rintro ⟨rfl, -, husr⟩
      obtain ⟨w, hw, hl⟩ := Option.any_eq_true _ _ |>.1 husr
      exact hno _ w (by rw [hw, Option.isSome_some, if_pos rfl]) hw (by simpa using hl)
    · split_ifs at hv
      obtain rfl := Option.some.inj hv
      refine .inr ⟨r', _, hr', hl, hcol, rfl, rfl, rfl, fun u => ?_⟩
      by_cases hu : u = serviceUserIdForAgent a
      · subst hu
        rw [Change.follow, if_pos rfl, if_pos]
        simp [hr, hr', hrem, hl]
      · rw [Change.follow, if_neg hu, if_neg fun h => hu h.1]

/-! ### Users -/

/-- The user is there and has this level. -/
def Directory.HasLevel (s : Directory) (u : UserId) (level : String) : Prop :=
  ∃ r, s.users.lookup u = some r ∧ r.level = level

theorem lookup_updateUserRow {f : UserRecord → UserRecord} {r : UserRecord}
    (hr : s.users.lookup u = some r) :
    (s.updateUserRow v f).users.lookup u = some (if u = v then f r else r) := by
  unfold Directory.updateUserRow
  rw [Table.lookup_update_map, hr, Option.map_some]

namespace Directory.HasLevel

variable {level : String}

theorem updateUserRow (hu : s.HasLevel u level) {f : UserRecord → UserRecord}
    (hf : ∀ r, (f r).level = r.level) : (s.updateUserRow v f).HasLevel u level := by
  obtain ⟨r, hr, rfl⟩ := hu
  refine ⟨_, lookup_updateUserRow hr, ?_⟩
  split_ifs
  · exact hf r
  · rfl

theorem insertUser (hu : s.HasLevel u level) {r : UserRecord} (hx : s.insertUser r = some s') :
    s'.HasLevel u level := by
  obtain ⟨hfree, -, -, rfl⟩ := insertUser_eq_some.1 hx
  obtain ⟨r₀, hr₀, hl⟩ := hu
  refine ⟨r₀, ?_, hl⟩
  have hne : u ≠ r.userId := by
    rintro rfl
    exact absurd (hr₀.symm.trans hfree) (by simp)
  exact (AList.lookup_insert_ne hne).trans hr₀

theorem softDeleteUser (hu : s.HasLevel u level) (hx : s.softDeleteUser v = some s') :
    s'.HasLevel u level := by
  obtain ⟨r, -, rfl | rfl⟩ := softDeleteUser_eq_some hx
  · exact hu
  · obtain ⟨r, hr, hl⟩ := hu.updateUserRow (v := v) (f := fun r => { r with deletedAt := some s.clock })
      fun _ => rfl
    refine ⟨{ r with servicedBy := r.servicedBy.filter (· ≠ v) }, ?_, hl⟩
    show (Table.mapRows _ _).lookup u = _
    rw [Table.lookup_mapRows]
    exact congrArg _ hr

end Directory.HasLevel

/-- **No user vanishes**: this is what becomes of its id and its level. -/
theorem users_ok {level : String} (hu : s.HasLevel u level) (hx : c.apply cfg e s = .ok (s', out)) :
    s'.HasLevel (c.follow s u) (c.relevel u level) := by
  by_cases hw : .users ∈ c.writes
  · cases c with
    | createUser req =>
      obtain ⟨r, s₁, -, hins, -, -, -, hx⟩ := createUser_ok hx
      have hu₁ : s₁.HasLevel u level := hu.insertUser hins
      rcases hx with ⟨-, rfl⟩ | ⟨t, x, -, hx⟩
      · exact hu₁
      · obtain ⟨-, -, rfl⟩ := insertRefreshToken_eq_some.1 hx
        exact hu₁
    | updateUser u' l suspended =>
      obtain ⟨-, -, x, rfl⟩ := updateUser_ok hx
      obtain ⟨r, hr, rfl⟩ := hu
      refine ⟨_, lookup_updateUserRow (u := u) hr, ?_⟩
      cases l <;> by_cases hu : u = u' <;> simp [Change.relevel, hu]
    | grantServicedBy target service =>
      obtain ⟨rfl, -⟩ := Prod.mk.inj (Except.ok.inj hx)
      exact hu.updateUserRow fun r => by split_ifs <;> rfl
    | revokeServicedBy target service =>
      obtain ⟨rfl, -⟩ := Prod.mk.inj (Except.ok.inj hx)
      exact hu.updateUserRow fun _ => rfl
    | deleteUser v purge =>
      rcases deleteUser_ok hx with rfl | ⟨s₁, hs₁, rfl | rfl⟩
      · exact hu
      · exact hu.softDeleteUser hs₁
      · exact (hu.softDeleteUser hs₁).updateUserRow fun _ => rfl
    | approveRegistration id req =>
      obtain ⟨p, r, s₁, t, -, hins, -, -, -, -, rfl⟩ := approveRegistration_ok hx
      have hu₁ : s₁.HasLevel u level := hu.insertUser hins
      exact hu₁
    | resetPassword t hash =>
      obtain ⟨t, r, s₁, -, -, -, -, rfl, hx⟩ := resetPassword_ok hx
      obtain ⟨-, -, rfl⟩ := insertRefreshToken_eq_some.1 hx
      exact HasLevel.updateUserRow (s := s) hu fun _ => rfl
    | linkChannel t service grant =>
      obtain ⟨t, r, s₁, -, -, rfl, ⟨-, rfl⟩ | ⟨-, -, rfl⟩⟩ := linkChannel_ok hx
      · exact hu
      · exact HasLevel.updateUserRow (s := s) hu fun r => by split_ifs <;> rfl
    | onboard a t =>
      obtain ⟨t, -, s₁, hs₁, hx⟩ := onboard_ok hx
      have hu₁ : s₁.HasLevel u level := by
        rcases hs₁ with ⟨-, hins⟩ | ⟨r, -, -, rfl⟩
        · obtain ⟨-, rfl⟩ := insertAgent_eq_some.1 hins
          exact hu
        · exact hu
      rcases hx with ⟨-, rfl⟩ | ⟨-, s₂, x, hsvc, hx⟩
      · exact hu₁
      · obtain ⟨-, -, rfl⟩ := insertRefreshToken_eq_some.1 hx
        rcases provisionServiceUser_ok hsvc with rfl | ⟨r, -, -, -, -, hins⟩
        · exact hu₁
        · have hu₂ : s₂.HasLevel u level := hu₁.insertUser hins
          exact hu₂
    | release a epoch =>
      rcases releaseId_users hx with ⟨hus, -, -, hf⟩ | ⟨r, u', hr, -, hcol, hus, -, -, hf⟩
      · rw [hf, HasLevel, hus]
        exact hu
      · obtain ⟨r₀, hr₀, rfl⟩ := hu
        rw [hf, HasLevel, hus]
        simp only [renameUser, Table.lookup_renamed]
        by_cases hu : u = serviceUserIdForAgent a
        · subst hu
          obtain rfl := Option.some.inj (hr₀.symm.trans hr)
          rw [if_pos rfl, if_pos rfl]
          exact ⟨_, rfl, rfl⟩
        · rw [if_neg hu, if_neg hu, if_neg]
          · exact ⟨r₀, hr₀, rfl⟩
          · rintro rfl
            rcases collides_eq_false.1 hcol with h | h
            · exact hu h
            · exact absurd (hr₀.symm.trans h) (by simp)
    | _ => exact absurd hw (by simp [Change.writes])
  · rw [HasLevel, (Change.frame hx).users hw]
    cases c <;> first | exact hu | exact absurd hw (by simp [Change.writes])

/-! ### Refresh tokens -/

/-- The refresh token can be exchanged, and is this user's. -/
def Directory.HasRefresh (s : Directory) (h : TokenHash) (u : UserId) : Prop :=
  ∃ t, s.refreshTokens.lookup h = some t ∧ t.live s.clock = true ∧ t.userId = u

namespace Directory.HasRefresh

/-- A live token was live earlier. -/
theorem earlier (ht : s'.HasRefresh h u) (hrt : s'.refreshTokens = s.refreshTokens)
    (hclock : s.clock ≤ s'.clock) : s.HasRefresh h u := by
  obtain ⟨t, hl, hlive, rfl⟩ := ht
  refine ⟨t, hrt ▸ hl, ?_, rfl⟩
  rw [RefreshToken.live, Bool.and_eq_true, decide_eq_true_eq] at hlive ⊢
  exact ⟨hlive.1, hclock.trans_lt hlive.2⟩

theorem of_insert {k : TokenHash} {x : ℕ} (hx : s.insertRefreshToken k v x = some s')
    (ht : s'.HasRefresh h u) : h = k ∧ u = v ∨ h ≠ k ∧ s.HasRefresh h u := by
  obtain ⟨-, -, rfl⟩ := insertRefreshToken_eq_some.1 hx
  obtain ⟨t, hl, hlive, rfl⟩ := ht
  rw [Table.lookup_insert] at hl
  split_ifs at hl with hk
  · obtain rfl := Option.some.inj hl
    exact .inl ⟨hk, rfl⟩
  · exact .inr ⟨hk, t, hl, hlive, rfl⟩

theorem of_delete (ht : (s.deleteUserRefreshTokens v).HasRefresh h u) : s.HasRefresh h u := by
  obtain ⟨t, hl, hlive, rfl⟩ := ht
  exact ⟨t, (Table.lookup_deleteWhere.1 hl).1, hlive, rfl⟩

theorem of_softDelete (hx : s.softDeleteUser v = some s') (ht : s'.HasRefresh h u) :
    s.HasRefresh h u := by
  obtain ⟨r, -, rfl | rfl⟩ := softDeleteUser_eq_some hx
  · exact ht
  · exact of_delete (v := v) ht

/-- A token that has been exchanged is not live. -/
theorem of_consume {k : TokenHash} {t : RefreshToken} (ht : s'.HasRefresh h u)
    (hs' : s'.refreshTokens = s.refreshTokens.insert k t) (hused : t.usedAt.isSome = true)
    (hclock : s'.clock = s.clock) : s.HasRefresh h u := by
  obtain ⟨t', hl, hlive, rfl⟩ := ht
  rw [hs', Table.lookup_insert] at hl
  split_ifs at hl
  · obtain rfl := Option.some.inj hl
    rw [RefreshToken.live, Option.isNone_eq_false_iff.2 hused] at hlive
    exact absurd hlive (by simp)
  · exact ⟨t', hl, hclock ▸ hlive, rfl⟩

end Directory.HasRefresh

/-- **A live refresh token has just been issued, or was live before and is the same user's.** -/
theorem refreshTokens_ok (hx : c.apply cfg e s = .ok (s', out)) (ht : s'.HasRefresh h u) :
    c.issues out = some (u, h) ∨
      (∀ w, c.issues out ≠ some (w, h)) ∧ ∃ v, s.HasRefresh h v ∧ c.follow s v = u := by
  by_cases hw : .refreshTokens ∈ c.writes
  · cases c with
    | createUser req =>
      obtain ⟨r, s₁, rfl, hins, -, -, -, hx⟩ := createUser_ok hx
      obtain ⟨-, -, -, rfl⟩ := insertUser_eq_some.1 hins
      rcases hx with ⟨hk, rfl⟩ | ⟨k, x, hk, hx⟩
      · exact .inr ⟨by simp [Change.issues, hk], u, ht, rfl⟩
      · rcases ht.of_insert hx with ⟨rfl, rfl⟩ | ⟨hne, ht⟩
        · exact .inl (by rw [Change.issues, hk, Option.map_some])
        · exact .inr ⟨by simp [Change.issues, hk, hne.symm], u, ht, rfl⟩
    | mintRefreshToken service target =>
      obtain ⟨rfl, hins⟩ := mintRefreshToken_ok hx
      rcases ht.of_insert hins with ⟨rfl, rfl⟩ | ⟨hne, ht⟩
      · exact .inl rfl
      · exact .inr ⟨by simp [Change.issues, hne.symm], u, ht, rfl⟩
    | revokeUserRefreshTokens v =>
      obtain rfl := revokeUserRefreshTokens_ok hx
      exact .inr ⟨by simp [Change.issues], u, ht.of_delete, rfl⟩
    | deleteUser v purge =>
      refine .inr ⟨by simp [Change.issues], u, ?_, rfl⟩
      rcases deleteUser_ok hx with rfl | ⟨s₁, hs₁, rfl | rfl⟩
      · exact ht
      · exact ht.of_softDelete hs₁
      · exact HasRefresh.of_softDelete hs₁ ht
    | refresh k =>
      obtain ⟨t, r, s₁, -, -, -, rfl, hs₁, hx⟩ := refresh_ok hx
      rcases ht.of_insert hx with ⟨rfl, rfl⟩ | ⟨hne, ht⟩
      · exact .inl rfl
      · subst hs₁
        exact .inr ⟨by simp [Change.issues, hne.symm], u, ht.of_consume (s := s) rfl rfl rfl, rfl⟩
    | resetPassword k hash =>
      obtain ⟨t, r, s₁, -, -, -, rfl, hs₁, hx⟩ := resetPassword_ok hx
      rcases ht.of_insert hx with ⟨rfl, rfl⟩ | ⟨hne, ht⟩
      · exact .inl rfl
      · subst hs₁
        exact .inr ⟨by simp [Change.issues, hne.symm], u,
          HasRefresh.of_delete (s := s) (v := t.userId) ht, rfl⟩
    | onboard a k =>
      obtain ⟨k, -, s₁, hs₁, hx⟩ := onboard_ok hx
      have hs₁ : s₁.refreshTokens = s.refreshTokens ∧ s₁.clock = s.clock := by
        rcases hs₁ with ⟨-, hins⟩ | ⟨r, -, -, rfl⟩
        · obtain ⟨-, rfl⟩ := insertAgent_eq_some.1 hins
          exact ⟨rfl, rfl⟩
        · exact ⟨rfl, rfl⟩
      rcases hx with ⟨rfl, rfl⟩ | ⟨rfl, s₂, x, hsvc, hx⟩
      · refine .inr ⟨by simp [Change.issues], u, ?_, rfl⟩
        rwa [HasRefresh, hs₁.1, hs₁.2] at ht
      · rcases ht.of_insert hx with ⟨rfl, rfl⟩ | ⟨hne, ht⟩
        · exact .inl rfl
        · refine .inr ⟨by simp [Change.issues, hne.symm], u, ?_, rfl⟩
          have hs₂ : s₂.refreshTokens = s₁.refreshTokens ∧ s₂.clock = s₁.clock := by
            rcases provisionServiceUser_ok hsvc with rfl | ⟨r, -, -, -, -, hins⟩
            · exact ⟨rfl, rfl⟩
            · obtain ⟨-, -, -, rfl⟩ := insertUser_eq_some.1 hins
              exact ⟨rfl, rfl⟩
          rwa [HasRefresh, hs₂.1, hs₂.2, hs₁.1, hs₁.2] at ht
    | release a epoch =>
      refine .inr ⟨by simp [Change.issues], ?_⟩
      rw [HasRefresh, (Change.frame hx).clock] at ht
      rcases releaseId_users hx with ⟨-, hrt, -, hf⟩ | ⟨r, u', -, -, -, -, hrt, -, hf⟩
      · rw [hrt] at ht
        exact ⟨u, ht, hf u⟩
      · obtain ⟨t', hl, hlive, rfl⟩ := ht
        rw [hrt] at hl
        obtain ⟨t, ht, rfl⟩ := Option.map_eq_some_iff.1 ((Table.lookup_mapRows _ _ _).symm.trans hl)
        exact ⟨t.userId, ⟨t, ht, hlive, rfl⟩, hf t.userId⟩
    | _ => exact absurd hw (by simp [Change.writes])
  · rw [HasRefresh, (Change.frame hx).refreshTokens hw, (Change.frame hx).clock] at ht
    refine .inr ⟨by simp [Change.issues_eq_none hw], u, ht, ?_⟩
    cases c <;> first | rfl | exact absurd hw (by simp [Change.writes])

/-! ### Password-reset tokens -/

/-- The password-reset token can be redeemed, and is this user's. -/
def Directory.HasReset (s : Directory) (h : TokenHash) (u : UserId) : Prop :=
  ∃ t, s.resetTokens.lookup h = some t ∧ t.live s.clock = true ∧ t.userId = u

namespace Directory.HasReset

/-- A live token was live earlier. -/
theorem earlier (ht : s'.HasReset h u) (hrt : s'.resetTokens = s.resetTokens)
    (hclock : s.clock ≤ s'.clock) : s.HasReset h u := by
  obtain ⟨t, hl, hlive, rfl⟩ := ht
  refine ⟨t, hrt ▸ hl, ?_, rfl⟩
  rw [ResetToken.live, Bool.and_eq_true, decide_eq_true_eq] at hlive ⊢
  exact ⟨hlive.1, hclock.trans hlive.2⟩

theorem of_insert {k : TokenHash} {x : ℕ} (hx : s.insertPasswordResetToken k u x v = some s')
    {w : UserId} (ht : s'.HasReset h w) : h = k ∧ w = u ∨ h ≠ k ∧ s.HasReset h w := by
  obtain ⟨-, -, -, rfl⟩ := insertPasswordResetToken_eq_some.1 hx
  obtain ⟨t, hl, hlive, rfl⟩ := ht
  rw [Table.lookup_insert] at hl
  split_ifs at hl with hk
  · obtain rfl := Option.some.inj hl
    exact .inl ⟨hk, rfl⟩
  · exact .inr ⟨hk, t, hl, hlive, rfl⟩

theorem of_softDelete (hx : s.softDeleteUser v = some s') (ht : s'.HasReset h u) :
    s.HasReset h u := by
  obtain ⟨r, -, rfl | rfl⟩ := softDeleteUser_eq_some hx
  · exact ht
  · obtain ⟨t, hl, hlive, rfl⟩ := ht
    exact ⟨t, (Table.lookup_deleteWhere.1 hl).1, hlive, rfl⟩

/-- A token that has been redeemed is not live. -/
theorem of_consume {k : TokenHash} {t : ResetToken} (ht : s'.HasReset h u)
    (hs' : s'.resetTokens = s.resetTokens.insert k t) (hused : t.usedAt.isSome = true)
    (hclock : s'.clock = s.clock) : s.HasReset h u := by
  obtain ⟨t', hl, hlive, rfl⟩ := ht
  rw [hs', Table.lookup_insert] at hl
  split_ifs at hl
  · obtain rfl := Option.some.inj hl
    rw [ResetToken.live, Option.isNone_eq_false_iff.2 hused] at hlive
    exact absurd hlive (by simp)
  · exact ⟨t', hl, hclock ▸ hlive, rfl⟩

end Directory.HasReset

/-- **A live password-reset token has just been issued, or was live before and is the same
user's.** -/
theorem resetTokens_ok (hx : c.apply cfg e s = .ok (s', out)) (ht : s'.HasReset h u) :
    c.issuesReset out = some (u, h) ∨
      (∀ w, c.issuesReset out ≠ some (w, h)) ∧ ∃ v, s.HasReset h v ∧ c.follow s v = u := by
  by_cases hw : .resetTokens ∈ c.writes
  · cases c with
    | mintResetToken minter level target =>
      obtain ⟨rfl, hins⟩ := mintResetToken_ok hx
      rcases ht.of_insert hins with ⟨rfl, rfl⟩ | ⟨hne, ht⟩
      · exact .inl rfl
      · exact .inr ⟨by simp [Change.issuesReset, hne.symm], u, ht, rfl⟩
    | mintLinkToken target =>
      obtain ⟨rfl, hins⟩ := mintResetToken_ok hx
      rcases ht.of_insert hins with ⟨rfl, rfl⟩ | ⟨hne, ht⟩
      · exact .inl rfl
      · exact .inr ⟨by simp [Change.issuesReset, hne.symm], u, ht, rfl⟩
    | deleteUser v purge =>
      refine .inr ⟨by simp [Change.issuesReset], u, ?_, rfl⟩
      rcases deleteUser_ok hx with rfl | ⟨s₁, hs₁, rfl | rfl⟩
      · exact ht
      · exact ht.of_softDelete hs₁
      · exact HasReset.of_softDelete hs₁ ht
    | resetPassword k hash =>
      obtain ⟨t, r, s₁, -, -, -, rfl, hs₁, hx⟩ := resetPassword_ok hx
      obtain ⟨-, -, rfl⟩ := insertRefreshToken_eq_some.1 hx
      subst hs₁
      exact .inr ⟨by simp [Change.issuesReset], u, ht.of_consume (s := s) rfl rfl rfl, rfl⟩
    | linkChannel k service grant =>
      refine .inr ⟨by simp [Change.issuesReset], u, ?_, rfl⟩
      obtain ⟨t, r, s₁, -, -, rfl, ⟨-, rfl⟩ | ⟨-, -, rfl⟩⟩ := linkChannel_ok hx
      all_goals exact ht.of_consume (s := s) rfl rfl rfl
    | release a epoch =>
      refine .inr ⟨by simp [Change.issuesReset], ?_⟩
      rw [HasReset, (Change.frame hx).clock] at ht
      rcases releaseId_users hx with ⟨-, -, hrt, hf⟩ | ⟨r, u', -, -, -, -, -, hrt, hf⟩
      · rw [hrt] at ht
        exact ⟨u, ht, hf u⟩
      · obtain ⟨t', hl, hlive, rfl⟩ := ht
        rw [hrt] at hl
        obtain ⟨t, ht, rfl⟩ := Option.map_eq_some_iff.1 ((Table.lookup_mapRows _ _ _).symm.trans hl)
        exact ⟨t.userId, ⟨t, ht, hlive, rfl⟩, hf t.userId⟩
    | _ => exact absurd hw (by simp [Change.writes])
  · rw [HasReset, (Change.frame hx).resetTokens hw, (Change.frame hx).clock] at ht
    refine .inr ⟨by simp [Change.issuesReset_eq_none hw], u, ht, ?_⟩
    cases c <;> first | rfl | exact absurd hw (by simp [Change.writes])

end

end Backplane
