import Backplane.Identity.Requests

/-!
# What a transaction does to the tables

One inversion lemma for each statement and each transaction that can fail, and what an action may do
at all.

* `insertUser_eq_some`, `insertRefreshToken_eq_some`, … : the statements.
* `createUser_ok`, `refresh_ok`, `onboard_ok`, … : the transactions.
* `DirAct.exec_eq`, `Directory.committed_eq` : the actions.
-/

namespace Backplane

open Concur

/-- The token can be exchanged at this time. -/
def RefreshToken.live (t : RefreshToken) (now : ℕ) : Bool :=
  t.usedAt.isNone && decide (now < t.expiresAt)

/-- The token can be redeemed at this time. -/
def ResetToken.live (t : ResetToken) (now : ℕ) : Bool :=
  t.usedAt.isNone && decide (now ≤ t.expiresAt)

/-- The invitation can be consumed at this time. -/
def Invitation.live (i : Invitation) (now : ℕ) : Bool :=
  i.usedAt.isNone && decide (now ≤ i.expiresAt)

namespace Directory

variable {cfg : IdentitySettings} {e : DirEnv} {s s' : Directory} {out : Outcome} {u v : UserId}
  {a : AgentId} {h : TokenHash} {α : Type}

theorem orRaise_eq_ok {x : Option α} {y : α} : orRaise x = .ok y ↔ x = some y := by
  cases x <;> simp [orRaise]

/-! ### Statements -/

theorem insertUser_eq_some {r : UserRecord} : s.insertUser r = some s' ↔
    s.users.lookup r.userId = none ∧ s.emailTaken r.email = false ∧ levelCheck r.level = true ∧
      s' = { s with users := s.users.insert r.userId r } := by
  simp only [insertUser, Option.ite_none_left_eq_some, Bool.or_eq_true, Bool.not_eq_true', not_or,
    Bool.not_eq_true, Bool.not_eq_false, Option.isSome_eq_false_iff, Option.isNone_iff_eq_none,
    Option.some.injEq, and_assoc, eq_comm (a := s')]

theorem insertRefreshToken_eq_some {x : ℕ} : s.insertRefreshToken h u x = some s' ↔
    s.refreshTokens.lookup h = none ∧ s.users.lookup u ≠ none ∧
      s' = { s with refreshTokens := s.refreshTokens.insert h ⟨u, x, none, none⟩ } := by
  simp only [insertRefreshToken, Option.ite_none_left_eq_some, Bool.or_eq_true, not_or,
    Bool.not_eq_true, Option.isSome_eq_false_iff, Option.isNone_iff_eq_none,
    ne_eq, Option.some.injEq, and_assoc, eq_comm (a := s')]

theorem insertPasswordResetToken_eq_some {x : ℕ} :
    s.insertPasswordResetToken h u x v = some s' ↔
      s.resetTokens.lookup h = none ∧ s.users.lookup u ≠ none ∧ s.users.lookup v ≠ none ∧
        s' = { s with resetTokens := s.resetTokens.insert h ⟨u, x, none, some v⟩ } := by
  simp only [insertPasswordResetToken, Option.ite_none_left_eq_some, Bool.or_eq_true, not_or,
    Bool.not_eq_true, Option.isSome_eq_false_iff, Option.isNone_iff_eq_none,
    ne_eq, Option.some.injEq, and_assoc, eq_comm (a := s')]

theorem consumeRefreshToken_eq_some {h' : TokenHash} (hc : s.consumeRefreshToken h h' = (s', some u)) :
    ∃ t, s.refreshTokens.lookup h = some t ∧ t.live s.clock = true ∧ t.userId = u ∧
      s' = { s with refreshTokens :=
        s.refreshTokens.insert h { t with usedAt := some s.clock, replacedBy := some h' } } := by
  unfold consumeRefreshToken at hc
  cases ht : (s.refreshTokens.lookup h).filter fun t => s.clock < t.expiresAt with
  | none => simp [ht] at hc
  | some t =>
    obtain ⟨hl, hx⟩ := Option.filter_eq_some_iff.1 ht
    rw [ht] at hc
    dsimp only at hc
    split_ifs at hc with hused
    · simp at hc
    · obtain ⟨rfl, hu⟩ := Prod.mk.inj hc
      refine ⟨t, hl, ?_, Option.some.inj hu, rfl⟩
      rw [RefreshToken.live, Bool.and_eq_true]
      exact ⟨by simpa using hused, hx⟩

theorem consumePasswordResetToken_eq_some (hc : s.consumePasswordResetToken h = some (s', u)) :
    ∃ t, s.resetTokens.lookup h = some t ∧ t.live s.clock = true ∧ t.userId = u ∧
      s' = { s with resetTokens := s.resetTokens.insert h { t with usedAt := some s.clock } } := by
  unfold consumePasswordResetToken at hc
  split at hc
  · exact absurd hc (by simp)
  · rename_i t ht
    split_ifs at hc with hused
    obtain ⟨rfl, rfl⟩ := Prod.mk.inj (Option.some.inj hc)
    refine ⟨t, ht, ?_, rfl, rfl⟩
    simp only [Bool.or_eq_true, decide_eq_true_eq, not_or, Bool.not_eq_true,
      Option.isSome_eq_false_iff] at hused
    rw [ResetToken.live, Bool.and_eq_true, decide_eq_true_eq]
    exact ⟨hused.1, not_lt.1 hused.2⟩

theorem consumeInvitation_eq_some {i : Invitation} (hc : s.consumeInvitation h a = some (s', i)) :
    s.invitations.lookup h = some i ∧ i.live s.clock = true ∧ s' = { s with
      invitations := s.invitations.insert h { i with usedAt := some s.clock, usedBy := some a } } := by
  unfold consumeInvitation at hc
  split at hc
  · exact absurd hc (by simp)
  · rename_i i hi
    split_ifs at hc with hused
    obtain ⟨rfl, rfl⟩ := Prod.mk.inj (Option.some.inj hc)
    refine ⟨hi, ?_, rfl⟩
    simp only [Bool.or_eq_true, decide_eq_true_eq, not_or, Bool.not_eq_true,
      Option.isSome_eq_false_iff] at hused
    rw [Invitation.live, Bool.and_eq_true, decide_eq_true_eq]
    exact ⟨hused.1, not_lt.1 hused.2⟩

theorem insertInvitation_eq_some {x : ℕ} {p : Bool} : s.insertInvitation h x p = some s' ↔
    s.invitations.lookup h = none ∧
      s' = { s with invitations := s.invitations.insert h ⟨x, none, none, p⟩ } := by
  simp only [insertInvitation, Option.ite_none_left_eq_some, Bool.not_eq_true,
    Option.isSome_eq_false_iff, Option.isNone_iff_eq_none, Option.some.injEq, eq_comm (a := s')]

theorem insertAgent_eq_some : s.insertAgent a = some s' ↔ s.agents.lookup a = none ∧
    s' = { s with
      agents := s.agents.insert a ⟨a, .active, s.registered⟩
      registered := s.registered + 1 } := by
  simp only [insertAgent, Option.ite_none_left_eq_some, Bool.not_eq_true,
    Option.isSome_eq_false_iff, Option.isNone_iff_eq_none, Option.some.injEq, eq_comm (a := s')]

theorem softDeleteUser_eq_some (hc : s.softDeleteUser u = some s') : ∃ r, s.users.lookup u = some r ∧
    (s' = s ∨ s' = (((s.updateUserRow u fun r => { r with deletedAt := some s.clock }
      ).deleteUserRefreshTokens u).deleteUserPasswordResetTokens u).sweepServicedByReferences u) := by
  obtain ⟨r, hr, hs⟩ := Option.map_eq_some_iff.1 hc
  refine ⟨r, hr, ?_⟩
  split_ifs at hs with hd
  · exact .inl hs.symm
  · exact .inr hs.symm

theorem collides_eq_false {V : Type} {t : Table String V} {k k' : String} :
    collides t k k' = false ↔ k' = k ∨ t.lookup k' = none := by
  simp only [collides, Bool.and_eq_false_iff, decide_eq_false_iff_not, not_not,
    Option.isSome_eq_false_iff, Option.isNone_iff_eq_none]

/-- Nothing was renamed, or a removed agent was, and perhaps its service principal. -/
theorem renameEvictedAgent_eq_some {epoch : ℕ} {x : Option UserId} {a' : AgentId} {u' : Option UserId}
    (hc : s.renameEvictedAgent a epoch x = some (s', a', u')) :
    s' = s ∧ a' = a ∧ (∀ r, s.agents.lookup a = some r → r.status ≠ .removed) ∨
      ∃ r, s.agents.lookup a = some r ∧ r.status = .removed ∧ a' = tombstoneAgentId a epoch ∧
        collides s.agents a a' = false ∧
        ((∀ v r', x = some v → s.users.lookup v = some r' → r'.level ≠ "service") ∧
            s' = s.renameAgent a a' r ∨
          ∃ v r', x = some v ∧ s.users.lookup v = some r' ∧ r'.level = "service" ∧
            collides s.users v (tombstoneAgentId v epoch) = false ∧
            s' = (s.renameAgent a a' r).renameUser v (tombstoneAgentId v epoch) r') := by
  unfold renameEvictedAgent at hc
  dsimp only at hc
  cases hr : (s.agents.lookup a).filter fun r => r.status = .removed with
  | none =>
    rw [hr] at hc
    obtain ⟨rfl, rfl, -⟩ := by simpa using hc
    refine .inl ⟨rfl, rfl, fun r hl hrem => ?_⟩
    rw [hl, Option.filter_eq_none_iff] at hr
    exact hr r rfl (by simpa using hrem)
  | some r =>
    rw [hr] at hc
    obtain ⟨hl, hrem⟩ := Option.filter_eq_some_iff.1 hr
    dsimp only at hc
    split_ifs at hc with hcol
    rw [Bool.not_eq_true] at hcol
    cases x with
    | none =>
      obtain ⟨rfl, rfl, -⟩ := by simpa using hc
      exact .inr ⟨r, hl, by simpa using hrem, rfl, hcol, .inl ⟨by simp, rfl⟩⟩
    | some v =>
      dsimp only at hc
      cases hv : ((s.renameAgent a (tombstoneAgentId a epoch) r).users.lookup v).filter
          fun r => r.level = "service" with
      | none =>
        rw [hv] at hc
        obtain ⟨rfl, rfl, -⟩ := by simpa using hc
        refine .inr ⟨r, hl, by simpa using hrem, rfl, hcol, .inl ⟨?_, rfl⟩⟩
        rintro w r' ⟨⟩ hw
        simpa using Option.filter_eq_none_iff.1 hv r' hw
      | some r' =>
        rw [hv] at hc
        obtain ⟨hlv, hsvc⟩ := Option.filter_eq_some_iff.1 hv
        dsimp only at hc
        split_ifs at hc with hcolv
        rw [Bool.not_eq_true] at hcolv
        obtain ⟨rfl, rfl, -⟩ := by simpa using hc
        exact .inr ⟨r, hl, by simpa using hrem, rfl, hcol,
          .inr ⟨v, r', rfl, hlv, by simpa using hsvc, hcolv, rfl⟩⟩

/-! ### Transactions -/

theorem createUser_ok {req : CreateUserRequest} (hx : s.createUser cfg e req = .ok (s', out)) :
    ∃ r s₁, out = .user r.userId ∧ s.insertUser r = some s₁ ∧ r.level = req.level ∧
      r.servicedBy = req.servicedBy ∧ r.deletedAt = none ∧ (req.refreshToken = none ∧ s' = s₁ ∨
        ∃ h x, req.refreshToken = some h ∧ s₁.insertRefreshToken h r.userId x = some s') := by
  unfold createUser at hx
  obtain ⟨s₁, h₁, hx⟩ := bind_eq_ok.1 hx
  cases ht : req.refreshToken with
  | none =>
    rw [ht] at hx
    obtain ⟨rfl, rfl⟩ := Prod.mk.inj (Except.ok.inj hx)
    exact ⟨_, s₁, rfl, orRaise_eq_ok.1 h₁, rfl, rfl, rfl, .inl ⟨rfl, rfl⟩⟩
  | some h =>
    rw [ht] at hx
    obtain ⟨s₂, h₂, hx⟩ := bind_eq_ok.1 hx
    obtain ⟨rfl, rfl⟩ := Prod.mk.inj (Except.ok.inj hx)
    exact ⟨_, s₁, rfl, orRaise_eq_ok.1 h₁, rfl, rfl, rfl, .inr ⟨h, _, rfl, orRaise_eq_ok.1 h₂⟩⟩

theorem updateUser_ok {level : Option String} {suspended : Option Bool}
    (hx : s.updateUser u level suspended = .ok (s', out)) :
    ∃ r, s.users.lookup u = some r ∧ ∃ x : UserRecord → Option ℕ, s' = s.updateUserRow u fun r =>
      { r with level := level.getD r.level, suspendedAt := x r } := by
  unfold updateUser at hx
  split_ifs at hx with hu
  obtain ⟨rfl, -⟩ := Prod.mk.inj (Except.ok.inj hx)
  obtain ⟨r, hr⟩ := Option.ne_none_iff_exists'.1 fun h => hu (Option.isNone_iff_eq_none.2 h)
  exact ⟨r, hr, _, rfl⟩

theorem mintRefreshToken_ok (hx : s.mintRefreshToken cfg e u = .ok (s', out)) :
    out = .token e.secret ∧
      s.insertRefreshToken e.secret u (s.clock + cfg.refreshTokenTtlS) = some s' := by
  obtain ⟨s₁, h₁, hx⟩ := bind_eq_ok.1 hx
  obtain ⟨rfl, rfl⟩ := Prod.mk.inj (Except.ok.inj hx)
  exact ⟨rfl, orRaise_eq_ok.1 h₁⟩

theorem mintResetToken_ok {ttl : ℕ} (hx : s.mintResetToken e v u ttl = .ok (s', out)) :
    out = .token e.secret ∧
      s.insertPasswordResetToken e.secret u (s.clock + ttl) v = some s' := by
  obtain ⟨s₁, h₁, hx⟩ := bind_eq_ok.1 hx
  obtain ⟨rfl, rfl⟩ := Prod.mk.inj (Except.ok.inj hx)
  exact ⟨rfl, orRaise_eq_ok.1 h₁⟩

theorem revokeUserRefreshTokens_ok (hx : s.revokeUserRefreshTokens u = .ok (s', out)) :
    s' = s.deleteUserRefreshTokens u := by
  unfold revokeUserRefreshTokens at hx
  split_ifs at hx
  exact (Prod.mk.inj (Except.ok.inj hx)).1.symm

theorem deleteUser_ok {purge : Bool} (hx : s.deleteUser u purge = .ok (s', out)) :
    s' = s ∨ ∃ s₁, s.softDeleteUser u = some s₁ ∧ (s' = s₁ ∨ s' = s₁.scrubUser u) := by
  unfold deleteUser at hx
  split at hx
  · rename_i r s₁ _ hs₁
    split_ifs at hx
    · exact .inr ⟨s₁, hs₁, .inl (Prod.mk.inj (Except.ok.inj hx)).1.symm⟩
    · exact .inl (Prod.mk.inj (Except.ok.inj hx)).1.symm
    · exact .inr ⟨s₁, hs₁, .inr (Prod.mk.inj (Except.ok.inj hx)).1.symm⟩
  · exact absurd hx (by simp)

theorem findRegistration_eq_some {channel externalId id : String} {p : PendingRegistration}
    (hf : s.findRegistration channel externalId = some (id, p)) :
    s.registrations.lookup id = some p := by
  unfold findRegistration at hf
  exact (Table.mem_select.1 (List.mem_of_mem_head? hf)).1

/-- A registration is inserted under a new id, or the row there is rewritten. -/
theorem submitRegistration_ok {p : PendingRegistration}
    (hx : s.submitRegistration e p = .ok (s', out)) :
    ∃ id p', out = .registered id ∧ (s.registrations.lookup id ≠ none ∨ id = e.secret) ∧
      s' = { s with registrations := s.registrations.insert id p' } := by
  unfold submitRegistration at hx
  cases hf : s.findRegistration p.channel p.externalId with
  | none =>
    rw [hf] at hx
    dsimp only at hx
    split_ifs at hx
    obtain ⟨rfl, rfl⟩ := Prod.mk.inj (Except.ok.inj hx)
    exact ⟨_, _, rfl, .inr rfl, rfl⟩
  | some x =>
    rw [hf] at hx
    dsimp only at hx
    split_ifs at hx
    obtain ⟨rfl, rfl⟩ := Prod.mk.inj (Except.ok.inj hx)
    exact ⟨_, _, rfl, .inl (by rw [findRegistration_eq_some hf]; simp), rfl⟩

theorem approveRegistration_ok {id : String} {req : ApproveRegistrationRequest}
    (hx : s.approveRegistration e id req = .ok (s', out)) :
    ∃ p r s₁ email, s.registrations.lookup id = some p ∧ s.insertUser r = some s₁ ∧
      r.level = req.level ∧ r.servicedBy = p.submittedBy.toList ∧ r.deletedAt = none ∧
      out = .user r.userId ∧ s' = { s₁ with
        registrations := s₁.registrations.erase id
        registrationAudit := s₁.registrationAudit ++
          [.approved id r.userId p.channel p.externalId email req.level p.submittedBy] } := by
  unfold approveRegistration at hx
  split at hx
  · exact absurd hx (by simp)
  · rename_i p hp
    split at hx
    · exact absurd hx (by simp)
    · split_ifs at hx
      obtain ⟨s₁, h₁, hx⟩ := bind_eq_ok.1 hx
      obtain ⟨rfl, rfl⟩ := Prod.mk.inj (Except.ok.inj hx)
      exact ⟨p, _, s₁, _, hp, orRaise_eq_ok.1 h₁, rfl, rfl, rfl, rfl, rfl⟩

theorem refresh_ok (hx : s.refresh cfg e h = .ok (s', out)) :
    ∃ t r s₁, s.refreshTokens.lookup h = some t ∧ t.live s.clock = true ∧
      s.users.lookup t.userId = some r ∧ out = .session t.userId r.level e.secret ∧
      s₁ = { s with refreshTokens :=
        s.refreshTokens.insert h { t with usedAt := some s.clock, replacedBy := some e.secret } } ∧
      s₁.insertRefreshToken e.secret t.userId (s.clock + cfg.refreshTokenTtlS) = some s' := by
  unfold refresh at hx
  split at hx
  · exact absurd hx (by simp)
  · rename_i s₁ u hc
    obtain ⟨t, ht, hlive, rfl, rfl⟩ := consumeRefreshToken_eq_some hc
    split at hx
    · exact absurd hx (by simp)
    · rename_i r hr
      obtain ⟨s₂, h₂, hx⟩ := bind_eq_ok.1 hx
      obtain ⟨rfl, rfl⟩ := Prod.mk.inj (Except.ok.inj hx)
      exact ⟨t, r, _, ht, hlive, (Option.filter_eq_some_iff.1 hr).1, rfl, rfl, orRaise_eq_ok.1 h₂⟩

theorem resetPassword_ok {hash : String} (hx : s.resetPassword cfg e h hash = .ok (s', out)) :
    ∃ t r s₁, s.resetTokens.lookup h = some t ∧ t.live s.clock = true ∧
      s.users.lookup t.userId = some r ∧ out = .session t.userId r.level e.secret ∧
      s₁ = ({ s with resetTokens := s.resetTokens.insert h { t with usedAt := some s.clock } }
        |>.setUserPasswordHash t.userId hash |>.deleteUserRefreshTokens t.userId) ∧
      s₁.insertRefreshToken e.secret t.userId (s.clock + cfg.refreshTokenTtlS) = some s' := by
  unfold resetPassword at hx
  split at hx
  · exact absurd hx (by simp)
  · rename_i s₁ u hc
    obtain ⟨t, ht, hlive, rfl, rfl⟩ := consumePasswordResetToken_eq_some hc
    split at hx
    · exact absurd hx (by simp)
    · rename_i r hr
      split_ifs at hx
      obtain ⟨s₂, h₂, hx⟩ := bind_eq_ok.1 hx
      obtain ⟨rfl, rfl⟩ := Prod.mk.inj (Except.ok.inj hx)
      exact ⟨t, r, _, ht, hlive, (Option.filter_eq_some_iff.1 hr).1, rfl, rfl, orRaise_eq_ok.1 h₂⟩

theorem linkChannel_ok {grant : Bool} (hx : s.linkChannel h v grant = .ok (s', out)) :
    ∃ t r s₁, s.resetTokens.lookup h = some t ∧ s.users.lookup t.userId = some r ∧
      s₁ = { s with resetTokens := s.resetTokens.insert h { t with usedAt := some s.clock } } ∧
      (grant = false ∧ s' = s₁ ∨ grant = true ∧ privileged r.level = false ∧
        s' = s₁.appendToServicedBy t.userId v) := by
  unfold linkChannel at hx
  split at hx
  · exact absurd hx (by simp)
  · rename_i s₁ u hc
    obtain ⟨t, ht, -, rfl, rfl⟩ := consumePasswordResetToken_eq_some hc
    split at hx
    · exact absurd hx (by simp)
    · rename_i r hr
      refine ⟨t, r, _, ht, (Option.filter_eq_some_iff.1 hr).1, rfl, ?_⟩
      split_ifs at hx with hg hp
      · exact .inl ⟨by simpa using hg, (Prod.mk.inj (Except.ok.inj hx)).1.symm⟩
      · exact .inr ⟨by simpa using hg, by simpa using hp, (Prod.mk.inj (Except.ok.inj hx)).1.symm⟩

/-- The service principal was there already, or it is new. -/
theorem provisionServiceUser_ok (hx : s.provisionServiceUser a = .ok s') :
    s' = s ∨ ∃ r : UserRecord, r.userId = serviceUserIdForAgent a ∧ r.level = "service" ∧
      r.servicedBy = [] ∧ r.deletedAt = none ∧ s.insertUser r = some s' := by
  unfold provisionServiceUser at hx
  split at hx
  · exact .inr ⟨_, rfl, rfl, rfl, rfl, orRaise_eq_ok.1 hx⟩
  · split_ifs at hx
    exact .inl (Except.ok.inj hx).symm

/-- The agent is new or comes back, with its service principal where the invitation says so. -/
theorem onboard_ok (hx : s.onboard cfg e a h = .ok (s', out)) :
    ∃ t, (∃ i, s.invitations.lookup h = some i ∧ i.live s.clock = true ∧ t =
      s.invitations.insert h { i with usedAt := some s.clock, usedBy := some a }) ∧
    ∃ s₁, (s.agents.lookup a = none ∧ { s with invitations := t }.insertAgent a = some s₁ ∨
        ∃ r, s.agents.lookup a = some r ∧ r.status ≠ .removed ∧
          s₁ = { s with invitations := t }.reactivateAgentOnOnboard a) ∧
      (out = .onboarded a none ∧ s' = s₁ ∨
        out = .onboarded a (some (serviceUserIdForAgent a, e.secret)) ∧
        ∃ s₂ x, s₁.provisionServiceUser a = .ok s₂ ∧
          s₂.insertRefreshToken e.secret (serviceUserIdForAgent a) x = some s') := by
  unfold onboard at hx
  split_ifs at hx with hrem
  split at hx
  · exact absurd hx (by simp)
  · rename_i s₀ i hi
    obtain ⟨hinv, hlive, rfl⟩ := consumeInvitation_eq_some hi
    obtain ⟨s₁, h₁, hx⟩ := bind_eq_ok.1 hx
    refine ⟨_, ⟨i, hinv, hlive, rfl⟩, s₁, ?_, ?_⟩
    · unfold registerAgent at h₁
      split_ifs at h₁ with hnone
      · exact .inl ⟨Option.isNone_iff_eq_none.1 hnone, orRaise_eq_ok.1 h₁⟩
      · obtain ⟨r, hr⟩ := Option.ne_none_iff_exists'.1 fun h => hnone (Option.isNone_iff_eq_none.2 h)
        refine .inr ⟨r, hr, fun hs => hrem ?_, (Except.ok.inj h₁).symm⟩
        rw [hr, Option.any_some, hs, decide_eq_true rfl]
    · split_ifs at hx
      · obtain ⟨rfl, rfl⟩ := Prod.mk.inj (Except.ok.inj hx)
        exact .inl ⟨rfl, rfl⟩
      · obtain ⟨s₂, h₂, hx⟩ := bind_eq_ok.1 hx
        obtain ⟨s₃, h₃, hx⟩ := bind_eq_ok.1 hx
        obtain ⟨rfl, rfl⟩ := Prod.mk.inj (Except.ok.inj hx)
        exact .inr ⟨rfl, s₂, _, h₂, orRaise_eq_ok.1 h₃⟩

theorem revokeInvitation_ok (hx : s.revokeInvitation h = .ok (s', out)) :
    ∃ i, s.invitations.lookup h = some i ∧ i.usedAt = none ∧
      s' = { s with invitations := s.invitations.erase h } := by
  unfold revokeInvitation deleteInvitation at hx
  by_cases hi : (s.invitations.lookup h).any fun i => i.usedAt.isNone
  · rw [if_pos hi] at hx
    obtain ⟨i, hl, hu⟩ := (Option.any_eq_true _ _).1 hi
    exact ⟨i, hl, Option.isNone_iff_eq_none.1 hu, (Prod.mk.inj (Except.ok.inj hx)).1.symm⟩
  · rw [if_neg hi] at hx
    dsimp only at hx
    split_ifs at hx

theorem reprovision_ok {pending p : Bool} (hx : s.reprovision e a pending p = .ok (s', out)) :
    out = .token e.secret ∧ s.invitations.lookup e.secret = none ∧
      s' = { if pending then s else s.resetAgentToPending a with
        invitations := s.invitations.insert e.secret
          ⟨s.clock + reprovisionInvitationTtlS, none, none, p⟩ } := by
  obtain ⟨s₁, h₁, hx⟩ := bind_eq_ok.1 hx
  obtain ⟨rfl, rfl⟩ := Prod.mk.inj (Except.ok.inj hx)
  obtain ⟨hfree, rfl⟩ := insertInvitation_eq_some.1 (orRaise_eq_ok.1 h₁)
  cases pending <;> exact ⟨rfl, hfree, rfl⟩

theorem releaseId_ok {epoch : ℕ} (hx : s.releaseId a epoch = .ok (s', out)) :
    ∃ a' u', out = .released a' u' ∧ s.renameEvictedAgent a epoch
      (if (s.users.lookup (serviceUserIdForAgent a)).isSome then some (serviceUserIdForAgent a)
        else none) = some (s', a', u') := by
  obtain ⟨⟨s₁, a', u'⟩, h₁, hx⟩ := bind_eq_ok.1 hx
  obtain ⟨rfl, rfl⟩ := Prod.mk.inj (Except.ok.inj hx)
  exact ⟨a', u', rfl, orRaise_eq_ok.1 h₁⟩

end Directory

/-! ### What a transaction leaves alone -/

/-- The tables, and the audit log of registrations. -/
inductive DirTable
  | users | agents | refreshTokens | resetTokens | invitations | registrations | registrationAudit
  deriving DecidableEq

/-- The tables a transaction may write. -/
def Change.writes : Change → List DirTable
  | createUser _ => [.users, .refreshTokens]
  | updateUser _ _ _ | grantServicedBy _ _ | revokeServicedBy _ _ => [.users]
  | mintRefreshToken _ _ | revokeUserRefreshTokens _ | refresh _ => [.refreshTokens]
  | mintResetToken _ _ _ | mintLinkToken _ => [.resetTokens]
  | deleteUser _ _ | resetPassword _ _ => [.users, .refreshTokens, .resetTokens]
  | linkChannel _ _ _ => [.users, .resetTokens]
  | submitRegistration _ => [.registrations]
  | rejectRegistration _ _ => [.registrations, .registrationAudit]
  | approveRegistration _ _ => [.users, .registrations, .registrationAudit]
  | createInvitation _ _ _ | revokeInvitation _ => [.invitations]
  | onboard _ _ => [.users, .agents, .refreshTokens, .invitations]
  | suspend _ | unsuspend _ | reset _ | evict _ => [.agents]
  | reprovision _ _ _ => [.agents, .invitations]
  | release _ _ => [.users, .agents, .refreshTokens, .resetTokens, .registrations]

/-- Apart from these tables nothing has changed. -/
def Directory.Frame (ws : List DirTable) (s s' : Directory) : Prop :=
  s' = { s' with
    users := if .users ∈ ws then s'.users else s.users
    agents := if .agents ∈ ws then s'.agents else s.agents
    refreshTokens := if .refreshTokens ∈ ws then s'.refreshTokens else s.refreshTokens
    resetTokens := if .resetTokens ∈ ws then s'.resetTokens else s.resetTokens
    invitations := if .invitations ∈ ws then s'.invitations else s.invitations
    registrations := if .registrations ∈ ws then s'.registrations else s.registrations
    registrationAudit :=
      if .registrationAudit ∈ ws then s'.registrationAudit else s.registrationAudit
    registered := if .agents ∈ ws then s'.registered else s.registered
    signed := s.signed
    revokedJtis := s.revokedJtis
    clock := s.clock }

namespace Directory.Frame

variable {ws : List DirTable} {s s' : Directory}

theorem users (h : Frame ws s s') (hw : .users ∉ ws) : s'.users = s.users := by
  rw [h, if_neg hw]

theorem agents (h : Frame ws s s') (hw : .agents ∉ ws) :
    s'.agents = s.agents ∧ s'.registered = s.registered := by
  rw [h, if_neg hw, if_neg hw]
  exact ⟨rfl, rfl⟩

theorem refreshTokens (h : Frame ws s s') (hw : .refreshTokens ∉ ws) :
    s'.refreshTokens = s.refreshTokens := by
  rw [h, if_neg hw]

theorem resetTokens (h : Frame ws s s') (hw : .resetTokens ∉ ws) :
    s'.resetTokens = s.resetTokens := by
  rw [h, if_neg hw]

theorem invitations (h : Frame ws s s') (hw : .invitations ∉ ws) :
    s'.invitations = s.invitations := by
  rw [h, if_neg hw]

theorem registrations (h : Frame ws s s') (hw : .registrations ∉ ws) :
    s'.registrations = s.registrations := by
  rw [h, if_neg hw]

theorem registrationAudit (h : Frame ws s s') (hw : .registrationAudit ∉ ws) :
    s'.registrationAudit = s.registrationAudit := by
  rw [h, if_neg hw]

theorem clock (h : Frame ws s s') : s'.clock = s.clock := by rw [h]

theorem signed (h : Frame ws s s') : s'.signed = s.signed := by rw [h]

theorem revokedJtis (h : Frame ws s s') : s'.revokedJtis = s.revokedJtis := by rw [h]

end Directory.Frame

/-! ### What becomes of the agents -/

/-- The status the agent of this id has after a transaction, if it had this one. -/
def Change.restatus (a : AgentId) (st : AgentStatus) : Change → AgentStatus
  | onboard a' _ =>
    if a = a' ∧ (st = .active ∨ st = .pending ∨ st = .suspended) then .active else st
  | suspend a' => if a = a' then .suspended else st
  | unsuspend a' => if a = a' ∧ st = .suspended then .active else st
  | reset a' => if a = a' ∧ (st = .active ∨ st = .suspended) then .pending else st
  | reprovision a' pending _ =>
    if pending = false ∧ a = a' ∧ (st = .active ∨ st = .suspended) then .pending else st
  | evict a' => if a = a' then .removed else st
  | _ => st

section

variable {cfg : IdentitySettings} {e : DirEnv} {s s' : Directory} {out : Outcome} {a : AgentId}
  {c : Change}

open Directory

theorem Directory.lookup_setStatus {guard : AgentStatus → Bool} {st : AgentStatus} {x : AgentId} :
    (s.setStatus a guard st).agents.lookup x = (s.agents.lookup x).map fun r =>
      { r with status := if x = a ∧ guard r.status = true then st else r.status } := by
  unfold setStatus
  rw [Table.lookup_update_map]
  congr 1
  funext r
  by_cases hx : x = a <;> by_cases hg : guard r.status = true <;> simp [hx, hg]

/-- **A transaction writes no other table than it may.** -/
theorem Change.frame (hx : c.apply cfg e s = .ok (s', out)) : Frame c.writes s s' := by
  cases c with
  | createUser req =>
    obtain ⟨r, s₁, -, hins, -, -, -, hx⟩ := createUser_ok hx
    obtain ⟨-, -, -, rfl⟩ := insertUser_eq_some.1 hins
    rcases hx with ⟨-, rfl⟩ | ⟨t, x, -, hx⟩
    · rfl
    · obtain ⟨-, -, rfl⟩ := insertRefreshToken_eq_some.1 hx
      rfl
  | updateUser u level suspended =>
    obtain ⟨r, -, x, rfl⟩ := updateUser_ok hx
    rfl
  | mintRefreshToken service target =>
    obtain ⟨-, -, rfl⟩ := insertRefreshToken_eq_some.1 (mintRefreshToken_ok hx).2
    rfl
  | mintResetToken minter level target =>
    obtain ⟨-, -, -, rfl⟩ := insertPasswordResetToken_eq_some.1 (mintResetToken_ok hx).2
    rfl
  | mintLinkToken u =>
    obtain ⟨-, -, -, rfl⟩ := insertPasswordResetToken_eq_some.1 (mintResetToken_ok hx).2
    rfl
  | revokeUserRefreshTokens u =>
    obtain rfl := revokeUserRefreshTokens_ok hx
    rfl
  | deleteUser u purge =>
    rcases deleteUser_ok hx with rfl | ⟨s₁, hs₁, hs'⟩
    · rfl
    · obtain ⟨r, -, rfl | rfl⟩ := softDeleteUser_eq_some hs₁ <;>
      rcases hs' with rfl | rfl <;> rfl
  | submitRegistration p =>
    obtain ⟨id, p', -, -, rfl⟩ := submitRegistration_ok hx
    rfl
  | approveRegistration id req =>
    obtain ⟨p, r, s₁, t, -, hins, -, -, -, -, rfl⟩ := approveRegistration_ok hx
    obtain ⟨-, -, -, rfl⟩ := insertUser_eq_some.1 hins
    rfl
  | refresh t =>
    obtain ⟨t, r, s₁, -, -, -, -, rfl, hx⟩ := refresh_ok hx
    obtain ⟨-, -, rfl⟩ := insertRefreshToken_eq_some.1 hx
    rfl
  | resetPassword t hash =>
    obtain ⟨t, r, s₁, -, -, -, -, rfl, hx⟩ := resetPassword_ok hx
    obtain ⟨-, -, rfl⟩ := insertRefreshToken_eq_some.1 hx
    rfl
  | linkChannel t service grant =>
    obtain ⟨t, r, s₁, -, -, rfl, ⟨-, rfl⟩ | ⟨-, -, rfl⟩⟩ := linkChannel_ok hx <;> rfl
  | createInvitation t ttl p =>
    obtain ⟨s₁, h₁, hx⟩ := bind_eq_ok.1 hx
    obtain ⟨rfl, -⟩ := Prod.mk.inj (Except.ok.inj hx)
    obtain ⟨-, rfl⟩ := insertInvitation_eq_some.1 (orRaise_eq_ok.1 h₁)
    rfl
  | onboard a t =>
    obtain ⟨t, -, s₁, hs₁, hx⟩ := onboard_ok hx
    obtain ⟨x, y, rfl⟩ : ∃ x y, s₁ = { s with invitations := t, agents := x, registered := y } := by
      rcases hs₁ with ⟨-, hins⟩ | ⟨r, -, -, rfl⟩
      · exact ⟨_, _, (insertAgent_eq_some.1 hins).2⟩
      · exact ⟨_, _, rfl⟩
    rcases hx with ⟨-, rfl⟩ | ⟨-, s₂, x, hsvc, hx⟩
    · rfl
    · obtain ⟨-, -, rfl⟩ := insertRefreshToken_eq_some.1 hx
      rcases provisionServiceUser_ok hsvc with rfl | ⟨r, -, -, -, -, hins⟩
      · rfl
      · obtain ⟨-, -, -, rfl⟩ := insertUser_eq_some.1 hins
        rfl
  | revokeInvitation h =>
    obtain ⟨i, -, -, rfl⟩ := revokeInvitation_ok hx
    rfl
  | rejectRegistration _ _ | grantServicedBy _ _ | revokeServicedBy _ _ | suspend _ | unsuspend _
  | reset _ | evict _ =>
    obtain ⟨rfl, -⟩ := Prod.mk.inj (Except.ok.inj hx)
    rfl
  | reprovision a pending p =>
    obtain ⟨-, -, rfl⟩ := reprovision_ok hx
    cases pending <;> rfl
  | release a epoch =>
    obtain ⟨a', u', -, hx⟩ := releaseId_ok hx
    rcases renameEvictedAgent_eq_some hx with ⟨rfl, -, -⟩ | ⟨r, -, -, -, -, hx⟩
    · rfl
    · rcases hx with ⟨-, rfl⟩ | ⟨v, r', -, -, -, -, rfl⟩ <;> rfl

/-- **Agents get another status in place, or one is inserted, or a removed one gets another id.** -/
theorem Change.agents_ok (hx : c.apply cfg e s = .ok (s', out)) :
    ((∀ a epoch r, c = release a epoch → s.agents.lookup a = some r → r.status ≠ .removed) ∧
        s'.registered = s.registered ∧ ∀ x, s'.agents.lookup x =
          (s.agents.lookup x).map fun r => { r with status := c.restatus x r.status }) ∨
      (∃ a i, c = onboard a i ∧ s.agents.lookup a = none ∧ s'.registered = s.registered + 1 ∧
        s'.agents = s.agents.insert a ⟨a, .active, s.registered⟩) ∨
      ∃ a epoch r, c = release a epoch ∧ s.agents.lookup a = some r ∧ r.status = .removed ∧
        Directory.collides s.agents a (tombstoneAgentId a epoch) = false ∧
        s'.registered = s.registered ∧ s'.agents = (s.agents.erase a).insert
          (tombstoneAgentId a epoch) { r with agentId := tombstoneAgentId a epoch } := by
  by_cases hw : .agents ∈ c.writes
  · cases c with
    | onboard a t =>
      obtain ⟨t, -, s₁, hs₁, hx⟩ := onboard_ok hx
      have hsame : s'.agents = s₁.agents ∧ s'.registered = s₁.registered := by
        rcases hx with ⟨-, rfl⟩ | ⟨-, s₂, x, hsvc, hx⟩
        · exact ⟨rfl, rfl⟩
        · obtain ⟨-, -, rfl⟩ := insertRefreshToken_eq_some.1 hx
          rcases provisionServiceUser_ok hsvc with rfl | ⟨r, -, -, -, -, hins⟩
          · exact ⟨rfl, rfl⟩
          · obtain ⟨-, -, -, rfl⟩ := insertUser_eq_some.1 hins
            exact ⟨rfl, rfl⟩
      rw [hsame.1, hsame.2]
      rcases hs₁ with ⟨hfree, hins⟩ | ⟨r, hr, hrem, rfl⟩
      · obtain ⟨-, rfl⟩ := insertAgent_eq_some.1 hins
        exact .inr (.inl ⟨a, _, rfl, hfree, rfl, rfl⟩)
      · refine .inl ⟨by simp, rfl, fun x => ?_⟩
        rw [reactivateAgentOnOnboard, lookup_setStatus]
        simp [restatus, or_assoc]
    | suspend a | unsuspend a | reset a | evict a =>
      obtain ⟨rfl, -⟩ := Prod.mk.inj (Except.ok.inj hx)
      refine .inl ⟨by simp, rfl, fun x => lookup_setStatus.trans ?_⟩
      simp [restatus]
    | reprovision a pending p =>
      obtain ⟨-, -, rfl⟩ := reprovision_ok hx
      cases pending with
      | true => exact .inl ⟨by simp, rfl, fun x => by simp [restatus]⟩
      | false =>
        refine .inl ⟨by simp, rfl, fun x => ?_⟩
        show (s.resetAgentToPending a).agents.lookup x = _
        rw [resetAgentToPending, lookup_setStatus]
        simp [restatus]
    | release a epoch =>
      obtain ⟨a', u', -, hx⟩ := releaseId_ok hx
      rcases renameEvictedAgent_eq_some hx with ⟨rfl, -, hno⟩ | ⟨r, hr, hrem, rfl, hcol, hx⟩
      · refine .inl ⟨?_, rfl, fun x => by simp [restatus]⟩
        rintro _ _ r ⟨⟩ hr
        exact hno r hr
      · rcases hx with ⟨-, rfl⟩ | ⟨v, r', -, -, -, -, rfl⟩ <;>
        exact .inr (.inr ⟨a, epoch, r, rfl, hr, hrem, hcol, rfl, rfl⟩)
    | _ => exact absurd hw (by simp [writes])
  · obtain ⟨hagents, hreg⟩ := (frame hx).agents hw
    refine .inl ⟨fun a epoch r h => absurd hw (by simp [h, writes]), hreg, fun x => ?_⟩
    rw [hagents]
    cases c <;> first | exact Option.map_id'.symm | exact absurd hw (by simp [writes])

end

/-! ### Actions -/

section

variable {cfg : IdentitySettings} {e : DirEnv} {s s' : Directory} {β : Type} {a : DirAct β} {b : β}

/-- The transaction that has committed at an event, and what it yielded. -/
def Concur.Event.tx : Event DirAct → Option (Change × Outcome)
  | ⟨.commit c, .ok out⟩ => some (c, out)
  | _ => none

/-- The transaction an action tries, if any. -/
def DirAct.change {β : Type} : DirAct β → Option Change
  | commit c => some c
  | _ => none

theorem Concur.Event.tx_eq_some {x : Event DirAct} {c : Change} {out : Outcome} :
    x.tx = some (c, out) ↔ x = ⟨.commit c, .ok out⟩ := by
  constructor
  · intro h
    unfold tx at h
    split at h
    · obtain ⟨rfl, rfl⟩ := Prod.mk.inj (Option.some.inj h)
      rfl
    · exact absurd h (by simp)
  · rintro rfl
    rfl

theorem DirAct.exec_eq (he : a.exec cfg e s = some (s', b)) :
    s.clock ≤ e.now ∧ a.perform cfg e { s with clock := e.now } = (s', b) := by
  unfold exec at he
  split_ifs at he with hc
  exact ⟨hc, Option.some.inj he⟩

theorem Directory.committed_eq {c : Change} {out : Except RequestFailure Outcome}
    (h : s.committed cfg e c = (s', out)) :
    (∃ err, out = .error err ∧ s' = s) ∨
      ∃ o, out = .ok o ∧ e.fault = false ∧ c.apply cfg e s = .ok (s', o) := by
  unfold committed at h
  split_ifs at h with hf
  · obtain ⟨rfl, rfl⟩ := Prod.mk.inj h
    exact .inl ⟨_, rfl, rfl⟩
  · cases hc : c.apply cfg e s with
    | error err =>
      rw [hc] at h
      obtain ⟨rfl, rfl⟩ := Prod.mk.inj h
      exact .inl ⟨err, rfl, rfl⟩
    | ok x =>
      rw [hc] at h
      obtain ⟨rfl, rfl⟩ := Prod.mk.inj h
      exact .inr ⟨x.2, rfl, by simpa using hf, rfl⟩

/-- **An action commits a transaction, or leaves the tables as they are.** -/
theorem DirAct.exec_cases (he : a.exec cfg e s = some (s', b)) :
    Event.tx ⟨a, b⟩ = none ∧
        s' = { s with clock := e.now, signed := s'.signed, revokedJtis := s'.revokedJtis } ∨
      ∃ c out, Event.tx ⟨a, b⟩ = some (c, out) ∧ a.change = some c ∧ e.fault = false ∧
        c.apply cfg e { s with clock := e.now } = .ok (s', out) := by
  obtain ⟨-, he⟩ := exec_eq he
  cases a with
  | commit c =>
    rcases Directory.committed_eq he with ⟨err, rfl, rfl⟩ | ⟨o, rfl, hf, hx⟩
    · exact .inl ⟨rfl, rfl⟩
    · exact .inr ⟨c, o, rfl, rfl, hf, hx⟩
  | _ =>
    obtain ⟨rfl, -⟩ := Prod.mk.inj he
    exact .inl ⟨rfl, rfl⟩

end

end Backplane
