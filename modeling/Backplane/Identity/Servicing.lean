import Backplane.Data.References
import Backplane.Identity.Effects

/-!
# Who may service whom

`serviced_by` names users by id and has no foreign key.

* `Directory.ServicingIntact` : every id named is that of a living service principal, and no
  privileged user is serviced.
* `Change.keepsServicing` : the two sides of the relation, checked at the moment of the write.
* `Change.servicing_iff` : a transaction keeps the relation intact iff it is so checked.
* `serviced_by_intact` : and so does every run of such transactions.
-/

namespace Backplane

open Concur

/-- A living service principal. -/
def UserRecord.MayServe (r : UserRecord) : Prop := r.level = "service" ∧ r.deletedAt = none

/-- Not an admin nor a service principal. -/
def UserRecord.MayBeServiced (r : UserRecord) : Prop := privileged r.level = false

namespace Directory

variable (s : Directory)

/-- Every id in a `serviced_by` is that of a living service principal, and no privileged user has
any. -/
abbrev ServicingIntact : Prop :=
  Intact UserRecord.servicedBy UserRecord.MayServe UserRecord.MayBeServiced s.users

/-- The id is that of a living service principal. -/
def serves (v : UserId) : Bool :=
  (s.users.lookup v).any fun r => r.level == "service" && r.deletedAt.isNone

/-- The id is in somebody's `serviced_by`. -/
def listed (v : UserId) : Bool := !(s.users.select fun _ r => decide (v ∈ r.servicedBy)).isEmpty

end Directory

/-- Both sides of `serviced_by` are as they have to be when this is written: those who are to
service a user live and are service principals, the user is not privileged, and nobody lists a user
that ceases to be a service principal or gets another id. -/
def Change.keepsServicing (s : Directory) : Change → Bool
  | createUser req =>
    req.servicedBy.all s.serves && (!privileged req.level || req.servicedBy.isEmpty)
  | updateUser u (some l) _ => (s.users.lookup u).all fun r =>
    (!privileged l || r.servicedBy.isEmpty) && (l == "service" || !s.listed u)
  | grantServicedBy target service => (s.users.lookup target).all fun r =>
    s.serves service && !privileged r.level
  | linkChannel _ service grant => !grant || s.serves service
  | approveRegistration id req => (s.registrations.lookup id).all fun p =>
    p.submittedBy.all s.serves && (!privileged req.level || p.submittedBy.isNone)
  | release a epoch => (s.agents.lookup a).all fun r =>
    r.status != .removed || !s.listed (serviceUserIdForAgent a) ||
      tombstoneAgentId (serviceUserIdForAgent a) epoch == serviceUserIdForAgent a
  | _ => true

section

variable {cfg : IdentitySettings} {e : DirEnv} {s s' : Directory} {out : Outcome} {u v : UserId}
  {r : UserRecord} {a : AgentId} {c : Change}

namespace Change

theorem keepsServicing_createUser (req : CreateUserRequest) :
    (createUser req).keepsServicing s =
      (req.servicedBy.all s.serves && (!privileged req.level || req.servicedBy.isEmpty)) := rfl

theorem keepsServicing_updateUser (l : String) (suspended : Option Bool) :
    (updateUser u (some l) suspended).keepsServicing s = (s.users.lookup u).all fun r =>
      (!privileged l || r.servicedBy.isEmpty) && (l == "service" || !s.listed u) := rfl

theorem keepsServicing_grantServicedBy :
    (grantServicedBy u v).keepsServicing s = (s.users.lookup u).all fun r =>
      s.serves v && !privileged r.level := rfl

theorem keepsServicing_linkChannel (t : TokenHash) (grant : Bool) :
    (linkChannel t v grant).keepsServicing s = (!grant || s.serves v) := rfl

theorem keepsServicing_approveRegistration (id : String) (req : ApproveRegistrationRequest) :
    (approveRegistration id req).keepsServicing s = (s.registrations.lookup id).all fun p =>
      p.submittedBy.all s.serves && (!privileged req.level || p.submittedBy.isNone) := rfl

theorem keepsServicing_release (epoch : ℕ) :
    (release a epoch).keepsServicing s = (s.agents.lookup a).all fun r =>
      r.status != .removed || !s.listed (serviceUserIdForAgent a) ||
        tombstoneAgentId (serviceUserIdForAgent a) epoch == serviceUserIdForAgent a := rfl

end Change

theorem UserRecord.not_mayServe (h : r.MayBeServiced) : ¬ r.MayServe := by
  rintro ⟨hl, -⟩
  rw [MayBeServiced, hl] at h
  exact absurd h (by decide)

namespace Directory

theorem serves_iff : s.serves v = true ↔ Named UserRecord.MayServe s.users v := by
  simp [serves, Named, UserRecord.MayServe, Option.any_eq_true]

theorem listed_eq_false : s.listed v = false ↔
    ∀ u r, s.users.lookup u = some r → v ∉ r.servicedBy := by
  simp only [listed, Bool.not_eq_false', List.isEmpty_iff, List.eq_nil_iff_forall_not_mem,
    Prod.forall, Table.mem_select, decide_eq_true_eq, not_and]

/-- Nobody services himself. -/
theorem ServicingIntact.not_self (h : s.ServicingIntact) (hr : s.users.lookup u = some r) :
    u ∉ r.servicedBy := by
  intro hmem
  obtain ⟨w, hw, hserve⟩ := (h u r hr).1 u hmem
  obtain rfl : r = w := Option.some.inj (hr.symm.trans hw)
  exact UserRecord.not_mayServe ((h u r hr).2 (List.ne_nil_of_mem hmem)) hserve

theorem ServicingIntact.unnamed_iff (h : s.ServicingIntact) :
    Unnamed UserRecord.servicedBy s.users v ↔ s.listed v = false := by
  rw [listed_eq_false]
  refine ⟨fun hun u r hr => ?_, fun hno u r hr _ => hno u r hr⟩
  by_cases hu : u = v
  · exact hu ▸ h.not_self (hu ▸ hr)
  · exact hun u r hr hu

/-- Those who may not serve are not listed. -/
theorem ServicingIntact.unnamed_of_not (h : s.ServicingIntact)
    (hno : ¬ Named UserRecord.MayServe s.users v) :
    Unnamed UserRecord.servicedBy s.users v := fun u r hr _ hmem => hno ((h u r hr).1 v hmem)

/-! ### One row is written -/

theorem ServicingIntact.insertUser_iff (h : s.ServicingIntact) (hx : s.insertUser r = some s') :
    s'.ServicingIntact ↔ (∀ v ∈ r.servicedBy, s.serves v = true) ∧
      (privileged r.level = false ∨ r.servicedBy = []) := by
  obtain ⟨hfree, -, -, rfl⟩ := insertUser_eq_some.1 hx
  rw [ServicingIntact, h.insert_iff]
  constructor
  · rintro ⟨⟨hnamed, hheld⟩, -⟩
    refine ⟨fun v hmem => serves_iff.2 ?_, or_iff_not_imp_right.2 hheld⟩
    obtain ⟨w, hw, hserve⟩ := hnamed v hmem
    have hv : v ≠ r.userId := by
      rintro rfl
      obtain rfl : r = w := Option.some.inj ((AList.lookup_insert _).symm.trans hw)
      exact UserRecord.not_mayServe (hheld (List.ne_nil_of_mem hmem)) hserve
    exact ⟨w, (AList.lookup_insert_ne hv).symm.trans hw, hserve⟩
  · rintro ⟨hserves, hpriv⟩
    refine ⟨⟨fun v hmem => ?_, hpriv.resolve_right⟩, .inr (Intact.unnamed h hfree)⟩
    refine (serves_iff.1 (hserves v hmem)).insert ?_
    rintro rfl
    obtain ⟨w, hw, -⟩ := serves_iff.1 (hserves _ hmem)
    exact absurd (hfree.symm.trans hw) (by simp)

theorem ServicingIntact.rewrite_iff (h : s.ServicingIntact) (hr : s.users.lookup u = some r)
    (r' : UserRecord) (hdel : r'.deletedAt = r.deletedAt) :
    Intact UserRecord.servicedBy UserRecord.MayServe UserRecord.MayBeServiced
        (s.users.insert u r') ↔
      (∀ v ∈ r'.servicedBy, s.serves v = true ∧ v ≠ u) ∧
        (privileged r'.level = false ∨ r'.servicedBy = []) ∧
        (r'.level = "service" ∨ s.listed u = false) := by
  rw [h.insert_iff, h.unnamed_iff]
  constructor
  · rintro ⟨⟨hnamed, hheld⟩, hserve⟩
    refine ⟨fun v hmem => ?_, or_iff_not_imp_right.2 hheld, hserve.imp_left And.left⟩
    obtain ⟨w, hw, hws⟩ := hnamed v hmem
    have hv : v ≠ u := by
      rintro rfl
      obtain rfl : r' = w := Option.some.inj ((AList.lookup_insert _).symm.trans hw)
      exact UserRecord.not_mayServe (hheld (List.ne_nil_of_mem hmem)) hws
    exact ⟨serves_iff.2 ⟨w, (AList.lookup_insert_ne hv).symm.trans hw, hws⟩, hv⟩
  · rintro ⟨hserves, hpriv, hlist⟩
    refine ⟨⟨fun v hmem => ?_, hpriv.resolve_right⟩, ?_⟩
    · exact (serves_iff.1 (hserves v hmem).1).insert fun hv => absurd hv (hserves v hmem).2
    · rcases hlist with hl | hl
      · by_cases hd : r.deletedAt = none
        · exact .inl ⟨hl, hdel.trans hd⟩
        · refine .inr (h.unnamed_iff.1 (h.unnamed_of_not ?_))
          rintro ⟨w, hw, -, hwd⟩
          obtain rfl : r = w := Option.some.inj (hr.symm.trans hw)
          exact hd hwd
      · exact .inr hl

/-- A user's row is rewritten, and neither the level nor the list of those who service the user. -/
theorem ServicingIntact.touch (h : s.ServicingIntact) {f : UserRecord → UserRecord}
    (hl : ∀ r, (f r).level = r.level) (hd : ∀ r, (f r).deletedAt = r.deletedAt)
    (hs : ∀ r, (f r).servicedBy = r.servicedBy) : (s.updateUserRow u f).ServicingIntact := by
  refine Intact.map h (Table.lookup_update_map s.users u · f) (fun k r => ?_) (fun k r hr => ?_)
    fun k r hr => .inl ?_
  · split_ifs
    · rw [hs]
      exact List.Subset.refl _
    · exact List.Subset.refl _
  · split_ifs
    · rwa [UserRecord.MayBeServiced, hl]
    · exact hr
  · split_ifs
    · rwa [UserRecord.MayServe, hl, hd]
    · exact hr

theorem ServicingIntact.softDeleteUser (h : s.ServicingIntact) (hx : s.softDeleteUser u = some s') :
    s'.ServicingIntact := by
  obtain ⟨r, -, rfl | rfl⟩ := softDeleteUser_eq_some hx
  · exact h
  · refine Intact.map (f := fun k r =>
        { (if k = u then { r with deletedAt := some s.clock } else r) with
          servicedBy := r.servicedBy.filter (· ≠ u) })
      h (fun k => ?_) (fun k r => ?_) (fun k r hr => ?_) fun k r hr => ?_
    · change ((s.users.update u _).mapRows _).lookup k = _
      rw [Table.lookup_mapRows, Table.lookup_update_map, Option.map_map]
      congr 1
      funext r
      dsimp only [Function.comp_apply]
      split_ifs <;> rfl
    · exact List.filter_subset_self _
    · change privileged _ = false
      split_ifs <;> exact hr
    · by_cases hk : k = u
      · subst hk
        refine .inr fun _ r' hmem => ?_
        simpa using (List.mem_filter.1 hmem).2
      · refine .inl ?_
        rw [UserRecord.MayServe, if_neg hk]
        exact hr

theorem ServicingIntact.append_iff (h : s.ServicingIntact) :
    (s.appendToServicedBy u v).ServicingIntact ↔
      ∀ r, s.users.lookup u = some r → s.serves v = true ∧ privileged r.level = false := by
  unfold appendToServicedBy updateUserRow Table.update
  cases hr : s.users.lookup u with
  | none => exact iff_of_true h fun r hr => absurd hr (by simp)
  | some r =>
    simp only [Option.some.injEq, forall_eq']
    by_cases hmem : v ∈ r.servicedBy
    · rw [if_pos hmem]
      refine iff_of_true ?_
        ⟨serves_iff.2 ((h u r hr).1 v hmem), (h u r hr).2 (List.ne_nil_of_mem hmem)⟩
      refine Intact.congr h fun k => ?_
      rw [Table.lookup_insert]
      split_ifs with hk
      · rw [← hr, hk]
      · rfl
    · rw [if_neg hmem]
      refine (h.rewrite_iff hr { r with servicedBy := r.servicedBy ++ [v] } rfl).trans ?_
      constructor
      · rintro ⟨hserves, hpriv, -⟩
        exact ⟨(hserves v (by simp)).1, hpriv.resolve_right (by simp)⟩
      · rintro ⟨hv, hl⟩
        refine ⟨fun w hw => ?_, .inl hl, .inr ?_⟩
        · rcases List.mem_append.1 hw with hw | hw
          · refine ⟨serves_iff.2 ((h u r hr).1 w hw), ?_⟩
            rintro rfl
            exact h.not_self hr hw
          · obtain rfl := List.mem_singleton.1 hw
            refine ⟨hv, ?_⟩
            rintro rfl
            obtain ⟨w, hw, hws⟩ := serves_iff.1 hv
            obtain rfl : r = w := Option.some.inj (hr.symm.trans hw)
            exact UserRecord.not_mayServe hl hws
        · refine h.unnamed_iff.1 (h.unnamed_of_not ?_)
          rintro ⟨w, hw, hws⟩
          obtain rfl : r = w := Option.some.inj (hr.symm.trans hw)
          exact UserRecord.not_mayServe hl hws

theorem ServicingIntact.removeFromServicedBy (h : s.ServicingIntact) :
    (s.removeFromServicedBy u v).ServicingIntact := by
  refine Intact.map h (Table.lookup_update_map s.users u · _) (fun k r => ?_) (fun k r hr => ?_)
    fun k r hr => .inl ?_
  · split_ifs
    · exact List.filter_subset_self _
    · exact List.Subset.refl _
  · split_ifs <;> exact hr
  · split_ifs <;> exact hr

theorem ServicingIntact.renameUser_iff (h : s.ServicingIntact) (hr : s.users.lookup u = some r)
    (hl : r.level = "service") (hcol : collides s.users u v = false) :
    (s.renameUser u v r).ServicingIntact ↔ v = u ∨ s.listed u = false := by
  have hnil : r.servicedBy = [] := by
    by_contra hne
    have hp := (h u r hr).2 hne
    rw [UserRecord.MayBeServiced, hl] at hp
    exact absurd hp (by decide)
  by_cases hv : v = u
  · subst hv
    refine iff_of_true ?_ (.inl rfl)
    have hw := (h.rewrite_iff hr { r with userId := v } rfl).2
      ⟨fun w hw => absurd (hnil ▸ hw) (by simp), .inr hnil, .inl hl⟩
    refine Intact.congr hw fun k => ?_
    show ((s.users.erase v).insert v { r with userId := v }).lookup k = _
    rw [Table.lookup_insert, Table.lookup_insert]
    split_ifs with hk
    · rfl
    · exact AList.lookup_erase_ne hk
  · rw [or_iff_right hv, ← h.unnamed_iff]
    exact Intact.rename_iff h hr hv ((collides_eq_false.1 hcol).resolve_left hv) hnil

end Directory

/-! ### Transactions -/

open Directory

theorem servicing_release_iff {epoch : ℕ} (h : s.ServicingIntact)
    (hx : s.releaseId a epoch = .ok (s', out)) :
    s'.ServicingIntact ↔ (Change.release a epoch).keepsServicing s = true := by
  obtain ⟨a', u', -, hx⟩ := releaseId_ok hx
  simp only [Change.keepsServicing_release, Option.all_eq_true, Bool.or_eq_true, bne_iff_ne, ne_eq,
    Bool.not_eq_true', beq_iff_eq]
  rcases renameEvictedAgent_eq_some hx with ⟨rfl, -, hno⟩ | ⟨r, hr, hrem, -, -, hx⟩
  · exact iff_of_true h fun r hr => .inl (.inl (hno r hr))
  · simp only [hr, Option.some.injEq, forall_eq', hrem, not_true_eq_false, false_or]
    rcases hx with ⟨hno, rfl⟩ | ⟨v, r', hv, hr', hl, hcol, rfl⟩
    · refine iff_of_true h (.inl (h.unnamed_iff.1 (h.unnamed_of_not ?_)))
      rintro ⟨w, hw, hl, -⟩
      exact hno _ w (by rw [hw, Option.isSome_some, if_pos rfl]) hw hl
    · split_ifs at hv
      obtain rfl := Option.some.inj hv
      rw [or_comm]
      exact ServicingIntact.renameUser_iff (s := s.renameAgent a a' r) h hr' hl hcol

theorem servicing_createUser_iff {req : CreateUserRequest} (h : s.ServicingIntact)
    (hx : s.createUser cfg e req = .ok (s', out)) :
    s'.ServicingIntact ↔ (Change.createUser req).keepsServicing s = true := by
  obtain ⟨r, s₁, -, hins, hl, hs, -, hx⟩ := createUser_ok hx
  have husers : s'.users = s₁.users := by
    rcases hx with ⟨-, rfl⟩ | ⟨t, x, -, hx⟩
    · rfl
    · obtain ⟨-, -, rfl⟩ := insertRefreshToken_eq_some.1 hx
      rfl
  rw [ServicingIntact, husers]
  refine (h.insertUser_iff hins).trans ?_
  simp only [Change.keepsServicing_createUser, hl, hs, Bool.and_eq_true, List.all_eq_true,
    Bool.or_eq_true, Bool.not_eq_true', List.isEmpty_iff]

theorem servicing_updateUser_iff {level : Option String} {suspended : Option Bool}
    (h : s.ServicingIntact) (hx : s.updateUser u level suspended = .ok (s', out)) :
    s'.ServicingIntact ↔ (Change.updateUser u level suspended).keepsServicing s = true := by
  obtain ⟨r, hr, x, rfl⟩ := updateUser_ok hx
  cases level with
  | none => exact iff_of_true (h.touch (fun _ => rfl) (fun _ => rfl) fun _ => rfl) rfl
  | some l =>
    unfold updateUserRow Table.update
    simp only [hr, Option.getD_some]
    refine (h.rewrite_iff hr { r with level := l, suspendedAt := x r } rfl).trans ?_
    simp only [Change.keepsServicing_updateUser, hr, Option.all_some, Bool.and_eq_true,
      Bool.or_eq_true, Bool.not_eq_true', List.isEmpty_iff, beq_iff_eq]
    refine and_iff_right fun v hv => ⟨serves_iff.2 ((h u r hr).1 v hv), ?_⟩
    rintro rfl
    exact h.not_self hr hv

theorem servicing_approve_iff {id : String} {req : ApproveRegistrationRequest}
    (h : s.ServicingIntact) (hx : s.approveRegistration e id req = .ok (s', out)) :
    s'.ServicingIntact ↔ (Change.approveRegistration id req).keepsServicing s = true := by
  obtain ⟨p, r, s₁, t, hp, hins, hl, hs, -, -, rfl⟩ := approveRegistration_ok hx
  refine (h.insertUser_iff hins).trans ?_
  simp only [Change.keepsServicing_approveRegistration, hp, hl, hs, Option.all_some,
    Bool.and_eq_true, Bool.or_eq_true, Bool.not_eq_true']
  cases p.submittedBy <;> simp

theorem servicing_link_iff {t : TokenHash} {grant : Bool} (h : s.ServicingIntact)
    (hx : s.linkChannel t v grant = .ok (s', out)) :
    s'.ServicingIntact ↔ (Change.linkChannel t v grant).keepsServicing s = true := by
  obtain ⟨t, r, s₁, -, hr, rfl, ⟨rfl, rfl⟩ | ⟨rfl, hl, rfl⟩⟩ := linkChannel_ok hx
  · exact iff_of_true h rfl
  · refine (ServicingIntact.append_iff (s := { s with resetTokens := _ }) h).trans ?_
    simp only [hr, Option.some.injEq, forall_eq', hl, and_true,
      Change.keepsServicing_linkChannel,
      Bool.not_true, Bool.false_or, serves]

theorem servicing_onboard {t : TokenHash} (h : s.ServicingIntact)
    (hx : s.onboard cfg e a t = .ok (s', out)) : s'.ServicingIntact := by
  obtain ⟨t, -, s₁, hs₁, hx⟩ := onboard_ok hx
  have h₁ : s₁.ServicingIntact := by
    rcases hs₁ with ⟨-, hins⟩ | ⟨r, -, -, rfl⟩
    · obtain ⟨-, rfl⟩ := insertAgent_eq_some.1 hins
      exact h
    · exact h
  rcases hx with ⟨-, rfl⟩ | ⟨-, s₂, x, hsvc, hx⟩
  · exact h₁
  · obtain ⟨-, -, rfl⟩ := insertRefreshToken_eq_some.1 hx
    rcases provisionServiceUser_ok hsvc with rfl | ⟨r, -, -, hnil, -, hins⟩
    · exact h₁
    · exact (h₁.insertUser_iff hins).2 ⟨fun v hv => absurd (hnil ▸ hv) (by simp), .inr hnil⟩

theorem servicing_deleteUser {purge : Bool} (h : s.ServicingIntact)
    (hx : s.deleteUser u purge = .ok (s', out)) : s'.ServicingIntact := by
  rcases deleteUser_ok hx with rfl | ⟨s₁, hs₁, rfl | rfl⟩
  · exact h
  · exact h.softDeleteUser hs₁
  · exact (h.softDeleteUser hs₁).touch (fun _ => rfl) (fun _ => rfl) fun _ => rfl

theorem servicing_resetPassword {t : TokenHash} {hash : String} (h : s.ServicingIntact)
    (hx : s.resetPassword cfg e t hash = .ok (s', out)) : s'.ServicingIntact := by
  obtain ⟨t, r, s₁, -, -, -, -, rfl, hx⟩ := resetPassword_ok hx
  obtain ⟨-, -, rfl⟩ := insertRefreshToken_eq_some.1 hx
  exact ServicingIntact.touch (s := { s with resetTokens := _ }) h (fun _ => rfl) (fun _ => rfl)
    fun _ => rfl

/-- **A transaction keeps the relation intact iff both its sides are as they have to be.** -/
theorem Change.servicing_iff (h : s.ServicingIntact) (hx : c.apply cfg e s = .ok (s', out)) :
    s'.ServicingIntact ↔ c.keepsServicing s = true := by
  by_cases hw : .users ∈ c.writes
  · cases c with
    | createUser req => exact servicing_createUser_iff h hx
    | updateUser u level suspended => exact servicing_updateUser_iff h hx
    | grantServicedBy target service =>
      obtain ⟨rfl, -⟩ := Prod.mk.inj (Except.ok.inj hx)
      simp only [keepsServicing_grantServicedBy, Option.all_eq_true, Bool.and_eq_true,
        Bool.not_eq_true']
      exact h.append_iff
    | revokeServicedBy target service =>
      obtain ⟨rfl, -⟩ := Prod.mk.inj (Except.ok.inj hx)
      exact iff_of_true h.removeFromServicedBy rfl
    | deleteUser u purge => exact iff_of_true (servicing_deleteUser h hx) rfl
    | approveRegistration id req => exact servicing_approve_iff h hx
    | resetPassword t hash => exact iff_of_true (servicing_resetPassword h hx) rfl
    | linkChannel t service grant => exact servicing_link_iff h hx
    | onboard a t => exact iff_of_true (servicing_onboard h hx) rfl
    | release a epoch => exact servicing_release_iff h hx
    | _ => exact absurd hw (by simp [writes])
  · refine iff_of_true ?_ ?_
    · rw [ServicingIntact, (frame hx).users hw]
      exact h
    · cases c <;> first | rfl | exact absurd hw (by simp [writes])

end

/-! ### Runs -/

section

variable {cfg : IdentitySettings} {boot : DirBoot} {P : Pool DirAct Directory DirCall Reply}

/-- A transaction, unless it is rolled back, writes both sides of `serviced_by` as they have to
be. -/
def DirAct.keepsServicing (cfg : IdentitySettings) (e : DirEnv) (s : Directory) :
    {β : Type} → DirAct β → Bool
  | _, .commit c =>
    let s := { s with clock := e.now }
    (s.committed cfg e c).2.isOk → c.keepsServicing s
  | _, _ => true

/-- Every transaction is checked so. -/
def serviced (cfg : IdentitySettings) : Guard DirAct DirEnv Directory DirCall Reply :=
  ⟨fun _ _ => True, fun P _ _ a e => a.keepsServicing cfg e P.shared = true⟩

theorem servicing_step {β : Type} {a : DirAct β} {e : DirEnv} {s s' : Directory} {b : β}
    (h : s.ServicingIntact) (hg : a.keepsServicing cfg e s = true)
    (he : a.exec cfg e s = some (s', b)) : s'.ServicingIntact := by
  obtain ⟨-, he⟩ := DirAct.exec_eq he
  cases a with
  | commit c =>
    change ({ s with clock := e.now } : Directory).committed cfg e c = (s', b) at he
    simp only [DirAct.keepsServicing, decide_eq_true_eq, he] at hg
    rcases Directory.committed_eq he with ⟨err, -, rfl⟩ | ⟨o, rfl, -, hx⟩
    · exact h
    · exact (Change.servicing_iff (s := { s with clock := e.now }) h hx).2 (hg rfl)
  | _ =>
    obtain ⟨rfl, -⟩ := Prod.mk.inj he
    exact h

/-- **Whoever is in a `serviced_by` is a living service principal, and no privileged user is
serviced**, in every run whose transactions check both sides. -/
theorem serviced_by_intact (h : Run (identity cfg) (serviced cfg) (.init boot.directory) P) :
    ∀ u r, P.shared.users.lookup u = some r →
      (∀ v ∈ r.servicedBy, ∃ w, P.shared.users.lookup v = some w ∧ w.level = "service" ∧
        w.deletedAt = none) ∧
      (r.level = "admin" ∨ r.level = "service" → r.servicedBy = []) := by
  have hboot : boot.directory.ServicingIntact := fun u r hr =>
    ⟨fun v hv => absurd (boot.unserviced u r hr ▸ hv) (by simp),
      fun hne => absurd (boot.unserviced u r hr) hne⟩
  have hs : P.shared.ServicingIntact :=
    h.guarded (I := fun s _ => s.ServicingIntact) hboot fun hs hg he => servicing_step hs hg he
  intro u r hr
  refine ⟨(hs u r hr).1, fun hl => ?_⟩
  by_contra hne
  have hno : privileged r.level = false := (hs u r hr).2 hne
  rcases hl with hl | hl <;> rw [hl] at hno <;> exact absurd hno (by decide)

end

/-! ### A directory to run -/

/-- A user that the channel's principal services. -/
theorem serviced_by_intact_created : ∃ P, (identity {}).run
      (fun P _ _ a e => a.keepsServicing {} e P.shared) (.init Sample.dirBoot.directory)
      (.start (.createUser (Sample.newUser "tier1")) :: List.replicate 3 (.step 0 {})) = some P ∧
    ∃ r, P.shared.users.lookup "usr_" = some r ∧ r.servicedBy = ["usr_service_bot"] ∧
      ∀ v ∈ r.servicedBy, ∃ w, P.shared.users.lookup v = some w ∧ w.level = "service" ∧
        w.deletedAt = none := by
  have hplay : (((identity {}).run (fun P _ _ a e => a.keepsServicing {} e P.shared)
      (.init Sample.dirBoot.directory)
      (.start (.createUser (Sample.newUser "tier1")) :: List.replicate 3 (.step 0 {}))).map
        fun P => (P.shared.users.lookup "usr_").map UserRecord.servicedBy) =
      some (some ["usr_service_bot"]) := by
    decide +kernel
  obtain ⟨P, hP, h⟩ := Option.map_eq_some_iff.1 hplay
  obtain ⟨r, hr, hsvc⟩ := Option.map_eq_some_iff.1 h
  have hrun : Run (identity {}) (serviced {}) (.init Sample.dirBoot.directory) P :=
    Run.of_run (fun _ _ => trivial) (fun _ _ _ _ _ hc => hc) hP
  exact ⟨P, hP, r, hr, hsvc, (serviced_by_intact hrun "usr_" r hr).1⟩

/-- An admin is created with somebody in its `serviced_by`. -/
theorem serviced_by_not_intact : ¬ ∀ (cfg : IdentitySettings) (boot : DirBoot)
    (P : Pool DirAct Directory DirCall Reply),
    Run (identity cfg) .free (.init boot.directory) P →
    ∀ u r, P.shared.users.lookup u = some r →
      (∀ v ∈ r.servicedBy, ∃ w, P.shared.users.lookup v = some w ∧ w.level = "service" ∧
        w.deletedAt = none) ∧
      (r.level = "admin" ∨ r.level = "service" → r.servicedBy = []) := by
  intro hall
  have hplay : (((identity {}).run (fun _ _ _ _ _ => true) (.init Sample.dirBoot.directory)
      (.start (.createUser (Sample.newUser "admin")) :: List.replicate 3 (.step 0 {}))).map
        fun P => (P.shared.users.lookup "usr_").map fun r => (r.level, r.servicedBy)) =
      some (some ("admin", ["usr_service_bot"])) := by
    decide +kernel
  obtain ⟨P, hP, h⟩ := Option.map_eq_some_iff.1 hplay
  obtain ⟨r, hr, hx⟩ := Option.map_eq_some_iff.1 h
  obtain ⟨hl, hsvc⟩ := Prod.mk.inj hx
  have hnil := (hall {} Sample.dirBoot P
    (Run.of_run (fun _ _ => trivial) (fun _ _ _ _ _ _ => trivial) hP) "usr_" r hr).2 (.inl hl)
  exact absurd (hsvc.symm.trans hnil) (by simp)

end Backplane
