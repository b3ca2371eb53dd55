import Backplane.Identity.Presenting
import Backplane.Identity.Servicing

/-!
# What an eviction revokes

An eviction marks the agent as removed and gives its row, and that of its service principal, other
ids.  The agent tokens name the old id; the refresh tokens follow the service principal; the lists of
who services whom keep the old id.

* `Change.revoking` : nothing of an evicted agent is left when its ids are released or taken again.
* `Change.grants` : the transactions that let somebody service a user.
* `unlisted_apply` : nobody is serviced by somebody to whom it has not been granted.
* `evicted_step` : the refresh tokens of an evicted agent's service principal do not outlive it.
* `eviction_revokes` : what holds once an eviction has returned.
-/

namespace Backplane

open Concur Prog Directory

namespace Concur.Event

/-- This refresh token is issued. -/
def issues (h : TokenHash) (x : Event DirAct) : Bool :=
  x.tx.any fun (c, out) => (c.issues out).any fun (_, h') => h' = h

/-- The id of this agent is released. -/
def releases (a : AgentId) (x : Event DirAct) : Bool :=
  match x.tx with
  | some (.release a' _, _) => a' = a
  | _ => false

end Concur.Event

/-- Nothing of an evicted agent is left: no agent token when its id is active again, no refresh token of
its service principal when the ids are released, and no user is serviced by a service principal that
is about to be made. -/
def Change.revoking (cfg : IdentitySettings) (P : Pool DirAct Directory DirCall Reply) (s : Directory)
    (c : Change) : Bool :=
  spent cfg P s c && match c with
    | release a _ => (s.refreshTokens.select fun _ t =>
        t.live s.clock && decide (t.userId = serviceUserIdForAgent a)).all
          fun (h, _) => !stale P.log a (Event.issues h)
    | onboard a i => (s.users.lookup (serviceUserIdForAgent a)).isSome ||
        !((s.invitations.lookup i).any fun i => i.provisionsServiceUser) ||
        !s.listed (serviceUserIdForAgent a)
    | _ => true

/-- The transaction, unless it is rolled back, leaves nothing of an evicted agent. -/
def DirAct.revoking {β : Type} (cfg : IdentitySettings) (P : Pool DirAct Directory DirCall Reply)
    (e : DirEnv) (x : DirAct β) : Bool :=
  x.change.all fun c => e.fault || c.revoking cfg P { P.shared with clock := e.now }

/-- Nothing of an evicted agent is left when its ids are released or taken again. -/
def revoking (cfg : IdentitySettings) : Guard DirAct DirEnv Directory DirCall Reply :=
  ⟨fun _ _ => True, fun P _ _ x e => x.revoking cfg P e = true⟩

/-- An admin, or a link, lets this service principal service a user. -/
def Change.grants (s : Directory) (v : UserId) : Change → Bool
  | createUser req => v ∈ req.servicedBy
  | grantServicedBy _ service => service = v
  | linkChannel _ service grant => grant && service = v
  | approveRegistration id _ => (s.registrations.lookup id).any fun p => p.submittedBy = some v
  | _ => false

/-- Nobody lets this service principal service a user. -/
def ungranted (v : UserId) : Guard DirAct DirEnv Directory DirCall Reply :=
  ⟨fun _ _ => True, fun P _ _ x e => ∀ c, DirAct.change x = some c → e.fault = false →
    c.grants { P.shared with clock := e.now } v = false⟩

section

variable {cfg : IdentitySettings} {boot : DirBoot} {e : DirEnv} {s s' : Directory} {out : Outcome}
  {c : Change} {a : AgentId} {u v : UserId} {h : TokenHash}

/-! ### Who is listed -/

theorem unlisted_insertUser (hv : s.listed v = false) {r : UserRecord}
    (hx : s.insertUser r = some s') (hr : v ∉ r.servicedBy) : s'.listed v = false := by
  obtain ⟨-, -, -, rfl⟩ := insertUser_eq_some.1 hx
  rw [listed_eq_false] at hv ⊢
  intro u r' hr'
  rw [Table.lookup_insert] at hr'
  split_ifs at hr'
  · obtain rfl := Option.some.inj hr'
    exact hr
  · exact hv u r' hr'

theorem unlisted_updateUserRow (hv : s.listed v = false) {f : UserRecord → UserRecord}
    (hf : ∀ r, v ∉ r.servicedBy → v ∉ (f r).servicedBy) : (s.updateUserRow u f).listed v = false := by
  rw [listed_eq_false] at hv ⊢
  intro u' r' hr'
  rw [Directory.updateUserRow, Table.lookup_update_map] at hr'
  obtain ⟨r, hr, rfl⟩ := Option.map_eq_some_iff.1 hr'
  split_ifs
  · exact hf r (hv u' r hr)
  · exact hv u' r hr

theorem unlisted_softDeleteUser (hv : s.listed v = false) (hx : s.softDeleteUser u = some s') :
    s'.listed v = false := by
  obtain ⟨r, -, rfl | rfl⟩ := softDeleteUser_eq_some hx
  · exact hv
  · have hrow := unlisted_updateUserRow (u := u) (f := fun r => { r with deletedAt := some s.clock })
      hv fun _ => id
    rw [listed_eq_false] at hrow ⊢
    intro u' r' hr'
    obtain ⟨r, hr, rfl⟩ := Option.map_eq_some_iff.1 ((Table.lookup_mapRows _ _ _).symm.trans hr')
    exact fun hmem => hrow u' r hr (List.mem_of_mem_filter hmem)

theorem unlisted_of_users (hv : s.listed v = false) (hu : s'.users = s.users) :
    s'.listed v = false := by
  rw [listed, hu]
  exact hv

/-- **Nobody is serviced by somebody to whom it has not been granted.** -/
theorem unlisted_apply (hv : s.listed v = false) (hg : c.grants s v = false)
    (hx : c.apply cfg e s = .ok (s', out)) : s'.listed v = false := by
  by_cases hw : .users ∈ c.writes
  · cases c with
    | createUser req =>
      obtain ⟨r, s₁, -, hins, -, hsvc, -, hx⟩ := createUser_ok hx
      have hv₁ : s₁.listed v = false :=
        unlisted_insertUser hv hins (hsvc ▸ of_decide_eq_false hg)
      rcases hx with ⟨-, rfl⟩ | ⟨t, x, -, hx⟩
      · exact hv₁
      · obtain ⟨-, -, rfl⟩ := insertRefreshToken_eq_some.1 hx
        exact hv₁
    | updateUser u level suspended =>
      obtain ⟨-, -, x, rfl⟩ := updateUser_ok hx
      exact unlisted_updateUserRow hv fun _ => id
    | grantServicedBy target service =>
      obtain ⟨rfl, -⟩ := Prod.mk.inj (Except.ok.inj hx)
      have hne : service ≠ v := of_decide_eq_false hg
      refine unlisted_updateUserRow hv fun r hr => ?_
      split_ifs
      · exact hr
      · simpa [hr] using hne.symm
    | revokeServicedBy target service =>
      obtain ⟨rfl, -⟩ := Prod.mk.inj (Except.ok.inj hx)
      exact unlisted_updateUserRow hv fun r hr hmem => hr (List.mem_of_mem_filter hmem)
    | deleteUser u purge =>
      rcases deleteUser_ok hx with rfl | ⟨s₁, hs₁, rfl | rfl⟩
      · exact hv
      · exact unlisted_softDeleteUser hv hs₁
      · exact unlisted_updateUserRow (unlisted_softDeleteUser hv hs₁) fun _ => id
    | approveRegistration id req =>
      obtain ⟨p, r, s₁, t, hp, hins, -, hsvc, -, -, rfl⟩ := approveRegistration_ok hx
      have hr : v ∉ r.servicedBy := by
        intro hmem
        rw [hsvc, Option.mem_toList] at hmem
        simp [Change.grants, hp, hmem] at hg
      exact unlisted_of_users (unlisted_insertUser hv hins hr) rfl
    | resetPassword t hash =>
      obtain ⟨t, r, s₁, -, -, -, -, rfl, hx⟩ := resetPassword_ok hx
      obtain ⟨-, -, rfl⟩ := insertRefreshToken_eq_some.1 hx
      exact unlisted_updateUserRow (s := s) hv fun _ => id
    | linkChannel t service grant =>
      obtain ⟨t, r, s₁, -, -, rfl, ⟨-, rfl⟩ | ⟨rfl, -, rfl⟩⟩ := linkChannel_ok hx
      · exact hv
      · have hne : service ≠ v := of_decide_eq_false hg
        refine unlisted_updateUserRow (s := s) hv fun r hr => ?_
        split_ifs
        · exact hr
        · simpa [hr] using hne.symm
    | onboard a t =>
      obtain ⟨t, -, s₁, hs₁, hx⟩ := onboard_ok hx
      have hv₁ : s₁.listed v = false := by
        rcases hs₁ with ⟨-, hins⟩ | ⟨r, -, -, rfl⟩
        · obtain ⟨-, rfl⟩ := insertAgent_eq_some.1 hins
          exact hv
        · exact hv
      rcases hx with ⟨-, rfl⟩ | ⟨-, s₂, x, hsvc, hx⟩
      · exact hv₁
      · obtain ⟨-, -, rfl⟩ := insertRefreshToken_eq_some.1 hx
        rcases provisionServiceUser_ok hsvc with rfl | ⟨r, -, -, hnil, -, hins⟩
        · exact hv₁
        · have hv₂ : s₂.listed v = false := unlisted_insertUser hv₁ hins (by simp [hnil])
          exact hv₂
    | release a epoch =>
      rcases releaseId_users hx with ⟨hus, -, -, -⟩ | ⟨r, u', hr, -, -, hus, -, -, -⟩
      · exact unlisted_of_users hv hus
      · rw [listed_eq_false] at hv ⊢
        rw [hus]
        intro u r' hr'
        simp only [renameUser, Table.lookup_renamed] at hr'
        split_ifs at hr'
        · obtain rfl := Option.some.inj hr'
          exact hv _ r hr
        · exact hv u r' hr'
    | _ => exact absurd hw (by simp [Change.writes])
  · exact unlisted_of_users hv ((Change.frame hx).users hw)

/-- A service principal comes with an invitation that says so. -/
theorem onboard_provisions {x : UserId × TokenHash} {t : TokenHash}
    (hx : s.onboard cfg e a t = .ok (s', .onboarded a (some x))) :
    (s.invitations.lookup t).any (fun i => i.provisionsServiceUser) = true := by
  unfold onboard at hx
  split_ifs at hx
  split at hx
  · exact absurd hx (by simp)
  · rename_i s₀ i hi
    obtain ⟨hinv, -, rfl⟩ := consumeInvitation_eq_some hi
    obtain ⟨s₁, -, hx⟩ := bind_eq_ok.1 hx
    split_ifs at hx with hp
    · exact absurd hx (by simp)
    · rw [hinv, Option.any_some]
      simpa using hp

/-- Nobody is serviced by a service principal that has just been made. -/
theorem unlisted_onboard {P : Pool DirAct Directory DirCall Reply} {x : UserId × TokenHash}
    {t : TokenHash} (hg : (Change.onboard a t).revoking cfg P s = true)
    (hno : s.users.lookup (serviceUserIdForAgent a) = none)
    (hx : (Change.onboard a t).apply cfg e s = .ok (s', .onboarded a (some x))) :
    s'.listed (serviceUserIdForAgent a) = false := by
  have hp := onboard_provisions hx
  have hl : s.listed (serviceUserIdForAgent a) = false := by
    simpa [Change.revoking, hno, hp] using (Bool.and_eq_true_iff.1 hg).2
  exact unlisted_apply hl rfl hx

/-! ### Refresh tokens of an evicted agent's service principal -/

theorem serviceUserIdForAgent_inj {a' : AgentId}
    (h : serviceUserIdForAgent a = serviceUserIdForAgent a') : a = a' :=
  (String.append_right_inj _).1 h

/-- Only releasing the id of an agent renames its service principal. -/
theorem follow_service (h : ∀ epoch, c ≠ .release a epoch) :
    c.follow s (serviceUserIdForAgent a) = serviceUserIdForAgent a := by
  cases c with
  | release a' epoch =>
    refine if_neg fun hc => ?_
    exact h epoch (by rw [serviceUserIdForAgent_inj hc.1])
  | _ => rfl

/-- Live refresh tokens that were there and are not issued again are those of the service principal of
an agent whose id has not been released since. -/
def Withheld (a : AgentId) (h : TokenHash) (l₁ : Log DirAct) (s : Directory) (log : Log DirAct) : Prop :=
  ∃ l, log = l₁ ++ l ∧ ((∀ y ∈ l, Event.issues h y.2 = false) →
    ∀ u, s.HasRefresh h u → u = serviceUserIdForAgent a ∧ ∀ y ∈ l, Event.releases a y.2 = false)

/-- **A refresh token of an evicted agent's service principal does not outlive the release of its
id.** -/
theorem evicted_step {P : Pool DirAct Directory DirCall Reply} {i : ℕ} {β : Type} {x : DirAct β}
    {b : β} {l₁ : Log DirAct} (hstale : stale l₁ a (Event.issues h) = true)
    (hI : Withheld a h l₁ P.shared P.log) (hg : x.revoking cfg P e = true)
    (he : x.exec cfg e P.shared = some (s', b)) : Withheld a h l₁ s' (P.log ++ [(i, ⟨x, b⟩)]) := by
  obtain ⟨l, hl, hI⟩ := hI
  refine ⟨l ++ [(i, ⟨x, b⟩)], by rw [hl, List.append_assoc], fun hno u hu => ?_⟩
  have hno' : ∀ y ∈ l, Event.issues h y.2 = false := fun y hy => hno y (List.mem_append_left _ hy)
  have hlast : Event.issues h ⟨x, b⟩ = false := hno (i, ⟨x, b⟩) (by simp)
  have hnow : P.shared.clock ≤ e.now := (DirAct.exec_eq he).1
  rcases DirAct.exec_cases he with ⟨hnone, hs'⟩ | ⟨c, out, htx, hc, hf, hx⟩
  · have hu' : P.shared.HasRefresh h u := hu.earlier (by rw [hs']) (by rw [hs']; exact hnow)
    obtain ⟨rfl, hrel⟩ := hI hno' u hu'
    refine ⟨rfl, fun y hy => ?_⟩
    rcases List.mem_append.1 hy with hy | hy
    · exact hrel y hy
    · rw [List.mem_singleton.1 hy, Event.releases, hnone]
  · rcases refreshTokens_ok hx hu with hiss | ⟨-, v, hv, hfol⟩
    · rw [Event.issues, htx] at hlast
      simp [hiss] at hlast
    · obtain ⟨rfl, hrel⟩ := hI hno' v (hv.earlier rfl hnow)
      have hc' : ∀ epoch, c ≠ .release a epoch := by
        rintro epoch rfl
        -- the id is not released while the token is live
        obtain ⟨t, ht, hlive, ht'⟩ := hv
        rw [DirAct.revoking, hc, Option.all_some, hf, Bool.false_or] at hg
        have hall := List.all_eq_true.1 (Bool.and_eq_true_iff.1 hg).2
        have hst : stale P.log a (Event.issues h) = true := hl ▸ stale_later hstale hno'
        have := hall (h, t) (Table.mem_select.2 ⟨ht, by simp [hlive, ht']⟩)
        simp [hst] at this
      refine ⟨hfol.symm.trans (follow_service hc'), fun y hy => ?_⟩
      rcases List.mem_append.1 hy with hy | hy
      · exact hrel y hy
      · rw [List.mem_singleton.1 hy, Event.releases, htx]
        cases c with
        | release a' epoch => exact decide_eq_false fun h => hc' epoch (by rw [h])
        | _ => rfl

/-- What `evict_agent` has performed when it has returned. -/
theorem evictAgent_returned {tr : List (Event DirAct)} {o : Outcome}
    (h : After (Identity.evictAgent a) tr (.ret (.ok o))) :
    (∃ r, tr = [⟨.getAgent a, r⟩]) ∨ ∃ r o' b epoch, tr = [⟨.getAgent a, r⟩,
      ⟨.commit (.evict a), .ok o'⟩, ⟨.fault, b⟩, ⟨.epoch, epoch⟩,
      ⟨.commit (.release a epoch), .ok o⟩] := by
  obtain ⟨r, tr₁, rfl, h₁⟩ := h.perform_bind
  cases r with
  | none => exact absurd (After.ret_iff.1 h₁).2 (by simp)
  | some r =>
    dsimp only at h₁
    split_ifs at h₁
    · exact .inl ⟨some r, by rw [(After.ret_iff.1 h₁).1]⟩
    · obtain ⟨out, tr₂, rfl, h₂⟩ := h₁.perform_bind
      cases out with
      | error err => exact absurd (After.ret_iff.1 h₂).2 (by simp)
      | ok o' =>
        obtain ⟨b, tr₃, rfl, h₃⟩ := h₂.perform_bind
        cases b with
        | true => exact absurd (After.ret_iff.1 h₃).2 (by simp)
        | false =>
          obtain ⟨epoch, tr₄, rfl, h₄⟩ := h₃.perform_bind
          obtain ⟨out, tr₅, rfl, h₅⟩ := (Prog.bind_ret (perform _) ▸ h₄).perform_bind
          obtain ⟨rfl, rfl⟩ := After.ret_iff.1 h₅
          exact .inr ⟨_, _, _, _, rfl⟩

/-- A request that has committed an eviction and returned has released the id since. -/
theorem released_of_returned {tr₁ tr₂ : List (Event DirAct)} {x : Event DirAct} {o : Outcome}
    (h : After (Identity.evictAgent a) (tr₁ ++ x :: tr₂) (.ret (.ok o))) (hx : x.evicts a = true) :
    ∃ y ∈ tr₂, y.releases a = true := by
  rcases evictAgent_returned h with ⟨r, htr⟩ | ⟨r, o', b, epoch, htr⟩
  · have hmem : x ∈ [(⟨.getAgent a, r⟩ : Event DirAct)] := htr ▸ by simp
    obtain rfl := List.mem_singleton.1 hmem
    exact absurd hx (by simp [Event.evicts, Event.tx])
  · -- the last event is the release, so it is not the eviction
    have hrel : Event.releases a ⟨.commit (.release a epoch), .ok o⟩ = true := decide_eq_true rfl
    rcases List.eq_nil_or_concat' tr₂ with rfl | ⟨tr₂, z, rfl⟩
    · have hlast := congrArg List.getLast? htr
      simp at hlast
      obtain rfl := hlast
      exact absurd hx (by simp [Event.evicts, Event.tx])
    · have hlast := congrArg List.getLast? htr
      rw [← List.cons_append, ← List.append_assoc, List.getLast?_concat] at hlast
      obtain rfl := Option.some.inj hlast
      exact ⟨_, by simp, hrel⟩

end

/-! ### Runs -/

/-- A request that presents a token of the agent, not signed since the eviction, and looks the agent up
when that has returned is not accepted. -/
def AgentTokensRefused (a : AgentId) (l₂ l₃ : Log DirAct)
    (P : Pool DirAct Directory DirCall Reply) : Prop :=
  ∀ j call o t, P.threads[j]? = some ⟨call, .ret (.ok o)⟩ → call.presents = some t → t.agentId = a →
    (∀ y ∈ l₂ ++ l₃, Event.signs t y.2 = false) → ∀ y ∈ l₃.past j, y.finds = none

/-- A refresh token of the service principal of the agent, not issued since the eviction, is not
exchanged when that has returned. -/
def RefreshTokensRefused (a : AgentId) (s : Directory) (l₂ l₃ : Log DirAct) : Prop :=
  ∀ h, (∀ r, s.refreshTokens.lookup h = some r → r.userId = serviceUserIdForAgent a) →
    (∀ y ∈ l₂ ++ l₃, Event.issues h y.2 = false) → ∀ y ∈ l₃, ∀ o, y.2.tx ≠ some (.refresh h, o)

/-- A service principal that is made when the agent onboards is in nobody's `serviced_by` until it has
been granted. -/
def Unserviced (cfg : IdentitySettings) (g : Guard DirAct DirEnv Directory DirCall Reply) (a : AgentId)
    (P : Pool DirAct Directory DirCall Reply) : Prop :=
  ∀ P₁ P₂ j y t k, Run (identity cfg) g P P₁ → P₁.log = P.log ++ [(j, y)] →
    y.tx = some (.onboard a t, .onboarded a (some (serviceUserIdForAgent a, k))) →
    P.shared.users.lookup (serviceUserIdForAgent a) = none →
    Run (identity cfg) (ungranted (serviceUserIdForAgent a)) P₁ P₂ →
    P₂.shared.listed (serviceUserIdForAgent a) = false

section

variable {cfg : IdentitySettings} {boot : DirBoot} {a : AgentId}
  {P₁ P₂ P₃ : Pool DirAct Directory DirCall Reply} {i : ℕ} {x : Event DirAct} {l₂ l₃ : Log DirAct}
  {o : Outcome}

theorem unserviced_of_guard : Unserviced cfg (revoking cfg) a P₃ := by
  intro P₄ P₅ j y t k h₄ hlog hy hno h₅
  obtain ⟨Q, call, β, x, f, e, s, b, hrun, hl, -, hg, he, rfl, hrest⟩ :=
    h₄.exists_step hlog (List.prefix_refl _)
  have hs₄ : P₄.shared = s := hrest.shared_eq (by rw [hlog, Pool.fired, hl])
  have hQ : Q.shared = P₃.shared := hrun.shared_eq hl
  have hfresh : P₄.shared.listed (serviceUserIdForAgent a) = false := by
    rcases DirAct.exec_cases he with ⟨hnone, -⟩ | ⟨c, out, htx, hc, hf, hx⟩
    · exact absurd (hnone.symm.trans hy) (by simp)
    · obtain ⟨rfl, rfl⟩ := Prod.mk.inj (Option.some.inj (htx.symm.trans hy))
      have hg' : x.revoking cfg Q e = true := hg
      rw [DirAct.revoking, hc, Option.all_some, hf, Bool.false_or] at hg'
      exact hs₄ ▸ unlisted_onboard hg' (hQ ▸ hno) hx
  refine h₅.guarded (I := fun s _ => s.listed (serviceUserIdForAgent a) = false) hfresh ?_
  intro Q i call β x e s b hv hg he
  rcases DirAct.exec_cases he with ⟨-, hs⟩ | ⟨c, out, -, hc, hf, hx⟩
  · exact unlisted_of_users hv (by rw [hs])
  · have hv' : ({ Q.shared with clock := e.now } : Directory).listed (serviceUserIdForAgent a) = false :=
      unlisted_of_users hv rfl
    exact unlisted_apply hv' (hg c hc hf) hx

theorem spent_of_guard {β : Type} (P : Pool DirAct Directory DirCall Reply) (i : ℕ) (call : DirCall)
    (x : DirAct β) (e : DirEnv) (hg : (revoking cfg).fire P i call x e) (c : Change)
    (hc : x.change = some c) (hf : e.fault = false) :
    spent cfg P { P.shared with clock := e.now } c = true := by
  have hg' : x.revoking cfg P e = true := hg
  rw [DirAct.revoking, hc, Option.all_some, hf, Bool.false_or] at hg'
  exact (Bool.and_eq_true_iff.1 hg').1

/-- The agent tokens signed before the eviction are stale from then on. -/
theorem agentTokens_refused (h : Run (identity cfg) (revoking cfg) (.init boot.directory) P₃)
    (hl₃ : P₃.log = (P₁.log ++ (i, x) :: l₂) ++ l₃) (hx : x.evicts a = true) :
    AgentTokensRefused a l₂ l₃ P₃ := by
  intro j call o t hth hpres ha hno
  obtain rfl := ha
  -- whatever it has looked up since then was not active
  have hlater : ∀ y ∈ l₃.past j, y.finds ≠ some true := by
    intro y hy
    obtain ⟨l₄, l₅, rfl⟩ := List.append_of_mem (Log.mem_past.1 hy)
    rw [← List.append_assoc] at hl₃
    obtain ⟨Q, call', β, z, k, e, s, b, hrun, hl, ht, -, he, rfl, hrest⟩ :=
      h.exists_step hl₃ List.nil_prefix
    have hlt : j < Q.threads.length := (List.getElem?_eq_some_iff.1 ht).1
    have hnext : (Q.fired j call' z k s b).threads[j]? = some ⟨call', k b⟩ := by
      simp [Pool.fired, hlt]
    obtain ⟨p, hp⟩ := hrest.thread hnext
    obtain rfl : call = call' := congrArg Thread.call (Option.some.inj (hth.symm.trans hp))
    have hstale : stale Q.log t.agentId (Event.signs t) = true := by
      have hev : stale (P₁.log ++ [(i, x)]) t.agentId (Event.signs t) = true := by
        rw [stale_append, if_pos hx]
      have hsplit : Q.log = (P₁.log ++ [(i, x)]) ++ (l₂ ++ l₄) := by rw [hl]; simp
      rw [hsplit]
      refine stale_later hev fun y hy => hno y ?_
      rcases List.mem_append.1 hy with hy | hy
      · exact List.mem_append_left _ hy
      · exact List.mem_append_right _ (List.mem_append_left _ hy)
    exact (fresh_of_run spent_of_guard hrun).rejects ht hpres hstale he
      (hrun.obeys obeys_body (fun _ _ => trivial) ht)
  have hob := h.obeys obeys_body (fun _ _ => trivial) hth
  have hfound : (authOf P₃.log j call).found = true :=
    hob t (token_after.trans hpres) o rfl
  rw [authOf, hl₃, Log.past, List.filter_append, List.map_append, Discipline.after,
    List.foldl_append] at hfound
  exact found_after hlater hfound

theorem exec_evicts_refreshTokens {β : Type} {z : DirAct β} {e : DirEnv} {s s' : Directory} {b : β}
    (he : z.exec cfg e s = some (s', b)) (hev : Event.evicts a ⟨z, b⟩ = true) :
    s'.refreshTokens = s.refreshTokens := by
  rcases DirAct.exec_cases he with ⟨-, hs'⟩ | ⟨c, out, htx, -, -, hx⟩
  · rw [hs']
  · rw [Event.evicts, htx] at hev
    refine (Change.frame hx).refreshTokens ?_
    cases c with
    | evict a' => simp [Change.writes]
    | _ => exact absurd hev (by simp)

/-- The refresh tokens that were there at the eviction do not outlive the release. -/
theorem refreshTokens_refused (h₂ : Run (identity cfg) (revoking cfg) P₁ P₂)
    (hl₂ : P₂.log = P₁.log ++ (i, x) :: l₂) (hx : x.evicts a = true)
    (hrel : ∃ y ∈ l₂, Event.releases a y.2 = true)
    (h₃ : Run (identity cfg) (revoking cfg) P₂ P₃) (hl₃ : P₃.log = P₂.log ++ l₃) :
    RefreshTokensRefused a P₁.shared l₂ l₃ := by
  intro h hown hno y hy o hredeem
  obtain ⟨j, y⟩ := y
  have hstale : stale (P₁.log ++ [(i, x)]) a (Event.issues h) = true := by
    rw [stale_append, if_pos hx]
  obtain ⟨Q₁, call₁, β₁, x₁, k₁, e₁, s₁, b₁, hrun₁, hlog₁, -, -, he₁, rfl, hrest₁⟩ :=
    h₂.exists_step hl₂ (List.prefix_refl _)
  have hI₁ : Withheld a h (P₁.log ++ [(i, ⟨x₁, b₁⟩)]) s₁ (Q₁.log ++ [(i, ⟨x₁, b₁⟩)]) := by
    refine ⟨[], by rw [hlog₁, List.append_nil], fun _ u hu => ⟨?_, by simp⟩⟩
    obtain ⟨t, ht, -, rfl⟩ := hu
    rw [exec_evicts_refreshTokens he₁ hx, hrun₁.shared_eq hlog₁] at ht
    exact hown t ht
  obtain ⟨l₄, l₅, rfl⟩ := List.append_of_mem hy
  rw [← List.append_assoc] at hl₃
  obtain ⟨Q₂, call₂, β₂, x₂, k₂, e₂, s₂, b₂, hrun₂, hlog₂, -, -, he₂, rfl, -⟩ :=
    h₃.exists_step hl₃ (List.prefix_append _ _)
  obtain ⟨l, hl, hI₂⟩ := (hrest₁.trans hrun₂).guarded
    (I := Withheld a h (P₁.log ++ [(i, ⟨x₁, b₁⟩)])) hI₁ fun hI hg he => evicted_step hstale hI hg he
  obtain rfl : l = l₂ ++ l₄ := by
    rw [hlog₂, hl₂] at hl
    simpa using hl.symm
  rcases DirAct.exec_cases he₂ with ⟨hnone, -⟩ | ⟨c, out, htx, -, -, hx₂⟩
  · exact absurd (hnone.symm.trans hredeem) (by simp)
  · obtain ⟨rfl, rfl⟩ := Prod.mk.inj (Option.some.inj (htx.symm.trans hredeem))
    obtain ⟨t, r, s', ht, hlive, -⟩ := refresh_ok hx₂
    have hu : Q₂.shared.HasRefresh h t.userId :=
      HasRefresh.earlier ⟨t, ht, hlive, rfl⟩ rfl (DirAct.exec_eq he₂).1
    obtain ⟨-, hrel'⟩ := hI₂ (fun z hz => hno z (by
      rcases List.mem_append.1 hz with hz | hz
      · exact List.mem_append_left _ hz
      · exact List.mem_append_right _ (List.mem_append_left _ hz))) _ hu
    obtain ⟨z, hz, hz'⟩ := hrel
    exact absurd (hz'.symm.trans (hrel' z (List.mem_append_left _ hz))) (by simp)

/-- **An eviction revokes the identity.**  Once it has returned, no agent token signed and no refresh
token issued before it is accepted, and a service principal made for the next agent of that id
services nobody until that has been granted, in every run in which nothing of an evicted agent is left
when its ids are released or taken again. -/
theorem eviction_revokes (h₁ : Run (identity cfg) (revoking cfg) (.init boot.directory) P₁)
    (h₂ : Run (identity cfg) (revoking cfg) P₁ P₂) (hl₂ : P₂.log = P₁.log ++ (i, x) :: l₂)
    (hx : x.evicts a = true) (hret : P₂.threads[i]? = some ⟨.evict a, .ret (.ok o)⟩)
    (h₃ : Run (identity cfg) (revoking cfg) P₂ P₃) (hl₃ : P₃.log = P₂.log ++ l₃) :
    AgentTokensRefused a l₂ l₃ P₃ ∧ RefreshTokensRefused a P₁.shared l₂ l₃ ∧
      Unserviced cfg (revoking cfg) a P₃ := by
  have hafter := (h₁.trans h₂).after hret
  rw [Pool.past, hl₂, Log.past, List.filter_append, List.map_append,
    List.filter_cons_of_pos (by simp), List.map_cons] at hafter
  obtain ⟨y, hy, hrel⟩ := released_of_returned hafter hx
  have hmem : (i, y) ∈ l₂ := Log.mem_past.1 hy
  refine ⟨agentTokens_refused ((h₁.trans h₂).trans h₃) (hl₂ ▸ hl₃) hx, ?_, unserviced_of_guard⟩
  exact refreshTokens_refused h₂ hl₂ hx ⟨(i, y), hmem, hrel⟩ h₃ hl₃

end

/-! ### Evictions to run -/

namespace Sample

/-- The agent whose eviction has returned. -/
def evicted : Thread DirAct DirCall Reply → Option (AgentId × Outcome)
  | ⟨.evict a, .ret (.ok o)⟩ => some (a, o)
  | _ => none

def accepted : Thread DirAct DirCall Reply → Option (AgentToken × Outcome)
  | ⟨call, .ret (.ok o)⟩ => call.presents.map (·, o)
  | _ => none

theorem evicted_eq_some {th : Thread DirAct DirCall Reply} {a : AgentId} {o : Outcome}
    (h : evicted th = some (a, o)) : th = ⟨.evict a, .ret (.ok o)⟩ := by
  unfold evicted at h
  split at h
  · obtain ⟨rfl, rfl⟩ := Prod.mk.inj (Option.some.inj h)
    rfl
  · exact absurd h (by simp)

theorem accepted_eq_some {th : Thread DirAct DirCall Reply} {t : AgentToken} {o : Outcome}
    (h : accepted th = some (t, o)) : ∃ call, th = ⟨call, .ret (.ok o)⟩ ∧ call.presents = some t := by
  unfold accepted at h
  split at h
  · rename_i call o'
    obtain ⟨t', ht, h⟩ := Option.map_eq_some_iff.1 h
    obtain ⟨rfl, rfl⟩ := Prod.mk.inj h
    exact ⟨call, rfl, ht⟩
  · exact absurd h (by simp)

/-- What happened from the eviction on. -/
theorem evicts_split {log₁ log₂ : Log DirAct} {a : AgentId} {i : ℕ} (hpre : log₁ <+: log₂)
    (h : ((log₂.drop log₁.length).head?.any fun y => y.1 = i ∧ y.2.evicts a) = true) :
    ∃ x l, log₂ = log₁ ++ (i, x) :: l ∧ x.evicts a = true := by
  obtain ⟨l, rfl⟩ := hpre
  rw [List.drop_left] at h
  cases l with
  | nil => exact absurd h (by simp)
  | cons y l =>
    obtain ⟨rfl, hev⟩ : y.1 = i ∧ y.2.evicts a = true := by simpa using h
    exact ⟨y.2, l, rfl, hev⟩

end Sample

/-- The agent of `inviteBoot` is evicted when its tokens have expired, and another onboards. -/
theorem eviction_revokes_reused : ∃ P₁ P₂ P₃ l₂ l₃,
    (identity {}).run (fun P _ _ x e => x.revoking {} P e) (.init Sample.inviteBoot.directory)
      (.start (.createInvitation "i3" 9000000 true) :: .step 0 {} :: .start (.onboard "bot" "i1") ::
        List.replicate 2 (.step 1 {}) ++ [.start (.evict "bot"), .step 2 {}]) = some P₁ ∧
    (identity {}).run (fun P _ _ x e => x.revoking {} P e) P₁
      (List.replicate 4 (.step 2 { now := 3000000 })) = some P₂ ∧
    (identity {}).run (fun P _ _ x e => x.revoking {} P e) P₂
      (.start (.onboard "bot" "i3") :: List.replicate 2 (.step 3 { now := 3000000, secret := "s" }) ++
        [.start (.handshake ⟨"bot", 86400, ""⟩ "bot" false), .step 4 { now := 3000000 }]) = some P₃ ∧
    AgentTokensRefused "bot" l₂ l₃ P₃ ∧ RefreshTokensRefused "bot" P₁.shared l₂ l₃ ∧
      Unserviced {} (revoking {}) "bot" P₃ := by
  have hplay : (((identity {}).run (fun P _ _ x e => x.revoking {} P e)
      (.init Sample.inviteBoot.directory)
      (.start (.createInvitation "i3" 9000000 true) :: .step 0 {} :: .start (.onboard "bot" "i1") ::
        List.replicate 2 (.step 1 {}) ++ [.start (.evict "bot"), .step 2 {}])).bind fun P₁ =>
    ((identity {}).run (fun P _ _ x e => x.revoking {} P e) P₁
      (List.replicate 4 (.step 2 { now := 3000000 }))).bind fun P₂ =>
    ((identity {}).run (fun P _ _ x e => x.revoking {} P e) P₂
      (.start (.onboard "bot" "i3") :: List.replicate 2 (.step 3 { now := 3000000, secret := "s" }) ++
        [.start (.handshake ⟨"bot", 86400, ""⟩ "bot" false), .step 4 { now := 3000000 }])).map fun _ =>
      ((P₂.log.drop P₁.log.length).head?.any fun y => y.1 = 2 ∧ y.2.evicts "bot",
        P₂.threads[2]?.bind Sample.evicted)) =
      some (true, some ("bot", .released "deleted_bot_3000000"
        (some "deleted_usr_service_bot_3000000"))) := by
    decide +kernel
  obtain ⟨P₁, hP₁, h⟩ := Option.bind_eq_some_iff.1 hplay
  obtain ⟨P₂, hP₂, h⟩ := Option.bind_eq_some_iff.1 h
  obtain ⟨P₃, hP₃, h⟩ := Option.map_eq_some_iff.1 h
  obtain ⟨hev, hret⟩ := Prod.mk.inj h
  obtain ⟨th, hth, hret⟩ := Option.bind_eq_some_iff.1 hret
  obtain rfl := Sample.evicted_eq_some hret
  have h₁ : Run (identity {}) (revoking {}) (.init Sample.inviteBoot.directory) P₁ :=
    Run.of_run (fun _ _ => trivial) (fun _ _ _ _ _ hc => hc) hP₁
  have h₂ : Run (identity {}) (revoking {}) P₁ P₂ :=
    Run.of_run (fun _ _ => trivial) (fun _ _ _ _ _ hc => hc) hP₂
  have h₃ : Run (identity {}) (revoking {}) P₂ P₃ :=
    Run.of_run (fun _ _ => trivial) (fun _ _ _ _ _ hc => hc) hP₃
  obtain ⟨l, hl⟩ := h₂.log_append
  obtain ⟨l₃, hl₃⟩ := h₃.log_append
  obtain ⟨x, l₂, hl₂, hx⟩ := Sample.evicts_split ⟨l, hl.symm⟩ hev
  exact ⟨P₁, P₂, P₃, l₂, l₃, hP₁, hP₂, hP₃, eviction_revokes h₁ h₂ hl₂ hx hth h₃ hl₃⟩

/-- The token of the evicted agent lets its bearer in as the next one of that id. -/
theorem eviction_does_not_revoke : ¬ ∀ (cfg : IdentitySettings) (boot : DirBoot)
    (P₁ P₂ P₃ : Pool DirAct Directory DirCall Reply) (a : AgentId) (i : ℕ) (x : Event DirAct)
    (l₂ l₃ : Log DirAct) (o : Outcome), Run (identity cfg) .free (.init boot.directory) P₁ →
    Run (identity cfg) .free P₁ P₂ → P₂.log = P₁.log ++ (i, x) :: l₂ → x.evicts a = true →
    P₂.threads[i]? = some ⟨.evict a, .ret (.ok o)⟩ → Run (identity cfg) .free P₂ P₃ →
    P₃.log = P₂.log ++ l₃ →
    AgentTokensRefused a l₂ l₃ P₃ ∧ RefreshTokensRefused a P₁.shared l₂ l₃ ∧
      Unserviced cfg .free a P₃ := by
  intro hall
  have hplay : (((identity {}).run (fun _ _ _ _ _ => true) (.init Sample.inviteBoot.directory)
      (Sample.onboarded ++ [.start (.evict "bot"), .step 1 {}])).bind fun P₁ =>
    ((identity {}).run (fun _ _ _ _ _ => true) P₁ (List.replicate 4 (.step 1 {}))).bind fun P₂ =>
    ((identity {}).run (fun _ _ _ _ _ => true) P₂
      (.start (.onboard "bot" "i2") :: List.replicate 2 (.step 2 { secret := "s" }) ++
        .start (.handshake ⟨"bot", 86400, ""⟩ "bot" false) :: List.replicate 3 (.step 3 {}))).map
      fun P₃ => (((P₂.log.drop P₁.log.length).head?.any fun y => y.1 = 1 ∧ y.2.evicts "bot",
        (P₃.log.drop (P₁.log.length + 1)).all fun y => !Event.signs ⟨"bot", 86400, ""⟩ y.2,
        (Log.past (P₃.log.drop P₂.log.length) 3).all fun y => y.finds.isNone),
        P₂.threads[1]?.bind Sample.evicted, P₃.threads[3]?.bind Sample.accepted)) =
      some ((true, true, false), some ("bot", .released "deleted_bot_0"
        (some "deleted_usr_service_bot_0")), some (⟨"bot", 86400, ""⟩, .accepted "bot")) := by
    decide +kernel
  obtain ⟨P₁, hP₁, h⟩ := Option.bind_eq_some_iff.1 hplay
  obtain ⟨P₂, hP₂, h⟩ := Option.bind_eq_some_iff.1 h
  obtain ⟨P₃, hP₃, h⟩ := Option.map_eq_some_iff.1 h
  simp only [Prod.mk.injEq] at h
  obtain ⟨⟨hev, hno, hfinds⟩, hret, hacc⟩ := h
  obtain ⟨th, hth, hret⟩ := Option.bind_eq_some_iff.1 hret
  obtain rfl := Sample.evicted_eq_some hret
  obtain ⟨th', hth', hacc⟩ := Option.bind_eq_some_iff.1 hacc
  obtain ⟨call, rfl, hpres⟩ := Sample.accepted_eq_some hacc
  have h₁ : Run (identity {}) .free (.init Sample.inviteBoot.directory) P₁ :=
    Run.of_run (fun _ _ => trivial) (fun _ _ _ _ _ _ => trivial) hP₁
  have h₂ : Run (identity {}) .free P₁ P₂ :=
    Run.of_run (fun _ _ => trivial) (fun _ _ _ _ _ _ => trivial) hP₂
  have h₃ : Run (identity {}) .free P₂ P₃ :=
    Run.of_run (fun _ _ => trivial) (fun _ _ _ _ _ _ => trivial) hP₃
  obtain ⟨l, hl⟩ := h₂.log_append
  obtain ⟨l₃, hl₃⟩ := h₃.log_append
  obtain ⟨x, l₂, hl₂, hx⟩ := Sample.evicts_split ⟨l, hl.symm⟩ hev
  have hrefused := (hall {} Sample.inviteBoot P₁ P₂ P₃ "bot" 1 x l₂ l₃ _ h₁ h₂ hl₂ hx hth h₃ hl₃).1
  have hall₃ := hrefused 3 call _ _ hth' hpres rfl fun y hy => by
    rw [hl₃, hl₂] at hno
    simpa using List.all_eq_true.1 hno y (by simpa using hy)
  rw [hl₃, List.drop_left, List.all_eq_false] at hfinds
  obtain ⟨y, hy, hsome⟩ := hfinds
  exact hsome (by rw [hall₃ y hy]; rfl)

end Backplane
