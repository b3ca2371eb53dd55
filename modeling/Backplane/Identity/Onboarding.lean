import Backplane.Concur.Ticket
import Backplane.Identity.Effects

/-!
# Onboarding

An invitation is consumed in the transaction that makes the agent and its service principal.  More
may fail after that transaction: a token is signed, the catalog is read and the peers are told.

* `invitationTickets` : an invitation is a ticket that an onboard or a revocation spends.
* `OnboardingAtomic` : an invitation is spent once, and an onboard that fails has changed nothing.
* `unstruck` : no onboard is struck after its transaction.
* `onboarding_atomic` : every such run is atomic.
-/

namespace Backplane

open Concur Prog Directory

/-- How an invitation was spent. -/
inductive Redemption
  /-- This agent has onboarded with it. -/
  | consumed (a : AgentId)
  | revoked
  deriving DecidableEq

/-- The invitation is there and was not used. -/
def Directory.Unused (s : Directory) (h : TokenHash) : Prop :=
  ∃ i, s.invitations.lookup h = some i ∧ i.usedAt = none

/-- The invitation a transaction makes. -/
def Change.invited : Change → Outcome → Option TokenHash
  | createInvitation h _ _, _ => some h
  | reprovision _ _ _, .token h => some h
  | _, _ => none

/-- The invitation a transaction spends, and how. -/
def Change.redeemed : Change → Option (TokenHash × Redemption)
  | onboard a h => some (h, .consumed a)
  | revokeInvitation h => some (h, .revoked)
  | _ => none

/-- An invitation is a ticket that an onboard or a revocation spends. -/
def invitationTickets : Tickets DirAct Directory TokenHash Redemption where
  isOpen := Directory.Unused
  issues x := x.tx.bind fun t => t.1.invited t.2
  spends x := x.tx.bind fun t => t.1.redeemed

/-- Users, agents, refresh tokens and invitations are as they were. -/
structure Directory.Untouched (s s' : Directory) : Prop where
  agents : s'.agents = s.agents
  users : s'.users = s.users
  refreshTokens : s'.refreshTokens = s.refreshTokens
  invitations : s'.invitations = s.invitations

/-- Every invitation is spent once, and onboarding is all or nothing. -/
structure OnboardingAtomic (cfg : IdentitySettings) (g : Guard DirAct DirEnv Directory DirCall Reply)
    (s₀ : Directory) (P : Pool DirAct Directory DirCall Reply) : Prop where
  /-- It was never made, or it can be used, or one agent has consumed it, or it was revoked. -/
  once : ∀ h, TicketState (invitationTickets.Issued s₀ P.log h) (P.shared.Unused h)
    (invitationTickets.spent P.log h)
  /-- An onboard that succeeds has consumed its invitation. -/
  onboarded : ∀ (i : ℕ) a h out, P.threads[i]? = some ⟨.onboard a h, .ret (.ok out)⟩ →
    invitationTickets.spent P.log h = [.consumed a]
  /-- Nobody consumes an invitation that was revoked. -/
  revoked : ∀ (i : ℕ) h out, P.threads[i]? = some ⟨.revokeInvitation h, .ret (.ok out)⟩ →
    invitationTickets.spent P.log h = [.revoked]
  /-- An onboard that fails has changed nothing. -/
  failed : ∀ (i : ℕ) a h err, P.threads[i]? = some ⟨.onboard a h, .ret (.error err)⟩ →
    StepsKeep (identity cfg) g (.init s₀) P i Directory.Untouched

instance (s : Directory) (h : TokenHash) : Decidable (invitationTickets.isOpen s h) :=
  decidable_of_iff ((s.invitations.lookup h).any fun i => i.usedAt.isNone)
    (by simp [invitationTickets, Directory.Unused, Option.any_eq_true])

/-- An invitation is given a hash that none has had. -/
def DirAct.newInvitation {β : Type} (s₀ : Directory) (log : Log DirAct) (e : DirEnv) (a : DirAct β) :
    Bool :=
  match a.change with
  | some (.createInvitation h _ _) => !decide (invitationTickets.Issued s₀ log h)
  | some (.reprovision _ _ _) => !decide (invitationTickets.Issued s₀ log e.secret)
  | _ => true

/-- No exception strikes an onboard after its transaction. -/
def DirAct.spared {β : Type} (c : DirCall) (e : DirEnv) (a : DirAct β) : Bool :=
  match c, a with
  | .onboard _ _, .fault => !e.fault
  | _, _ => true

/-- The generator of tokens does its work. -/
def newInvitations (s₀ : Directory) : Guard DirAct DirEnv Directory DirCall Reply :=
  ⟨fun _ _ => True, fun P _ _ a e => a.newInvitation s₀ P.log e = true⟩

/-- And no onboard is struck after its transaction. -/
def unstruck (s₀ : Directory) : Guard DirAct DirEnv Directory DirCall Reply :=
  ⟨fun _ _ => True, fun P _ c a e => (a.newInvitation s₀ P.log e && a.spared c e) = true⟩

section

variable {cfg : IdentitySettings} {e : DirEnv} {s s' : Directory} {out : Outcome} {c : Change}
  {h : TokenHash} {v : Redemption}

/-! ### One transaction -/

theorem Change.redeemed_eq_some (hr : c.redeemed = some (h, v)) :
    (∃ a, c = onboard a h ∧ v = .consumed a) ∨ c = revokeInvitation h ∧ v = .revoked := by
  unfold redeemed at hr
  split at hr
  · obtain ⟨rfl, rfl⟩ := Prod.mk.inj (Option.some.inj hr)
    exact .inl ⟨_, rfl, rfl⟩
  · obtain ⟨rfl, rfl⟩ := Prod.mk.inj (Option.some.inj hr)
    exact .inr ⟨rfl, rfl⟩
  · exact absurd hr (by simp)

theorem Change.keeps_invitations (hw : .invitations ∉ c.writes) :
    (∀ out, c.invited out = none) ∧ c.redeemed = none := by
  cases c with
  | createInvitation _ _ _ | revokeInvitation _ | onboard _ _ | reprovision _ _ _ =>
    exact absurd hw (by simp [writes])
  | _ => exact ⟨fun _ => rfl, rfl⟩

theorem onboard_invitations {a : AgentId} (hx : s.onboard cfg e a h = .ok (s', out)) :
    ∃ i, s.invitations.lookup h = some i ∧ i.usedAt = none ∧ s'.invitations =
      s.invitations.insert h { i with usedAt := some s.clock, usedBy := some a } := by
  obtain ⟨t, ⟨i, hi, hlive, ht⟩, s₁, hs₁, hx⟩ := onboard_ok hx
  have hs₁ : s₁.invitations = t := by
    rcases hs₁ with ⟨-, hins⟩ | ⟨r, -, -, rfl⟩
    · obtain ⟨-, rfl⟩ := insertAgent_eq_some.1 hins
      rfl
    · rfl
  refine ⟨i, hi, Option.isNone_iff_eq_none.1 (Bool.and_eq_true_iff.1 hlive).1, ?_⟩
  rw [← ht, ← hs₁]
  rcases hx with ⟨-, rfl⟩ | ⟨-, s₂, x, hsvc, hx⟩
  · rfl
  · obtain ⟨-, -, rfl⟩ := insertRefreshToken_eq_some.1 hx
    rcases provisionServiceUser_ok hsvc with rfl | ⟨r, -, -, -, -, hins⟩
    · rfl
    · obtain ⟨-, -, -, rfl⟩ := insertUser_eq_some.1 hins
      rfl

theorem Directory.unused_insert {s : Directory} {h k : TokenHash} {i : Invitation} :
    { s with invitations := s.invitations.insert k i }.Unused h ↔
      if h = k then i.usedAt = none else s.Unused h := by
  simp only [Unused, Table.lookup_insert]
  split_ifs <;> simp

/-- **A transaction makes an invitation, or spends one, or keeps those that can be used.** -/
theorem Change.invitations_ok (hx : c.apply cfg e s = .ok (s', out)) (h : TokenHash) :
    s'.Unused h ↔ c.invited out = some h ∨ s.Unused h ∧ ∀ v, c.redeemed ≠ some (h, v) := by
  by_cases hw : .invitations ∈ c.writes
  · cases c with
    | createInvitation k ttl p =>
      obtain ⟨s₁, h₁, hx⟩ := bind_eq_ok.1 hx
      obtain ⟨rfl, rfl⟩ := Prod.mk.inj (Except.ok.inj hx)
      obtain ⟨-, rfl⟩ := insertInvitation_eq_some.1 (orRaise_eq_ok.1 h₁)
      rw [unused_insert]
      by_cases hk : h = k <;> simp [invited, redeemed, hk, eq_comm]
    | reprovision a pending p =>
      obtain ⟨rfl, -, rfl⟩ := reprovision_ok hx
      have hsame : ({ if pending then s else s.resetAgentToPending a with
          invitations := s.invitations.insert e.secret
            ⟨s.clock + reprovisionInvitationTtlS, none, none, p⟩ } : Directory).Unused h ↔
          if h = e.secret then True else s.Unused h := by
        simp only [Unused, Table.lookup_insert]
        split_ifs <;> simp
      rw [hsame]
      by_cases hk : h = e.secret <;> simp [invited, redeemed, hk, eq_comm]
    | onboard a k =>
      obtain ⟨i, hi, hu, hinv⟩ := onboard_invitations hx
      simp only [Unused, hinv, Table.lookup_insert]
      by_cases hk : h = k <;> simp [invited, redeemed, hk, eq_comm]
    | revokeInvitation k =>
      obtain ⟨i, hi, hu, rfl⟩ := revokeInvitation_ok hx
      by_cases hk : h = k
      · subst hk
        simp [Unused, invited, redeemed]
      · simp [Unused, invited, redeemed, AList.lookup_erase_ne hk, Ne.symm hk]
    | _ => exact absurd hw (by simp [writes])
  · obtain ⟨hinv, hred⟩ := keeps_invitations hw
    simp [Unused, (frame hx).invitations hw, hinv, hred]

theorem Change.unused_of_redeemed (hx : c.apply cfg e s = .ok (s', out))
    (hr : c.redeemed = some (h, v)) : s.Unused h := by
  rcases redeemed_eq_some hr with ⟨a, rfl, -⟩ | ⟨rfl, -⟩
  · obtain ⟨i, hi, hu, -⟩ := onboard_invitations hx
    exact ⟨i, hi, hu⟩
  · obtain ⟨i, hi, hu, -⟩ := revokeInvitation_ok hx
    exact ⟨i, hi, hu⟩

end

/-! ### Runs -/

section

variable {cfg : IdentitySettings} {s₀ s' : Directory} {P : Pool DirAct Directory DirCall Reply}
  {e : DirEnv} {β : Type} {x : DirAct β} {b : β} {i : ℕ} {c : DirCall} {a : AgentId}
  {h : TokenHash} {tr : List (Event DirAct)}

/-- An invitation is made once, and spent by a transaction that finds it unused. -/
theorem invitation_step (hg : x.newInvitation s₀ P.log e = true)
    (he : x.exec cfg e P.shared = some (s', b)) :
    invitationTickets.Step s₀ P.shared s' P.log ⟨x, b⟩ h := by
  rcases DirAct.exec_cases he with ⟨htx, hs'⟩ | ⟨t, out, htx, ht, -, hx⟩
  · have hinv : s'.invitations = P.shared.invitations := by rw [hs']
    refine .of_iff ?_ ?_ ?_ <;> simp [invitationTickets, htx, Unused, hinv]
  · have hissues : invitationTickets.issues ⟨x, b⟩ = t.invited out := by
      simp [invitationTickets, htx]
    have hspends : invitationTickets.spends ⟨x, b⟩ = t.redeemed := by
      simp [invitationTickets, htx]
    refine .of_iff ?_ ?_ ?_ <;> rw [hissues]
    · rw [hspends]
      exact Change.invitations_ok hx h
    · intro hi
      refine .inr ?_
      unfold Change.invited at hi
      split at hi
      · obtain rfl := Option.some.inj hi
        simpa [DirAct.newInvitation, ht] using hg
      · obtain rfl := Option.some.inj hi
        obtain ⟨hout, -⟩ := reprovision_ok hx
        obtain rfl := Outcome.token.inj hout
        simpa [DirAct.newInvitation, ht] using hg
      · exact absurd hi (by simp)
    · rw [hspends]
      intro v hv
      have hunused : Unused { P.shared with clock := e.now } h := Change.unused_of_redeemed hx hv
      refine ⟨hunused, ?_⟩
      rcases Change.redeemed_eq_some hv with ⟨a, rfl, -⟩ | ⟨rfl, -⟩ <;> simp [Change.invited]

/-- An onboard that fails and was not struck has not committed. -/
theorem onboard_failed {err : RequestFailure}
    (htr : After (Identity.onboard a h) tr (.ret (.error err)))
    (hfault : (⟨.fault, true⟩ : Event DirAct) ∉ tr) : ∀ x ∈ tr, x.tx = none := by
  unfold Identity.onboard at htr
  split_ifs at htr with hid
  · obtain ⟨rfl, -⟩ := After.ret_iff.1 htr
    simp
  · obtain ⟨r, tr₁, rfl, hcommit⟩ := After.perform_bind htr
    cases r with
    | error err' =>
      obtain ⟨rfl, -⟩ := After.ret_iff.1 hcommit
      simp [Event.tx]
    | ok out =>
      refine absurd ?_ hfault
      obtain ⟨hit, tr₂, rfl, hsign⟩ := After.perform_bind hcommit
      cases hit with
      | true => simp
      | false =>
        obtain ⟨t, tr₃, rfl, hpush⟩ := After.perform_bind hsign
        obtain ⟨hit, tr₄, rfl, hend⟩ := After.perform_bind hpush
        cases hit with
        | true => simp
        | false => exact absurd (After.ret_iff.1 hend).2 (by simp)

/-- One that succeeds has committed. -/
theorem onboard_succeeded {out : Outcome}
    (htr : After (Identity.onboard a h) tr (.ret (.ok out))) :
    ∃ out', (⟨.commit (.onboard a h), .ok out'⟩ : Event DirAct) ∈ tr := by
  unfold Identity.onboard at htr
  split_ifs at htr with hid
  · exact absurd (After.ret_iff.1 htr).2 (by simp)
  · obtain ⟨r, tr₁, rfl, hcommit⟩ := After.perform_bind htr
    cases r with
    | error err => exact absurd (After.ret_iff.1 hcommit).2 (by simp)
    | ok out' => exact ⟨out', List.mem_cons_self⟩

theorem revoke_succeeded {out : Outcome}
    (htr : After (Identity.revokeInvitation h) tr (.ret (.ok out))) :
    (⟨.commit (.revokeInvitation h), .ok out⟩ : Event DirAct) ∈ tr := by
  obtain ⟨r, tr₁, rfl, hread⟩ := After.perform_bind htr
  cases r with
  | none => exact absurd (After.ret_iff.1 hread).2 (by simp)
  | some inv =>
    dsimp only at hread
    split_ifs at hread
    · exact absurd (After.ret_iff.1 hread).2 (by simp)
    · rw [After.perform_iff.1 hread]
      simp

/-- An onboard that is not struck after its transaction has not been struck. -/
theorem not_struck (hrun : Run (identity cfg) (unstruck s₀) (.init s₀) P) {p : DirProg Reply}
    (hth : P.threads[i]? = some ⟨.onboard a h, p⟩) : (⟨.fault, true⟩ : Event DirAct) ∉ P.past i := by
  intro hmem
  obtain ⟨l₁, l₂, hlog⟩ := List.append_of_mem (Log.mem_past.1 hmem)
  obtain ⟨Q, c, β, x, k, e, s, b, -, -, ht, hg, he, hx, hrest⟩ :=
    hrun.exists_step hlog (List.nil_prefix (l := l₁))
  obtain ⟨⟩ := hx
  have hlt : i < Q.threads.length := (List.getElem?_eq_some_iff.1 ht).1
  have hnext : (Q.fired i c .fault k s true).threads[i]? = some ⟨c, k true⟩ := by
    simp [Pool.fired, hlt]
  obtain ⟨q, hq⟩ := hrest.thread hnext
  obtain rfl : Thread.call _ = c := congrArg Thread.call (Option.some.inj (hth.symm.trans hq))
  obtain ⟨-, hans⟩ := Prod.mk.inj (DirAct.exec_eq he).2
  have hspared : DirAct.spared (.onboard a h) e .fault = true := (Bool.and_eq_true_iff.1 hg).2
  rw [DirAct.spared, hans] at hspared
  exact absurd hspared (by simp)

/-- **Where no onboard is struck after its transaction, onboarding is all or nothing**, and an
invitation is consumed by one agent, or revoked and consumed by none. -/
theorem onboarding_atomic (hrun : Run (identity cfg) (unstruck s₀) (.init s₀) P) :
    OnboardingAtomic cfg (unstruck s₀) s₀ P := by
  have honce : ∀ h, TicketState (invitationTickets.Issued s₀ P.log h) (P.shared.Unused h)
      (invitationTickets.spent P.log h) := fun h =>
    Tickets.of_run hrun (fun _ hg he _ => invitation_step (Bool.and_eq_true_iff.1 hg).1 he) h
  refine ⟨honce, fun i a h out hth => ?_, fun i h out hth => ?_, fun i a h err hth => ?_⟩
  · obtain ⟨out', hmem⟩ := onboard_succeeded (hrun.after hth)
    exact Tickets.spent_eq (honce h) (Log.mem_past.1 hmem) rfl
  · exact Tickets.spent_eq (honce h) (Log.mem_past.1 (revoke_succeeded (hrun.after hth))) rfl
  · refine StepsKeep.of_past (onboard_failed (hrun.after hth) (not_struck hrun hth)) ?_
    intro β x e s s' b he htx
    rcases DirAct.exec_cases he with ⟨-, hs'⟩ | ⟨t, out, htx', -⟩
    · rw [hs']
      exact ⟨rfl, rfl, rfl, rfl⟩
    · exact absurd (htx.symm.trans htx') (by simp)

/-- Whoever spends an invitation does not leave the tables as they are. -/
theorem not_untouched_of_spends {g : Guard DirAct DirEnv Directory DirCall Reply} {y : Event DirAct}
    {v : Redemption} (hrun : Run (identity cfg) g (.init s₀) P) (hmem : y ∈ P.past i)
    (hy : invitationTickets.spends y = some (h, v)) :
    ¬ StepsKeep (identity cfg) g (.init s₀) P i Directory.Untouched := by
  intro hkeep
  obtain ⟨l₁, l₂, hlog⟩ := List.append_of_mem (Log.mem_past.1 hmem)
  obtain ⟨Q, c, β, x, k, e, s, b, hQ, -, ht, -, he, rfl, hrest⟩ :=
    hrun.exists_step hlog (List.nil_prefix (l := l₁))
  have hsame : s.invitations = Q.shared.invitations := (hkeep hQ ht he hrest).invitations
  obtain ⟨t, htx, ht⟩ := Option.bind_eq_some_iff.1 hy
  rcases DirAct.exec_cases he with ⟨htx', -⟩ | ⟨t', out, htx', -, -, hx⟩
  · exact absurd (htx.symm.trans htx') (by simp)
  · obtain rfl := Option.some.inj (htx.symm.trans htx')
    have hused : ¬ s.Unused h := by
      rw [Change.invitations_ok hx]
      rintro (hi | ⟨-, hno⟩)
      · rcases Change.redeemed_eq_some ht with ⟨a, rfl, -⟩ | ⟨rfl, -⟩ <;> simp [Change.invited] at hi
      · exact hno v ht
    have hunused : Unused { Q.shared with clock := e.now } h := Change.unused_of_redeemed hx ht
    rw [Unused, ← hsame] at hunused
    exact hused hunused

end

/-! ### Invitations to run -/

namespace Sample

/-- The onboard that coroutine `i` was, if it has failed. -/
def failedOnboard (P : Pool DirAct Directory DirCall Reply) (i : ℕ) : Option (AgentId × TokenHash) :=
  match P.threads[i]? with
  | some ⟨.onboard a h, .ret (.error _)⟩ => some (a, h)
  | _ => none

theorem failedOnboard_eq_some {P : Pool DirAct Directory DirCall Reply} {i : ℕ} {a : AgentId}
    {h : TokenHash} (hf : failedOnboard P i = some (a, h)) :
    ∃ err, P.threads[i]? = some ⟨.onboard a h, .ret (.error err)⟩ := by
  unfold failedOnboard at hf
  split at hf
  · rename_i err hth
    obtain ⟨rfl, rfl⟩ := Prod.mk.inj (Option.some.inj hf)
    exact ⟨err, hth⟩
  · exact absurd hf (by simp)

/-- An agent onboards, and another tries with its invitation; a second invitation is revoked. -/
def invited : List (Move DirEnv DirCall) :=
  onboarded ++ [.start (.onboard "cat" "i1"), .step 1 {}, .start (.revokeInvitation "i2"), .step 2 {},
    .step 2 {}]

end Sample

/-- One invitation is consumed and tried again, the other is revoked. -/
theorem onboarding_atomic_invited : ∃ P,
    (identity {}).run (fun P _ c a e => a.newInvitation Sample.inviteBoot.directory P.log e &&
        a.spared c e) (.init Sample.inviteBoot.directory) Sample.invited = some P ∧
    Sample.failedOnboard P 1 = some ("cat", "i1") ∧
    invitationTickets.spent P.log "i1" = [.consumed "bot"] ∧
    invitationTickets.spent P.log "i2" = [.revoked] ∧
    OnboardingAtomic {} (unstruck Sample.inviteBoot.directory) Sample.inviteBoot.directory P := by
  have hplay : ((identity {}).run (fun P _ c a e =>
        a.newInvitation Sample.inviteBoot.directory P.log e && a.spared c e)
      (.init Sample.inviteBoot.directory) Sample.invited).map (fun P => (Sample.failedOnboard P 1,
        invitationTickets.spent P.log "i1", invitationTickets.spent P.log "i2")) =
      some (some ("cat", "i1"), [.consumed "bot"], [.revoked]) := by
    decide +kernel
  obtain ⟨P, hP, h⟩ := Option.map_eq_some_iff.1 hplay
  obtain ⟨hfailed, h⟩ := Prod.mk.inj h
  obtain ⟨h₁, h₂⟩ := Prod.mk.inj h
  have hrun : Run (identity {}) (unstruck Sample.inviteBoot.directory)
      (.init Sample.inviteBoot.directory) P :=
    Run.of_run (fun _ _ => trivial) (fun _ _ _ _ _ hc => hc) hP
  exact ⟨P, hP, hfailed, h₁, h₂, onboarding_atomic hrun⟩

/-- Signing the token raises after the transaction of an onboard: the answer is an error, and the
invitation is consumed. -/
theorem onboarding_struck : ¬ ∀ (cfg : IdentitySettings) (boot : DirBoot)
    (P : Pool DirAct Directory DirCall Reply),
    Run (identity cfg) (newInvitations boot.directory) (.init boot.directory) P →
    OnboardingAtomic cfg (newInvitations boot.directory) boot.directory P := by
  intro hall
  have hplay : ((identity {}).run (fun P _ _ a e =>
        a.newInvitation Sample.inviteBoot.directory P.log e) (.init Sample.inviteBoot.directory)
      [.start (.onboard "bot" "i1"), .step 0 {}, .step 0 { fault := true }]).map (fun P =>
        (Sample.failedOnboard P 0, (P.past 0).head?.bind invitationTickets.spends)) =
      some (some ("bot", "i1"), some ("i1", .consumed "bot")) := by
    decide +kernel
  obtain ⟨P, hP, h⟩ := Option.map_eq_some_iff.1 hplay
  obtain ⟨hfailed, hspent⟩ := Prod.mk.inj h
  obtain ⟨err, hth⟩ := Sample.failedOnboard_eq_some hfailed
  obtain ⟨x, hx, hspends⟩ := Option.bind_eq_some_iff.1 hspent
  have hrun : Run (identity {}) (newInvitations Sample.inviteBoot.directory)
      (.init Sample.inviteBoot.directory) P :=
    Run.of_run (fun _ _ => trivial) (fun _ _ _ _ _ hc => hc) hP
  exact not_untouched_of_spends hrun (List.mem_of_mem_head? hx) hspends
    ((hall {} Sample.inviteBoot P hrun).failed 0 "bot" "i1" err hth)

end Backplane
