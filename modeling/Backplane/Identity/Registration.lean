import Backplane.Concur.Ticket
import Backplane.Identity.Effects

/-!
# Registrations

A registration waits until an admin approves or rejects it.  An approval locks the row; a rejection
reads it without a lock and does not ask how many rows its delete has removed.

* `registrationTickets` : a registration is a ticket that a resolution spends.
* `ResolvedOnce` : every registration is resolved once, and the audit log has just that.
* `unraced` : a rejection commits only while the registration is still there.
* `registrations_resolved_once` : every such run resolves once.
-/

namespace Backplane

open Concur Prog Directory

/-- How a registration was resolved. -/
inductive Resolution
  | approved (u : UserId)
  /-- Nobody was made. -/
  | rejected
  deriving DecidableEq

/-- What a row of the audit log says of this registration. -/
def RegistrationEvent.of (id : String) : RegistrationEvent → Option Resolution
  | approved id' u _ _ _ _ _ => if id' = id then some (.approved u) else none
  | rejected id' _ _ => if id' = id then some .rejected else none

/-- What the audit log says of a registration. -/
def Directory.audited (s : Directory) (id : String) : List Resolution :=
  s.registrationAudit.filterMap (RegistrationEvent.of id)

/-- The registration a transaction leaves waiting. -/
def Change.submitted : Change → Outcome → Option String
  | submitRegistration _, .registered id => some id
  | _, _ => none

/-- The registration a transaction resolves, and how. -/
def Change.resolved : Change → Outcome → Option (String × Resolution)
  | approveRegistration id _, .user u => some (id, .approved u)
  | rejectRegistration id _, _ => some (id, .rejected)
  | _, _ => none

/-- A registration is a ticket that a resolution spends. -/
def registrationTickets : Tickets DirAct Directory String Resolution where
  isOpen s id := s.registrations.lookup id ≠ none
  issues x := x.tx.bind fun t => t.1.submitted t.2
  spends x := x.tx.bind fun t => t.1.resolved t.2

/-- Every registration is resolved once: by one request that succeeds, as the audit log has it. -/
structure ResolvedOnce (s₀ : Directory) (P : Pool DirAct Directory DirCall Reply) : Prop where
  /-- It was never submitted, or it waits, or one request has resolved it. -/
  once : ∀ id, TicketState (registrationTickets.Issued s₀ P.log id)
    (P.shared.registrations.lookup id ≠ none) (registrationTickets.spent P.log id)
  /-- The audit log has what the requests have done. -/
  audit : ∀ id, P.shared.audited id = registrationTickets.spent P.log id
  /-- An approval that succeeds has made the user it names, and nothing else has resolved the
  registration. -/
  approved : ∀ (i : ℕ) id req out, P.threads[i]? = some ⟨.approveRegistration id req, .ret (.ok out)⟩ →
    ∃ u, out = .user u ∧ P.shared.audited id = [.approved u]
  /-- A rejection that succeeds is the only resolution, and leaves no user made from the
  registration. -/
  rejected : ∀ (i : ℕ) id out, P.threads[i]? = some ⟨.rejectRegistration id, .ret (.ok out)⟩ →
    P.shared.audited id = [.rejected] ∧
      ∀ x ∈ P.log, ∀ req u, x.2.tx ≠ some (.approveRegistration id req, .user u)

instance (s : Directory) (id : String) : Decidable (registrationTickets.isOpen s id) :=
  inferInstanceAs (Decidable (s.registrations.lookup id ≠ none))

/-- A submission is given an id that no registration has had. -/
def DirAct.newId {β : Type} (s₀ : Directory) (log : Log DirAct) (e : DirEnv) (a : DirAct β) : Bool :=
  match a.change with
  | some (.submitRegistration _) => !decide (registrationTickets.Issued s₀ log e.secret)
  | _ => true

/-- A rejection commits only while the registration is still there. -/
def DirAct.stillPending {β : Type} (s : Directory) (e : DirEnv) (a : DirAct β) : Bool :=
  match a.change with
  | some (.rejectRegistration id _) => e.fault || (s.registrations.lookup id).isSome
  | _ => true

/-- The generator of ids does its work. -/
def newIds (s₀ : Directory) : Guard DirAct DirEnv Directory DirCall Reply :=
  ⟨fun _ _ => True, fun P _ _ a e => a.newId s₀ P.log e = true⟩

/-- And no rejection commits after the registration has been resolved. -/
def unraced (s₀ : Directory) : Guard DirAct DirEnv Directory DirCall Reply :=
  ⟨fun _ _ => True, fun P _ _ a e => (a.newId s₀ P.log e && a.stillPending P.shared e) = true⟩

section

variable {cfg : IdentitySettings} {e : DirEnv} {s s' : Directory} {out : Outcome} {c : Change}
  {id : String} {v : Resolution}

/-! ### One transaction -/

theorem Change.submitted_eq_some (h : c.submitted out = some id) :
    (∃ p, c = submitRegistration p) ∧ out = .registered id := by
  unfold submitted at h
  split at h
  · obtain rfl := Option.some.inj h
    exact ⟨⟨_, rfl⟩, rfl⟩
  · exact absurd h (by simp)

theorem Change.resolved_eq_some (h : c.resolved out = some (id, v)) :
    (∃ req u, c = approveRegistration id req ∧ out = .user u ∧ v = .approved u) ∨
      ∃ p, c = rejectRegistration id p ∧ v = .rejected := by
  unfold resolved at h
  split at h
  · obtain ⟨rfl, rfl⟩ := Prod.mk.inj (Option.some.inj h)
    exact .inl ⟨_, _, rfl, rfl, rfl⟩
  · obtain ⟨rfl, rfl⟩ := Prod.mk.inj (Option.some.inj h)
    exact .inr ⟨_, rfl, rfl⟩
  · exact absurd h (by simp)

theorem Change.submitted_eq_none (hw : .registrations ∉ c.writes) : c.submitted out = none := by
  cases c with
  | submitRegistration p => exact absurd hw (by simp [writes])
  | _ => rfl

theorem Change.resolved_eq_none (hw : .registrationAudit ∉ c.writes) : c.resolved out = none := by
  cases c with
  | approveRegistration _ _ | rejectRegistration _ _ => exact absurd hw (by simp [writes])
  | _ => rfl

/-- **A transaction submits a registration, or resolves one, or keeps those that wait.** -/
theorem Change.registrations_ok (hx : c.apply cfg e s = .ok (s', out)) (id : String) :
    s'.registrations.lookup id ≠ none ↔ c.submitted out = some id ∨
      s.registrations.lookup id ≠ none ∧ ∀ v, c.resolved out ≠ some (id, v) := by
  by_cases hw : .registrations ∈ c.writes
  · cases c with
    | submitRegistration p =>
      obtain ⟨id', p', rfl, -, rfl⟩ := submitRegistration_ok hx
      by_cases hid : id = id' <;> simp [submitted, resolved, Table.lookup_insert, hid, eq_comm]
    | rejectRegistration id' p =>
      obtain ⟨rfl, -⟩ := Prod.mk.inj (Except.ok.inj hx)
      by_cases hid : id = id'
      · subst hid
        simp [submitted, resolved]
      · simp [submitted, resolved, AList.lookup_erase_ne hid, Ne.symm hid]
    | approveRegistration id' req =>
      obtain ⟨p, r, s₁, email, hp, hins, -, -, -, rfl, rfl⟩ := approveRegistration_ok hx
      obtain ⟨-, -, -, rfl⟩ := insertUser_eq_some.1 hins
      by_cases hid : id = id'
      · subst hid
        simp [submitted, resolved]
      · simp [submitted, resolved, AList.lookup_erase_ne hid, Ne.symm hid]
    | release a epoch =>
      obtain ⟨a', u', rfl, hren⟩ := releaseId_ok hx
      rcases renameEvictedAgent_eq_some hren with ⟨rfl, -, -⟩ | ⟨r, -, -, -, -, ⟨-, rfl⟩ | hren⟩
      · simp [submitted, resolved]
      · simp [submitted, resolved, renameAgent]
      · obtain ⟨v, r', -, -, -, -, rfl⟩ := hren
        simp [submitted, resolved, renameAgent, renameUser, Table.lookup_mapRows]
    | _ => exact absurd hw (by simp [writes])
  · rw [(frame hx).registrations hw]
    have haudit : .registrationAudit ∉ c.writes := fun h => hw (by cases c <;> simp_all [writes])
    simp [submitted_eq_none hw, resolved_eq_none haudit]

/-- The audit log gets a row for every resolution. -/
theorem Change.audited_ok (hx : c.apply cfg e s = .ok (s', out)) (id : String) :
    s'.audited id = s.audited id ++
      ((c.resolved out).bind fun p => if p.1 = id then some p.2 else none).toList := by
  by_cases hw : .registrationAudit ∈ c.writes
  · cases c with
    | rejectRegistration id' p =>
      obtain ⟨rfl, -⟩ := Prod.mk.inj (Except.ok.inj hx)
      rw [audited, List.filterMap_append]
      by_cases hid : id' = id <;> simp [audited, resolved, RegistrationEvent.of, hid]
    | approveRegistration id' req =>
      obtain ⟨p, r, s₁, email, hp, hins, -, -, -, rfl, rfl⟩ := approveRegistration_ok hx
      obtain ⟨-, -, -, rfl⟩ := insertUser_eq_some.1 hins
      rw [audited, List.filterMap_append]
      by_cases hid : id' = id <;> simp [audited, resolved, RegistrationEvent.of, hid]
    | _ => exact absurd hw (by simp [writes])
  · rw [audited, (frame hx).registrationAudit hw]
    simp [audited, resolved_eq_none hw]

end

/-! ### Runs -/

section

variable {cfg : IdentitySettings} {boot : DirBoot} {P : Pool DirAct Directory DirCall Reply}
  {e : DirEnv} {s s' s₀ : Directory} {log : Log DirAct} {β : Type} {a : DirAct β} {b : β} {i : ℕ}
  {c : DirCall} {id : String}

/-- A registration is opened by a submission, and spent by a resolution that finds it open. -/
theorem registration_step (hg : (unraced s₀).fire P i c a e)
    (he : a.exec cfg e P.shared = some (s', b)) :
    registrationTickets.Step s₀ P.shared s' P.log ⟨a, b⟩ id := by
  obtain ⟨hnew, hrace⟩ := Bool.and_eq_true_iff.1 hg
  rcases DirAct.exec_cases he with ⟨htx, hs'⟩ | ⟨t, out, htx, ht, hf, hx⟩
  · have hopen : s'.registrations = P.shared.registrations := by rw [hs']
    refine .of_iff ?_ ?_ ?_ <;> simp [registrationTickets, htx, hopen]
  · have hissues : registrationTickets.issues ⟨a, b⟩ = t.submitted out := by
      simp [registrationTickets, htx]
    have hspends : registrationTickets.spends ⟨a, b⟩ = t.resolved out := by
      simp [registrationTickets, htx]
    refine .of_iff ?_ ?_ ?_ <;> rw [hissues]
    · rw [hspends]
      exact Change.registrations_ok hx id
    · intro hsub
      obtain ⟨⟨p, rfl⟩, rfl⟩ := Change.submitted_eq_some hsub
      obtain ⟨id', p', hid, hor, -⟩ := submitRegistration_ok hx
      obtain rfl : id = id' := by simpa using hid
      refine hor.imp_right fun hsec => ?_
      simpa [DirAct.newId, ht, hsec] using hnew
    · rw [hspends]
      intro v hres
      rcases Change.resolved_eq_some hres with ⟨req, u, rfl, rfl, -⟩ | ⟨p, rfl, -⟩
      · obtain ⟨p, -, -, -, hp, -⟩ := approveRegistration_ok hx
        exact ⟨fun h => absurd (hp.symm.trans h) (by simp), by simp [Change.submitted]⟩
      · have hthere := by simpa [DirAct.stillPending, ht, hf] using hrace
        exact ⟨Option.ne_none_iff_isSome.2 hthere, by simp [Change.submitted]⟩

/-- The audit log has what the requests have done. -/
theorem audited_eq_spent {g : Guard DirAct DirEnv Directory DirCall Reply}
    (h : Run (identity cfg) g (.init boot.directory) P) (id : String) :
    P.shared.audited id = registrationTickets.spent P.log id := by
  refine h.guarded (I := fun s log => s.audited id = registrationTickets.spent log id) ?_ ?_
  · show boot.directory.audited id = []
    rw [audited, boot.unresolved, List.filterMap_nil]
  · intro Q i c β a e s b hQ _ he
    rw [Tickets.spent_snoc, ← hQ]
    rcases DirAct.exec_cases he with ⟨htx, hs⟩ | ⟨t, out, htx, -, -, hx⟩
    · have haudit : s.registrationAudit = Q.shared.registrationAudit := by rw [hs]
      simp [registrationTickets, htx, audited, haudit]
    · have hspends : registrationTickets.spends ⟨a, b⟩ = t.resolved out := by
        simp [registrationTickets, htx]
      rw [Change.audited_ok hx id, hspends]
      rfl

/-- What has committed could be carried out. -/
theorem applied_of_mem {g : Guard DirAct DirEnv Directory DirCall Reply} {c : Change} {out : Outcome}
    (h : Run (identity cfg) g (.init s₀) P) (hmem : (⟨.commit c, .ok out⟩ : Event DirAct) ∈ P.past i) :
    ∃ e s s', c.apply cfg e s = .ok (s', out) := by
  obtain ⟨l₁, l₂, hlog⟩ := List.append_of_mem (Log.mem_past.1 hmem)
  obtain ⟨Q, c', β, a, k, e, s, b, -, -, -, -, he, hx, -⟩ :=
    h.exists_step hlog (List.nil_prefix (l := l₁))
  obtain ⟨⟩ := hx
  rcases committed_eq (DirAct.exec_eq he).2 with ⟨err, h, -⟩ | ⟨o, ho, -, hx⟩
  · exact absurd h (by simp)
  · obtain rfl := Except.ok.inj ho
    exact ⟨e, _, s, hx⟩

/-- **Where a rejection commits only while the registration is still there, every registration is
resolved once**, the audit log has just that, and a rejection that succeeds leaves no user. -/
theorem registrations_resolved_once
    (h : Run (identity cfg) (unraced boot.directory) (.init boot.directory) P) :
    ResolvedOnce boot.directory P := by
  have honce : ∀ id, TicketState (registrationTickets.Issued boot.directory P.log id)
      (P.shared.registrations.lookup id ≠ none) (registrationTickets.spent P.log id) :=
    fun id => Tickets.of_run h (fun _ hg he _ => registration_step hg he) id
  have haudit : ∀ id, P.shared.audited id = registrationTickets.spent P.log id := audited_eq_spent h
  have hsole : ∀ {x : ℕ × Event DirAct} {id : String} {v : Resolution}, x ∈ P.log →
      registrationTickets.spends x.2 = some (id, v) → P.shared.audited id = [v] :=
    fun hx hv => (haudit _).trans (Tickets.spent_eq (honce _) hx hv)
  refine ⟨honce, haudit, fun i id req out hth => ?_, fun i id out hth => ?_⟩
  · have hpast : P.past i = [⟨.commit (.approveRegistration id req), .ok out⟩] :=
      After.perform_iff.1 (h.after hth)
    have hmem : (⟨.commit (.approveRegistration id req), .ok out⟩ : Event DirAct) ∈ P.past i := by
      rw [hpast]
      exact List.mem_singleton_self _
    obtain ⟨e, s, s', hx⟩ := applied_of_mem h hmem
    obtain ⟨p, r, -, -, -, -, -, -, -, rfl, -⟩ := approveRegistration_ok hx
    exact ⟨r.userId, rfl, hsole (Log.mem_past.1 hmem) rfl⟩
  · obtain ⟨p, tr, hpast, hrest⟩ := After.perform_bind (h.after hth)
    cases p with
    | none => exact absurd (After.ret_iff.1 hrest).2 (by simp)
    | some p =>
      have hmem : (⟨.commit (.rejectRegistration id p), .ok out⟩ : Event DirAct) ∈ P.past i := by
        rw [hpast, After.perform_iff.1 hrest]
        simp
      have hrejected : P.shared.audited id = [.rejected] :=
        hsole (Log.mem_past.1 hmem) rfl
      refine ⟨hrejected, fun x hx req u htx => ?_⟩
      have happroved : P.shared.audited id = [.approved u] :=
        hsole hx (by simp [registrationTickets, htx, Change.resolved])
      exact absurd (hrejected.symm.trans happroved) (by simp)

end

/-! ### Registrations to run -/

namespace Sample

/-- Somebody registers on the web. -/
def signUp : PendingRegistration := ⟨"web", "ada", some "ada@example.org", some "h", none⟩

/-- Somebody registers, an admin reads the registration to reject it, and two more wait. -/
def signedUp : List (Move DirEnv DirCall) :=
  [.start (.submitRegistration none signUp), .step 0 {}, .step 0 { secret := "r" },
    .start (.rejectRegistration "r"), .start (.approveRegistration "r" {}), .step 1 {}]

end Sample

/-- A rejection that comes before the approval. -/
theorem registrations_resolved_once_rejected : ∃ P,
    (identity {}).run (fun P _ _ a e => a.newId Sample.dirBoot.directory P.log e &&
        a.stillPending P.shared e) (.init Sample.dirBoot.directory)
      (Sample.signedUp ++ [.step 1 {}, .step 2 {}]) = some P ∧
    P.shared.audited "r" = [.rejected] ∧ ResolvedOnce Sample.dirBoot.directory P := by
  have hplay : ((identity {}).run (fun P _ _ a e => a.newId Sample.dirBoot.directory P.log e &&
        a.stillPending P.shared e) (.init Sample.dirBoot.directory)
      (Sample.signedUp ++ [.step 1 {}, .step 2 {}])).map (fun P => P.shared.audited "r") =
      some [.rejected] := by
    decide +kernel
  obtain ⟨P, hP, haudit⟩ := Option.map_eq_some_iff.1 hplay
  have hrun : Run (identity {}) (unraced Sample.dirBoot.directory)
      (.init Sample.dirBoot.directory) P :=
    Run.of_run (fun _ _ => trivial) (fun _ _ _ _ _ hc => hc) hP
  exact ⟨P, hP, haudit, registrations_resolved_once hrun⟩

/-- An approval commits between the read and the delete of a rejection: both succeed, the audit log
has both, and the user is there. -/
theorem registration_resolved_twice : ¬ ∀ (cfg : IdentitySettings) (boot : DirBoot)
    (P : Pool DirAct Directory DirCall Reply),
    Run (identity cfg) (newIds boot.directory) (.init boot.directory) P →
    ResolvedOnce boot.directory P := by
  intro hall
  have hplay : ((identity {}).run (fun P _ _ a e => a.newId Sample.dirBoot.directory P.log e)
      (.init Sample.dirBoot.directory)
      (Sample.signedUp ++ [.step 2 { secret := "u" }, .step 1 {}])).map
        (fun P => (registrationTickets.spent P.log "r", (P.shared.users.lookup "usr_u").isSome)) =
      some ([.approved "usr_u", .rejected], true) := by
    decide +kernel
  obtain ⟨P, hP, h⟩ := Option.map_eq_some_iff.1 hplay
  obtain ⟨hspent, -⟩ := Prod.mk.inj h
  have honce := (hall {} Sample.dirBoot P
    (Run.of_run (fun _ _ => trivial) (fun _ _ _ _ _ hc => hc) hP)).once "r"
  rw [hspent] at honce
  cases honce with
  | fresh _ _ hs => exact absurd hs (by simp)
  | waiting _ _ hs => exact absurd hs (by simp)
  | spent _ _ v hs => exact absurd hs (by simp)

end Backplane
