import Backplane.Concur.Discipline
import Backplane.Data.TxTable
import Backplane.Identity.Accounts
import Mathlib.Data.List.Perm.Subperm

/-!
# Unlinking sign-in identities

A user may unlink an identity, but not the last way to sign in.  The request lists the user's
identities, decides, and deletes; the rows it has listed are not locked.

* `Logins` : the users and the identities, under read-committed transactions.
* `UnlinkAct`, `unlinkOidcIdentity` : the statements and the program of a request.
* `unlinking` : the machine, whose runs are the interleavings of any number of requests.
* `timelyDeletes` : when a request deletes, what it has listed is still there.
* `identity_remains` : then a user without a password keeps an identity.
-/

namespace Backplane

open Concur Prog

/-! ### Requests -/

/-- An issuer and a subject. -/
abbrev OidcSubject := String × String

/-- The tables. -/
structure Logins where
  users : Table UserId UserRecord := ∅
  /-- `user_oidc_identities` -/
  identities : TxTable OidcSubject OidcIdentity := {}
  /-- How many transactions have begun. -/
  begun : ℕ := 0

/-- What a step learns from outside. -/
structure UnlinkEnv where
  fault : Bool := false

/-- The statements of transaction `t`, by the type of their answer. -/
inductive UnlinkAct : Type → Type 1
  | begin : UnlinkAct ℕ
  | getUserById (t : ℕ) (u : UserId) : UnlinkAct (Option UserRecord)
  | listOidcIdentities (t : ℕ) (u : UserId) : UnlinkAct (List OidcSubject)
  /-- `unlink_oidc_identity`; whether a row was removed. -/
  | delete (t : ℕ) (u : UserId) (target : OidcSubject) : UnlinkAct Bool
  /-- `append_audit_event`; `false`: it raised. -/
  | appendAuditEvent (t : ℕ) : UnlinkAct Bool
  /-- `COMMIT`; a transaction that cannot be committed is rolled back. -/
  | commit (t : ℕ) : UnlinkAct Bool
  | rollback (t : ℕ) : UnlinkAct Unit

/-- What a statement does; a delete waits for the lock on its row. -/
def UnlinkAct.exec : {β : Type} → UnlinkAct β → UnlinkEnv → Logins → Option (Logins × β)
  | _, begin, _, s => some ({ s with begun := s.begun + 1 }, s.begun)
  | _, getUserById _ u, _, s => some (s, s.users.lookup u)
  | _, listOidcIdentities t u, _, s =>
    some (s, ((s.identities.view t).select fun _ r => decide (r.userId = u)).map Prod.fst)
  | _, delete t u target, _, s =>
    if ((s.identities.view t).lookup target).any fun r => decide (r.userId = u) then
      (s.identities.write t target none).map fun ids => ({ s with identities := ids }, true)
    else some (s, false)
  | _, appendAuditEvent _, e, s => some (s, !e.fault)
  | _, commit t, e, s =>
    if e.fault then some ({ s with identities := s.identities.rollback t }, false)
    else some ({ s with identities := s.identities.commit t }, true)
  | _, rollback t, _, s => some ({ s with identities := s.identities.rollback t }, ())

/-- `has_password` -/
def hasPassword (r : Option UserRecord) : Bool :=
  r.any fun r => decide (r.authKind = .password) && r.authSecretHash.any (· ≠ "")

/-- A request to unlink an identity, by the user who is signed in. -/
structure UnlinkCall where
  user : UserId
  target : OidcSubject

/-- `unlink_oidc_identity`: how the request ends. -/
def unlinkOidcIdentity (c : UnlinkCall) : Prog UnlinkAct (Except RequestFailure Unit) := do
  let t ← perform .begin
  let user ← perform (.getUserById t c.user)
  let rows ← perform (.listOidcIdentities t c.user)
  if !hasPassword user && decide (rows.length ≤ 1) && decide (c.target ∈ rows) then
    perform (.rollback t)
    pure (.error (.http 409))
  else if ← perform (.delete t c.user c.target) then
    if ← perform (.appendAuditEvent t) then
      if ← perform (.commit t) then pure (.ok ()) else pure (.error .raised)
    else
      perform (.rollback t)
      pure (.error .raised)
  else
    perform (.rollback t)
    pure (.error (.http 404))

/-- The requests to unlink identities. -/
def unlinking : Machine UnlinkAct UnlinkEnv Logins UnlinkCall (Except RequestFailure Unit) where
  exec := UnlinkAct.exec
  body := unlinkOidcIdentity

/-! ### The property -/

/-- The user has an identity. -/
def Logins.Linked (s : Logins) (u : UserId) : Prop :=
  ∃ k r, s.identities.committed.lookup k = some r ∧ r.userId = u

/-- The user has an identity that no request is removing. -/
def Logins.Keeps (s : Logins) (u : UserId) (k : OidcSubject) : Prop :=
  ∃ r, s.identities.Settled k r ∧ r.userId = u

/-- The delete of a request comes before any other request has removed, or is removing, one of the
identities that it has listed. -/
def UnlinkAct.timely {β : Type} (s : Logins) (past : List (Event UnlinkAct)) : UnlinkAct β → Prop
  | delete _ u _ => ∀ t rows, ⟨listOidcIdentities t u, rows⟩ ∈ past →
      ∀ k, k ∈ rows ↔ s.Keeps u k
  | _ => True

/-- Between listing the identities and deleting one a request is not disturbed. -/
def timelyDeletes : Guard UnlinkAct UnlinkEnv Logins UnlinkCall (Except RequestFailure Unit) :=
  ⟨fun _ _ => True, fun P i _ a _ => a.timely P.shared (P.past i)⟩

/-! ### What a request has read -/

/-- What a request knows. -/
structure UnlinkFacts where
  user : UserId
  password : Option Bool := none
  rows : Option (List OidcSubject) := none

/-- The request reads whether the user has a password and lists the identities; it deletes none if
that is the last. -/
def unlinkCheck : Discipline UnlinkAct UnlinkFacts where
  ok q a := match a with
    | .getUserById _ u | .listOidcIdentities _ u => u = q.user
    | .delete _ u target => u = q.user ∧ ∃ password rows, q.password = some password ∧
        q.rows = some rows ∧ (password = false → target ∈ rows → 2 ≤ rows.length)
    | _ => True
  ans a b := match a, b with
    | .listOidcIdentities _ _, rows => rows.Nodup
    | _, _ => True
  next q a b := match a, b with
    | .getUserById _ _, r => { q with password := some (hasPassword r) }
    | .listOidcIdentities _ _, rows => { q with rows := some rows }
    | _, _ => q

theorem unlinkCheck_body (c : UnlinkCall) :
    unlinkCheck.Obeys { user := c.user } (unlinkOidcIdentity c) fun _ _ => True := by
  refine Discipline.obeys_perform_bind.2 ⟨trivial, fun t _ => ?_⟩
  refine Discipline.obeys_perform_bind.2 ⟨rfl, fun user _ => ?_⟩
  refine Discipline.obeys_perform_bind.2 ⟨rfl, fun rows _ => ?_⟩
  split
  · exact ⟨trivial, fun _ _ => trivial⟩
  · rename_i hlast
    refine Discipline.obeys_perform_bind.2
      ⟨⟨rfl, _, _, rfl, rfl, fun hp hmem => ?_⟩, fun removed _ => ?_⟩
    · by_contra hlen
      refine hlast ?_
      rw [hp, decide_eq_true hmem, decide_eq_true (show rows.length ≤ 1 by omega)]
      rfl
    · cases removed with
      | false => exact ⟨trivial, fun _ _ => trivial⟩
      | true =>
        refine Discipline.obeys_perform_bind.2 ⟨trivial, fun appended _ => ?_⟩
        cases appended with
        | false => exact ⟨trivial, fun _ _ => trivial⟩
        | true =>
          refine Discipline.obeys_perform_bind.2 ⟨trivial, fun done _ => ?_⟩
          cases done <;> trivial

/-! ### What a statement does to the identities -/

variable {s s' : Logins} {u : UserId} {e : UnlinkEnv}

theorem Logins.Keeps.linked {k : OidcSubject} (h : s.Keeps u k) : s.Linked u :=
  h.elim fun r hr => ⟨k, r, hr.1.committed, hr.2⟩

theorem UnlinkAct.exec_users {β : Type} {a : UnlinkAct β} {b : β}
    (he : a.exec e s = some (s', b)) : s'.users = s.users := by
  cases a with
  | delete t u target =>
    simp only [exec] at he
    split at he
    · obtain ⟨ids, -, hs⟩ := Option.map_eq_some_iff.1 he
      obtain ⟨rfl, -⟩ := Prod.mk.inj hs
      rfl
    · cases he
      rfl
  | commit t =>
    simp only [exec] at he
    split at he <;> cases he <;> rfl
  | _ => cases he; rfl

/-- Whose identity a statement deletes, and which. -/
def UnlinkAct.deletes {β : Type} : UnlinkAct β → Option (UserId × OidcSubject)
  | delete _ u target => some (u, target)
  | _ => none

/-- Nothing but its own delete touches an identity that nobody is removing. -/
theorem Logins.Keeps.exec {β : Type} {a : UnlinkAct β} {b : β} {k : OidcSubject}
    (h : s.Keeps u k) (he : a.exec e s = some (s', b)) (hk : a.deletes ≠ some (u, k)) :
    s'.Keeps u k := by
  obtain ⟨r, hr, hu⟩ := h
  cases a with
  | delete t v target =>
    simp only [UnlinkAct.exec] at he
    split at he
    · rename_i hown
      obtain ⟨ids, hw, hs⟩ := Option.map_eq_some_iff.1 he
      obtain ⟨rfl, -⟩ := Prod.mk.inj hs
      refine ⟨r, hr.write hw ?_, hu⟩
      rintro rfl
      -- The row that is deleted is the user's own.
      rw [hr.view t, Option.any_some, decide_eq_true_eq] at hown
      obtain rfl := hu.symm.trans hown
      exact hk rfl
    · cases he
      exact ⟨r, hr, hu⟩
  | commit t =>
    simp only [UnlinkAct.exec] at he
    split at he <;> cases he
    · exact ⟨r, hr.rollback t, hu⟩
    · exact ⟨r, hr.commit t, hu⟩
  | rollback t => cases he; exact ⟨r, hr.rollback t, hu⟩
  | _ => cases he; exact ⟨r, hr, hu⟩

/-! ### Every interleaving -/

/-- What a request knows is true. -/
structure UnlinkFacts.Holds (q : UnlinkFacts) (s : Logins) (past : List (Event UnlinkAct)) :
    Prop where
  /-- It has read the user's row. -/
  password : ∀ b, q.password = some b → b = hasPassword (s.users.lookup q.user)
  rows : ∀ rows, q.rows = some rows → rows.Nodup ∧
    ∃ t, ⟨.listOidcIdentities t q.user, rows⟩ ∈ past

/-- Users are as they were, and nobody without a password has lost the last identity. -/
structure UnlinkInv (s₀ s : Logins) : Prop where
  /-- No request writes users. -/
  users : s.users = s₀.users
  /-- An identity remains that nobody is removing. -/
  remains : ∀ u, hasPassword (s₀.users.lookup u) = false → s₀.Linked u → ∃ k, s.Keeps u k

variable {s₀ : Logins} {q : UnlinkFacts} {past : List (Event UnlinkAct)} {β : Type}
  {a : UnlinkAct β} {b : β}

/-- A request leaves the user an identity: if it deletes one it has listed two. -/
theorem UnlinkInv.exec (h : UnlinkInv s₀ s) (hq : q.Holds s past) (hok : unlinkCheck.ok q a)
    (hg : a.timely s past) (he : a.exec e s = some (s', b)) : UnlinkInv s₀ s' := by
  refine ⟨(UnlinkAct.exec_users he).trans h.users, fun u hu hl => ?_⟩
  obtain ⟨k, hk⟩ := h.remains u hu hl
  by_cases hd : a.deletes = some (u, k)
  · cases a with
    | delete t u' target =>
      obtain ⟨rfl, rfl⟩ := Prod.mk.inj (Option.some.inj hd)
      obtain ⟨rfl, password, rows, hp, hr, hlast⟩ := hok
      obtain ⟨hnodup, t', hmem⟩ := hq.rows rows hr
      have hrows := hg t' rows hmem
      have hlen := hlast (by rw [hq.password _ hp, h.users, hu]) ((hrows _).2 hk)
      -- Two were listed, so another than the target is there, and it is not being removed.
      obtain ⟨k', hk', hne⟩ : ∃ k' ∈ rows, k' ≠ target := by
        by_contra hall
        push Not at hall
        have hsub : rows ⊆ [target] := fun x hx => by simp [hall x hx]
        have hle := (List.subperm_of_subset hnodup hsub).length_le
        rw [List.length_singleton] at hle
        omega
      refine ⟨k', ((hrows k').1 hk').exec he fun hd' => hne ?_⟩
      exact (Prod.mk.inj (Option.some.inj hd')).2.symm
    | _ => cases hd
  · exact ⟨k, hk.exec he hd⟩

theorem UnlinkFacts.Holds.exec (h : q.Holds s past) (he : a.exec e s = some (s', b))
    (past' : List (Event UnlinkAct)) : q.Holds s' (past ++ past') where
  password b hb := by rw [UnlinkAct.exec_users he]; exact h.password b hb
  rows rows hr := by
    obtain ⟨hn, t, hm⟩ := h.rows rows hr
    exact ⟨hn, t, List.mem_append_left _ hm⟩

/-- What a statement is answered is true. -/
theorem UnlinkFacts.Holds.next (h : q.Holds s past) (hok : unlinkCheck.ok q a)
    (he : a.exec e s = some (s', b)) :
    unlinkCheck.ans a b ∧ (unlinkCheck.next q a b).Holds s' (past ++ [⟨a, b⟩]) := by
  have hframe := h.exec he [⟨a, b⟩]
  cases a with
  | getUserById t u =>
    cases he
    obtain rfl : u = q.user := hok
    exact ⟨trivial, fun b hb => (Option.some.inj hb).symm, hframe.rows⟩
  | listOidcIdentities t u =>
    cases he
    obtain rfl : u = q.user := hok
    have hnodup := Table.nodup_select (fun _ (r : OidcIdentity) => decide (r.userId = q.user))
      (s.identities.view t)
    refine ⟨hnodup, hframe.password, fun rows hr => ?_⟩
    obtain rfl := Option.some.inj hr
    exact ⟨hnodup, t, List.mem_append_right _ (List.mem_singleton.2 rfl)⟩
  | _ => exact ⟨trivial, hframe⟩

theorem unlinking_sound (s₀ : Logins) (hw : s₀.identities.writes = []) :
    Sound unlinking timelyDeletes unlinkCheck (fun c => { user := c.user }) s₀
      (fun s _ => UnlinkInv s₀ s) fun i _ q s log => q.Holds s (log.past i) where
  init := ⟨rfl, fun u _ ⟨k, r, hr, hu⟩ => ⟨k, r, ⟨hr, by simp [hw]⟩, hu⟩⟩
  start _ _ _ := ⟨fun _ hb => absurd hb (by simp), fun _ hr => absurd hr (by simp)⟩
  step _ _ hg he hinv hq hok := by
    obtain ⟨hans, hq'⟩ := hq.next hok he
    rw [Log.past_append_self]
    exact ⟨hans, hinv.exec hq hok hg he, hq'⟩
  frame _ _ _ he _ _ _ _ _ _ hj hq' := by
    rw [Log.past_append_ne hj]
    simpa using hq'.exec he []

/-- **No lock-out while deletes are timely**: a user who has no password and had an identity has one
in every state of every run. -/
theorem identity_remains (users : Table UserId UserRecord)
    (identities : Table OidcSubject OidcIdentity)
    {P : Pool UnlinkAct Logins UnlinkCall (Except RequestFailure Unit)}
    (h : Run unlinking timelyDeletes
      (.init { users := users, identities := { committed := identities } }) P) (u : UserId)
    (hu : hasPassword (users.lookup u) = false)
    (hl : ∃ k r, identities.lookup k = some r ∧ r.userId = u) : P.shared.Linked u := by
  obtain ⟨hinv, -⟩ := (unlinking_sound _ rfl).of_run unlinkCheck_body h
  obtain ⟨k, hk⟩ := hinv.remains u hu hl
  exact hk.linked

/-! ### Two requests at once -/

/-- The identities of a user that no request is removing. -/
def Logins.remaining (s : Logins) (u : UserId) : List OidcSubject :=
  ((s.identities.committed.select fun k r => decide (r.userId = u) &&
    s.identities.writes.all fun w => decide (w.2.1 ≠ k)).map Prod.fst)

theorem Logins.mem_remaining {k : OidcSubject} : k ∈ s.remaining u ↔ s.Keeps u k := by
  simp only [Logins.remaining, List.mem_map, Prod.exists, Table.mem_select, Bool.and_eq_true,
    decide_eq_true_eq, List.all_eq_true, exists_and_right, exists_eq_right]
  constructor
  · rintro ⟨r, hr, hu, hw⟩
    exact ⟨r, ⟨hr, hw⟩, hu⟩
  · rintro ⟨r, hr, hu⟩
    exact ⟨r, hr.committed, hu, hr.unwritten⟩

/-- The identities a request has listed. -/
def listed (x : Event UnlinkAct) : Option (UserId × List OidcSubject) :=
  match x with
  | ⟨.listOidcIdentities _ u, rows⟩ => some (u, rows)
  | _ => none

/-- Checks that a statement is timely. -/
def UnlinkAct.isTimely {β : Type} (s : Logins) (past : List (Event UnlinkAct)) :
    UnlinkAct β → Bool
  | delete _ u _ => (past.filterMap listed).all fun x => decide (x.1 = u →
      (∀ k ∈ x.2, k ∈ s.remaining u) ∧ ∀ k ∈ s.remaining u, k ∈ x.2)
  | _ => true

theorem UnlinkAct.timely_of_isTimely (h : a.isTimely s past = true) : a.timely s past := by
  cases a with
  | delete t u target =>
    intro t' rows hmem k
    have hall := List.all_eq_true.1 h (u, rows) (List.mem_filterMap.2 ⟨_, hmem, rfl⟩)
    obtain ⟨hsub, hsup⟩ := of_decide_eq_true hall rfl
    rw [← Logins.mem_remaining]
    exact ⟨hsub k, hsup k⟩
  | _ => trivial

namespace Sample

/-- A user without a password who has linked two identities. -/
def logins : Table UserId UserRecord × Table OidcSubject OidcIdentity :=
  ((∅ : Table UserId UserRecord).insert "ada" { userId := "ada", level := "tier1", authKind := .oidc },
    (∅ : Table OidcSubject OidcIdentity)
      |>.insert ("op", "work") ⟨"ada", none⟩
      |>.insert ("op", "home") ⟨"ada", none⟩)

/-- One request after the other: the second is refused. -/
def inTurn : List (Move UnlinkEnv UnlinkCall) :=
  [.start ⟨"ada", ("op", "work")⟩, .start ⟨"ada", ("op", "home")⟩] ++
    List.replicate 6 (.step 0 {}) ++ List.replicate 4 (.step 1 {})

/-- Both list the identities before either deletes one. -/
def atOnce : List (Move UnlinkEnv UnlinkCall) :=
  [.start ⟨"ada", ("op", "work")⟩, .start ⟨"ada", ("op", "home")⟩] ++
    List.replicate 3 (.step 0 {}) ++ List.replicate 3 (.step 1 {}) ++
    List.replicate 3 (.step 0 {}) ++ List.replicate 3 (.step 1 {})

end Sample

/-- In turn, the second request leaves the last identity alone. -/
theorem identity_remains_in_turn : ∃ P, Run unlinking timelyDeletes
      (.init { users := Sample.logins.1, identities := { committed := Sample.logins.2 } }) P ∧
    P.threads.all (fun th => th.prog.finished) = true ∧ P.shared.Linked "ada" := by
  have hplay : ((unlinking.run (fun P i _ a _ => a.isTimely P.shared (P.past i))
      (.init { users := Sample.logins.1, identities := { committed := Sample.logins.2 } })
      Sample.inTurn).map fun P => P.threads.all fun th => th.prog.finished) = some true := by
    decide +kernel
  obtain ⟨P, hP, hdone⟩ := Option.map_eq_some_iff.1 hplay
  have hrun : Run unlinking timelyDeletes
      (.init { users := Sample.logins.1, identities := { committed := Sample.logins.2 } }) P :=
    Run.of_run (fun _ _ => trivial) (fun _ _ _ _ _ hc => UnlinkAct.timely_of_isTimely hc) hP
  exact ⟨P, hrun, hdone, identity_remains _ _ hrun "ada" (by decide)
    ⟨("op", "work"), ⟨"ada", none⟩, by decide, rfl⟩⟩

/-- Two requests at once remove both identities of a user without a password. -/
theorem locked_out : ∃ P, Run unlinking .free
      (.init { users := Sample.logins.1, identities := { committed := Sample.logins.2 } }) P ∧
    P.threads.all (fun th => th.prog.finished) = true ∧
    hasPassword (Sample.logins.1.lookup "ada") = false ∧
    Logins.Linked { identities := { committed := Sample.logins.2 } } "ada" ∧
    ¬ P.shared.Linked "ada" := by
  have hplay : ((unlinking.run (fun _ _ _ _ _ => true)
      (.init { users := Sample.logins.1, identities := { committed := Sample.logins.2 } })
      Sample.atOnce).map fun P => (P.threads.all fun th => th.prog.finished,
        P.shared.identities.committed.entries)) = some (true, []) := by
    decide +kernel
  obtain ⟨P, hP, hend⟩ := Option.map_eq_some_iff.1 hplay
  obtain ⟨hdone, hnone⟩ := Prod.mk.inj hend
  refine ⟨P, Run.of_run (fun _ _ => trivial) (fun _ _ _ _ _ _ => trivial) hP, hdone, by decide,
    ⟨("op", "work"), ⟨"ada", none⟩, by decide, rfl⟩, ?_⟩
  rintro ⟨k, r, hr, -⟩
  have hmem := AList.mem_lookup_iff.1 hr
  rw [hnone] at hmem
  exact absurd hmem List.not_mem_nil

end Backplane
