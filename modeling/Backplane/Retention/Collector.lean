import Backplane.Router.Closing
import Backplane.Retention.Purge

/-!
# The collector of closed sessions

A cycle of the collector selects the sessions that were closed long enough ago and have no open
task, and then purges them one after the other, each in a transaction of its own; it stops at the
first purge that raises.  Everything else the router does goes on in the meantime.

* `GcAct`, `GcAct.exec` : the actions of the router, and those of the collector.
* `gcClosedSessions`, `closeAndPurge` : the programs that purge.
* `collector` : the machine in which they run together with all calls of the router.
* `undisturbed` : no session is reopened while a cycle that selected it has yet to purge it.
* `settled_of_run` : in such runs a session that a cycle is about to purge is closed and has no
  open task.
-/

namespace Backplane

open Concur Prog

/-! ### The machine -/

/-- The store, and the identifiers that are no longer in it. -/
structure GcState where
  /-- The router and what it stores. -/
  store : Store
  /-- Sessions that were purged.  Generated ids carry 128 random bits, so none comes back. -/
  retired : List SessionId := []

/-- The first state of a deployment. -/
def GcState.boot (d : Deployment) : GcState := { store := { router := d.boot } }

/-- What a step learns from outside. -/
structure GcEnv where
  /-- What a step of the router learns. -/
  base : Env := {}
  /-- In which order the database returns the rows. -/
  order : List (SessionId × SessionRow) := []

/-- How many sessions a cycle selects at most. -/
def gcBatch : ℕ := 200

namespace Store

variable (s : Store) (cutoff : ℕ)

/-- Whether the session was closed before the cutoff and has no open task. -/
def collectable (x : SessionId) (row : SessionRow) : Bool :=
  row.closedAt.any (fun t => decide (t < cutoff)) &&
    (s.db.tasks.openWhere fun r => decide (r.sessionId = x)).isEmpty

/-- `ORDER BY closed_at`, which leaves the order of equals to the database. -/
def closedEarlier (p q : SessionId × SessionRow) : Prop := p.2.closedAt.getD 0 ≤ q.2.closedAt.getD 0

instance : DecidableRel closedEarlier := fun _ _ => inferInstanceAs (Decidable (_ ≤ _))

/-- The rows of the selection in this order are what the database may return. -/
def Lists (order : List (SessionId × SessionRow)) : Prop :=
  order.Perm (s.db.sessions.select (s.collectable cutoff)) ∧ order.Pairwise closedEarlier

instance (order : List (SessionId × SessionRow)) : Decidable (s.Lists cutoff order) :=
  inferInstanceAs (Decidable (_ ∧ _))

end Store

/-- The actions of the router, of a purge and of the collector. -/
inductive GcAct : Type → Type 1
  | router {β : Type} (a : Act β) : GcAct β
  /-- The selection of a cycle: at most `gcBatch` sessions with their users. -/
  | selectClosed (cutoff : ℕ) : GcAct (List (SessionId × UserId))
  /-- The transaction around `purge_session`. -/
  | purgeSession (u : UserId) (x : SessionId) : GcAct (Except FkViolation Bool)

/-- What an action does; `none` when it has to wait. -/
def GcAct.exec (cfg : Config) : {β : Type} → GcAct β → GcEnv → GcState → Option (GcState × β)
  | _, router a, e, s =>
    -- the generator never yields the id of a purged session again
    if e.base.freshId ∈ s.retired then none
    else (a.exec cfg e.base s.store.router).map fun p =>
      ({ s with store := { s.store with router := p.1 } }, p.2)
  | _, selectClosed cutoff, e, s =>
    if s.store.Lists cutoff e.order then
      some (s, (e.order.take gcBatch).map fun p => (p.1, p.2.userId))
    else none
  | _, purgeSession u x, _, s =>
    match s.store.purgeSession u x with
    | .error err => some (s, .error err)
    | .ok (store, removed) =>
      some ({ store, retired := if removed then x :: s.retired else s.retired }, .ok removed)

/-- A program of the machine. -/
abbrev GcProg := Prog GcAct

/-- The rest of a cycle: purge the selected sessions in turn; the first purge that raises ends it. -/
def purgeEach : List (SessionId × UserId) → GcProg (Except FkViolation Unit)
  | [] => pure (.ok ())
  | (x, u) :: rows => do
    match ← perform (.purgeSession u x) with
    | .error err => pure (.error err)
    | .ok _ => purgeEach rows

/-- `_gc_closed_sessions` from the moment it has computed its cutoff. -/
def gcClosedSessions (cutoff : ℕ) : GcProg (Except FkViolation Unit) := do
  let rows ← perform (.selectClosed cutoff)
  purgeEach rows

/-- `DELETE /v1/sessions/{id}?purge=true`: close the session, then purge it. -/
def closeAndPurge (u : UserId) (x : SessionId) : GcProg (Except FkViolation Unit) := do
  if ← (closeSession u x).mapAct .router then
    match ← perform (.purgeSession u x) with
    | .error err => pure (.error err)
    | .ok _ => pure (.ok ())
  else pure (.ok ())

/-- What can start a coroutine. -/
inductive GcCall
  /-- Any call of the router: frames, admissions, and requests to open, close and reopen. -/
  | router (c : Call)
  | closeAndPurge (u : UserId) (x : SessionId)
  | collect (cutoff : ℕ)
  deriving DecidableEq

/-- The program a call runs. -/
def GcCall.body (cfg : Config) : GcCall → GcProg (Except FkViolation Unit)
  | .router c => do
    let _ ← (c.body cfg).mapAct GcAct.router
    pure (.ok ())
  | .closeAndPurge u x => Backplane.closeAndPurge u x
  | .collect cutoff => gcClosedSessions cutoff

/-- A pool of the machine. -/
abbrev GcPool := Pool GcAct GcState GcCall (Except FkViolation Unit)

/-- The router with its collector. -/
def collector (cfg : Config) : Machine GcAct GcEnv GcState GcCall (Except FkViolation Unit) where
  exec := GcAct.exec cfg
  body := GcCall.body cfg

/-! ### Sessions that a cycle has yet to purge -/

/-- The event selects the session. -/
def selects (x : SessionId) : Event GcAct → Bool
  | ⟨.selectClosed _, rows⟩ => rows.any fun p => decide (p.1 = x)
  | _ => false

/-- After this event the coroutine will not purge the session any more: it has, or a purge of its
own has raised. -/
def dropsFromBatch (x : SessionId) : Event GcAct → Bool
  | ⟨.purgeSession _ y, out⟩ => decide (y = x) || !out.isOk
  | _ => false

/-- The coroutine has selected the session and has yet to purge it. -/
def pending (past : List (Event GcAct)) (x : SessionId) : Bool :=
  past.any (selects x) && !past.any (dropsFromBatch x)

/-- The session the action reopens. -/
def GcAct.reopens : {β : Type} → GcAct β → Option SessionId
  | _, .router (.reopenSession _ x) => some x
  | _, _ => none

/-- The action does not reopen a session that one of `n` coroutines has yet to purge. -/
def leavesPending (n : ℕ) (log : Log GcAct) {β : Type} (a : GcAct β) : Bool :=
  a.reopens.all fun x => !(List.range n).any fun j => pending (log.past j) x

/-- **No session is reopened between its selection by a cycle and its purge in that cycle.** -/
def undisturbed : Guard GcAct GcEnv GcState GcCall (Except FkViolation Unit) :=
  ⟨fun _ _ => True, fun P _ _ a _ => leavesPending P.threads.length P.log a = true⟩

/-- Where a coroutine is in its cycle. -/
inductive GcPhase
  | outside
  | fresh
  /-- It has yet to purge these. -/
  | purging (todo : List SessionId)

namespace GcPhase

/-- A cycle selects first, and purges in the order of the selection. -/
def ok : {β : Type} → GcPhase → GcAct β → Prop
  | _, outside, .selectClosed _ => False
  | _, fresh, .selectClosed _ => True
  | _, purging todo, .purgeSession _ x => todo.head? = some x
  | _, outside, _ => True
  | _, _, _ => False

/-- The selection sets the batch; a purge that raises ends it. -/
def next : {β : Type} → GcPhase → GcAct β → β → GcPhase
  | _, outside, _, _ => outside
  | _, _, .selectClosed _, rows => purging (rows.map Prod.fst)
  | _, purging todo, .purgeSession _ _, .ok _ => purging todo.tail
  | _, _, .purgeSession _ _, _ => purging []
  | _, q, _, _ => q

end GcPhase

/-- The discipline of cycles. -/
def gcWork : Discipline GcAct GcPhase := ⟨GcPhase.ok, fun _ _ => True, GcPhase.next⟩

/-- What a call starts with. -/
def GcCall.phase : GcCall → GcPhase
  | .collect _ => .fresh
  | _ => .outside

theorem gcWork_router {α : Type} (p : Coroutine α) :
    gcWork.Obeys .outside (p.mapAct GcAct.router) fun q _ => q = .outside := by
  induction p with
  | ret a => rfl
  | act a k ih => exact ⟨trivial, fun b _ => ih b⟩

theorem gcWork_purgeEach (rows : List (SessionId × UserId)) :
    gcWork.Obeys (.purging (rows.map Prod.fst)) (purgeEach rows) fun _ _ => True := by
  induction rows with
  | nil => trivial
  | cons r rows ih =>
    refine ⟨rfl, fun out _ => ?_⟩
    cases out with
    | error err => trivial
    | ok removed => exact ih

theorem gcWork_body (cfg : Config) (c : GcCall) :
    gcWork.Obeys c.phase (c.body cfg) fun _ _ => True := by
  cases c with
  | router c => exact Discipline.obeys_bind.2 ((gcWork_router _).mono fun _ _ _ => trivial)
  | closeAndPurge u x =>
    refine Discipline.obeys_bind.2 ((gcWork_router _).mono ?_)
    rintro _ existed rfl
    cases existed with
    | false => trivial
    | true =>
      refine ⟨trivial, fun out _ => ?_⟩
      cases out <;> trivial
  | collect cutoff => exact ⟨trivial, fun rows _ => gcWork_purgeEach rows⟩

/-! ### What the actions do to a session -/

/-- The session is closed, or gone for good, and none of its tasks is open. -/
structure GcState.Settled (s : GcState) (x : SessionId) : Prop where
  /-- Closed or gone. -/
  closed : (∃ row, s.store.db.sessions.lookup x = some row ∧ row.closedAt.isSome = true) ∨
    (s.store.db.sessions.lookup x = none ∧ x ∈ s.retired)
  /-- No open task. -/
  tasks : ∀ t r, s.store.db.tasks.lookup t = some r → r.sessionId = x → r.state.isTerminal = true

/-- The references are consistent, and purged sessions stay away. -/
structure GcState.Inv (s : GcState) : Prop where
  consistent : s.store.Consistent
  /-- No purged session is in the table. -/
  retired : ∀ x ∈ s.retired, s.store.db.sessions.lookup x = none

section

variable {cfg : Config} {named : List TaskId} {db db' : Db} {y : Event Act} {u : UserId}
  {x z : SessionId} {s s' : GcState} {e : GcEnv}

/-- A session that is not there is still not there, or has just been opened. -/
theorem Effect.session_absent (h : Effect named db y db') (hx : db.sessions.lookup x = none) :
    db'.sessions.lookup x = none ∨ ∃ u, y = ⟨.openSession u, x⟩ := by
  cases h with
  | @close v z now =>
    simp only [Db.closeSessionTx]
    cases hg : db.getSession v z with
    | none => exact .inl hx
    | some row =>
      dsimp only
      split_ifs
      · exact .inl hx
      · refine .inl ((AList.lookup_insert_ne ?_).trans hx)
        rintro rfl
        rw [(Db.getSession_eq_some.1 hg).1] at hx
        exact absurd hx (by simp)
  | @reopen v z row hz =>
    refine .inl ((AList.lookup_insert_ne ?_).trans hx)
    rintro rfl
    rw [hz] at hx
    exact absurd hx (by simp)
  | @openSession v z now hz =>
    by_cases he : x = z
    · exact .inr ⟨v, by rw [he]⟩
    · exact .inl ((AList.lookup_insert_ne he).trans hx)
  | _ => exact .inl hx

/-- What a purge does: nothing, nothing but names, or exactly what it should. -/
theorem GcAct.exec_purgeSession {out : Except FkViolation Bool} (hc : s.store.Consistent)
    (he : GcAct.exec cfg (.purgeSession u x) e s = some (s', out)) :
    (s' = s ∧ out = .error .tasks ∧ ∃ y ≠ x, s.store.Hangs y x) ∨
      (s.store.SameTies s'.store ∧ s'.retired = s.retired ∧ out = .ok false ∧
        s.store.db.getSession u x = none) ∨
      (s.store.Purged u x s'.store ∧ s'.retired = x :: s.retired ∧ out = .ok true ∧
        ∀ y ≠ x, ¬ s.store.Hangs y x) := by
  simp only [exec] at he
  cases hx : s.store.db.getSession u x with
  | none =>
    obtain ⟨s₁, hs₁, hties⟩ := hc.purgeSession_absent hx
    rw [hs₁] at he
    obtain ⟨rfl, rfl⟩ := Prod.mk.inj (Option.some.inj he)
    exact .inr (.inl ⟨hties, rfl, rfl, rfl⟩)
  | some row =>
    by_cases hy : ∃ y ≠ x, s.store.Hangs y x
    · rw [hc.purgeSession_error hx hy] at he
      obtain ⟨rfl, rfl⟩ := Prod.mk.inj (Option.some.inj he)
      exact .inl ⟨rfl, rfl, hy⟩
    · simp only [not_exists, not_and] at hy
      obtain ⟨s₁, hs₁, hp⟩ := hc.purgeSession_ok hx hy
      rw [hs₁] at he
      obtain ⟨rfl, rfl⟩ := Prod.mk.inj (Option.some.inj he)
      exact .inr (.inr ⟨hp, rfl, rfl, hy⟩)

theorem GcAct.exec_router {β : Type} {a : Act β} {b : β}
    (he : GcAct.exec cfg (.router a) e s = some (s', b)) :
    e.base.freshId ∉ s.retired ∧ ∃ r, a.exec cfg e.base s.store.router = some (r, b) ∧
      s' = { s with store := { s.store with router := r } } := by
  simp only [exec, Option.ite_none_left_eq_some, Option.map_eq_some_iff] at he
  obtain ⟨hfresh, ⟨r, b'⟩, hr, hs⟩ := he
  obtain ⟨rfl, rfl⟩ := Prod.mk.inj hs
  exact ⟨hfresh, r, hr, rfl⟩

/-- **Every action keeps the references consistent and purged sessions away.** -/
theorem GcState.Inv.exec {β : Type} {a : GcAct β} {b : β} (h : s.Inv)
    (he : GcAct.exec cfg a e s = some (s', b)) : s'.Inv := by
  cases a with
  | router a =>
    obtain ⟨hfresh, r, hr, rfl⟩ := GcAct.exec_router he
    refine ⟨h.consistent.router (Act.exec_effect hr).1, fun x hx => ?_⟩
    refine ((Act.exec_effect hr).1.session_absent (h.retired x hx)).resolve_right ?_
    rintro ⟨v, hv⟩
    cases hv
    simp only [Act.exec, Option.ite_none_left_eq_some, Option.some.injEq, Prod.mk.injEq] at hr
    exact hfresh (hr.2.2 ▸ hx)
  | selectClosed cutoff =>
    simp only [GcAct.exec, Option.ite_none_right_eq_some, Option.some.injEq, Prod.mk.injEq] at he
    obtain ⟨-, rfl, -⟩ := he
    exact h
  | purgeSession u x =>
    rcases GcAct.exec_purgeSession h.consistent he with
      ⟨rfl, -⟩ | ⟨hties, hret, -⟩ | ⟨hp, hret, -, hy⟩
    · exact h
    · exact ⟨hties.consistent h.consistent, by rw [hret, hties.sessions]; exact h.retired⟩
    · refine ⟨hp.consistent h.consistent hy, fun z hz => ?_⟩
      rw [hret, List.mem_cons] at hz
      rw [hp.sessions]
      split_ifs with hzx
      · rfl
      · exact h.retired z (hz.resolve_left hzx)

/-- A settled session stays settled until it is reopened. -/
theorem GcState.Settled.exec {β : Type} {a : GcAct β} {b : β} (hs : s.Settled x) (h : s.Inv)
    (hno : a.reopens ≠ some x) (he : GcAct.exec cfg a e s = some (s', b)) : s'.Settled x := by
  have hinv := h.exec he
  cases a with
  | router a =>
    obtain ⟨-, r, hr, rfl⟩ := GcAct.exec_router he
    have heff := (Act.exec_effect hr).1
    constructor
    · rcases hs.closed with ⟨row, hrow, hclosed⟩ | ⟨-, hret⟩
      · obtain ⟨row', hrow', -, hclosed'⟩ := heff.archived ⟨row, hrow, rfl, hclosed⟩ fun v hv => by
          cases hv
          exact hno rfl
        exact .inl ⟨row', hrow', hclosed'⟩
      · exact .inr ⟨hinv.retired x hret, hret⟩
    · intro t r' hr' hx
      cases hold : s.store.db.tasks.lookup t with
      | none =>
        -- a new task is admitted into an open session only
        obtain ⟨f, c, d, now, root, -, rfl, -, ⟨w, hw, -, hopen⟩, -⟩ := heff.created hold hr'
        replace hw : s.store.db.sessions.lookup x = some w := hx ▸ hw
        rcases hs.closed with ⟨row, hrow, hclosed⟩ | ⟨hnone, -⟩
        · obtain rfl := Option.some.inj (hw.symm.trans hrow)
          simp [hopen] at hclosed
        · rw [hnone] at hw
          exact absurd hw (by simp)
      | some r₀ =>
        obtain ⟨r₁, hr₁, hl⟩ := heff.later hold
        obtain rfl := Option.some.inj (hr'.symm.trans hr₁)
        have hend := hs.tasks t r₀ hold (hl.sessionId.symm.trans hx)
        rw [hl.ended hend, hend]
  | selectClosed cutoff =>
    simp only [GcAct.exec, Option.ite_none_right_eq_some, Option.some.injEq, Prod.mk.injEq] at he
    obtain ⟨-, rfl, -⟩ := he
    exact hs
  | purgeSession u z =>
    rcases GcAct.exec_purgeSession h.consistent he with
      ⟨rfl, -⟩ | ⟨hties, hret, -⟩ | ⟨hp, hret, -⟩
    · exact hs
    · exact ⟨by rw [hties.sessions, hret]; exact hs.closed, by rw [hties.tasks]; exact hs.tasks⟩
    · constructor
      · rw [hp.sessions, hret]
        split_ifs with hxz
        · exact .inr ⟨rfl, hxz ▸ List.mem_cons_self⟩
        · exact hs.closed.imp_right fun h => ⟨h.1, List.mem_cons_of_mem _ h.2⟩
      · intro t r hr
        rw [hp.tasks, Option.filter_eq_some_iff] at hr
        exact hs.tasks t r hr.1

end

/-! ### What a cycle knows -/

/-- What a coroutine in this phase relies on. -/
def GcPhase.Holds (i : ℕ) (s : GcState) (log : Log GcAct) : GcPhase → Prop
  | .outside => True
  | .fresh => log.past i = []
  | .purging todo => todo.Nodup ∧ ∀ x ∈ todo, s.Settled x ∧ pending (log.past i) x = true

section

variable {cfg : Config} {d : Deployment} {x : SessionId} {s s' : GcState} {e : GcEnv} {i j : ℕ}
  {log : Log GcAct} {q : GcPhase} {β : Type} {a : GcAct β} {b : β}
  {P : GcPool}

theorem pending_append {past : List (Event GcAct)} {y : Event GcAct}
    (hp : pending past x = true) (hy : dropsFromBatch x y = false) :
    pending (past ++ [y]) x = true := by
  simp only [pending, Bool.and_eq_true, Bool.not_eq_true', List.any_append, List.any_cons,
    List.any_nil, Bool.or_false] at hp ⊢
  rw [hp.1, hp.2, hy]
  exact ⟨rfl, rfl⟩

theorem lt_of_pending (hrun : Run (collector cfg) undisturbed (.init (.boot d)) P)
    (hp : pending (P.log.past j) x = true) : j < P.threads.length := by
  rw [pending, Bool.and_eq_true, List.any_eq_true] at hp
  obtain ⟨⟨y, hy, -⟩, -⟩ := hp
  exact hrun.log_lt _ (Log.mem_past.1 hy)

/-- The others leave alone what a cycle has selected. -/
theorem GcPhase.Holds.frame (hrun : Run (collector cfg) undisturbed (.init (.boot d)) P)
    (hij : j ≠ i) (h : P.shared.Inv)
    (hg : leavesPending P.threads.length P.log a = true)
    (he : GcAct.exec cfg a e P.shared = some (s', b)) (hq : q.Holds j P.shared P.log) :
    q.Holds j s' (P.log ++ [(i, ⟨a, b⟩)]) := by
  cases q with
  | outside => trivial
  | fresh => exact (Log.past_append_ne hij).trans hq
  | purging todo =>
    refine ⟨hq.1, fun x hx => ?_⟩
    obtain ⟨hset, hpend⟩ := hq.2 x hx
    have hpast : Log.past (P.log ++ [(i, ⟨a, b⟩)]) j = P.log.past j := Log.past_append_ne hij
    refine ⟨hset.exec h (fun hre => ?_) he, by rw [hpast]; exact hpend⟩
    rw [leavesPending, hre, Option.all_some, Bool.not_eq_true', List.any_eq_false] at hg
    exact hg j (List.mem_range.2 (lt_of_pending hrun hpend)) hpend

/-- What a cycle selects is closed and has no open task. -/
theorem settled_of_selected {cutoff : ℕ} {order : List (SessionId × SessionRow)}
    (hl : s.store.Lists cutoff order) {p : SessionId × SessionRow} (hp : p ∈ order) :
    s.Settled p.1 := by
  obtain ⟨hrow, hcol⟩ := Table.mem_select.1 (hl.1.mem_iff.1 hp)
  simp only [Store.collectable, Bool.and_eq_true, List.isEmpty_iff] at hcol
  obtain ⟨hclosed, hopen⟩ := hcol
  refine ⟨.inl ⟨p.2, hrow, ?_⟩, fun t r hr hrx => ?_⟩
  · cases hc : p.2.closedAt with
    | none => simp [hc] at hclosed
    | some c => rfl
  · by_contra hne
    have hmem : r ∈ s.store.db.tasks.openWhere fun r => decide (r.sessionId = p.1) :=
      Db.mem_openWhere.2 ⟨t, hr, by simpa using hrx, by simpa using hne⟩
    rw [hopen] at hmem
    exact absurd hmem List.not_mem_nil

theorem GcPhase.Holds.next (hq : q.Holds i s log) (hok : q.ok a) (h : s.Inv)
    (he : GcAct.exec cfg a e s = some (s', b)) :
    (q.next a b).Holds i s' (log ++ [(i, ⟨a, b⟩)]) := by
  cases q with
  | outside => cases a <;> trivial
  | fresh =>
    cases a with
    | selectClosed cutoff =>
      simp only [GcAct.exec, Option.ite_none_right_eq_some, Option.some.injEq,
        Prod.mk.injEq] at he
      obtain ⟨hl, rfl, rfl⟩ := he
      have hkeys : ((e.order.take gcBatch).map fun p => (p.1, p.2.userId)).map Prod.fst =
          (e.order.take gcBatch).map Prod.fst := by
        rw [List.map_map]
        rfl
      have hnodup : (e.order.map Prod.fst).Nodup :=
        (hl.1.map Prod.fst).nodup_iff.2 (Table.nodup_select _ _)
      have hpast : log.past i = [] := hq
      refine ⟨?_, fun x hx => ?_⟩
      · rw [hkeys]
        exact hnodup.sublist ((List.take_sublist _ _).map _)
      · have hx' := hx
        rw [hkeys, List.mem_map] at hx
        obtain ⟨p, hp, rfl⟩ := hx
        refine ⟨settled_of_selected hl (List.mem_of_mem_take hp), ?_⟩
        rw [Log.past_append_self, hpast, List.nil_append, pending]
        obtain ⟨r, hr, hrx⟩ := List.mem_map.1 hx'
        simp only [List.any_cons, List.any_nil, Bool.or_false, selects, dropsFromBatch,
          Bool.not_false, Bool.and_true, List.any_eq_true, decide_eq_true_eq]
        exact ⟨r, hr, hrx⟩
    | _ => exact absurd hok (by simp [GcPhase.ok])
  | purging todo =>
    cases a with
    | purgeSession u x =>
      cases todo with
      | nil => exact absurd hok (by simp [GcPhase.ok])
      | cons x' todo =>
        obtain rfl : x' = x := Option.some.inj hok
        cases b with
        | error err => exact ⟨List.nodup_nil, fun z hz => absurd hz List.not_mem_nil⟩
        | ok removed =>
          obtain ⟨hx, hn⟩ := List.nodup_cons.1 hq.1
          refine ⟨hn, fun z hz => ?_⟩
          obtain ⟨hset, hpend⟩ := hq.2 z (List.mem_cons_of_mem _ hz)
          refine ⟨hset.exec h (by simp [GcAct.reopens]) he, ?_⟩
          rw [Log.past_append_self]
          refine pending_append hpend ?_
          simp only [dropsFromBatch, Except.isOk, Except.toBool, Bool.not_true, Bool.or_false,
            decide_eq_false_iff_not]
          rintro rfl
          exact hx hz
    | _ => exact absurd hok (by simp [GcPhase.ok])

theorem GcState.inv_boot (d : Deployment) : (GcState.boot d).Inv := by
  have hreach : Store.Reachable {} (GcState.boot d).store := ⟨d, .refl⟩
  exact ⟨hreach.consistent, fun _ h => absurd h List.not_mem_nil⟩

/-- Only cycles of the collector are not outside. -/
def GcCall.Fits (c : GcCall) (q : GcPhase) : Prop := ∀ cutoff, c = .collect cutoff → q ≠ .outside

theorem GcCall.Fits.next {c : GcCall} (h : c.Fits q) (hok : q.ok a) : c.Fits (q.next a b) := by
  intro cutoff hc
  have hq := h cutoff hc
  cases q with
  | outside => exact absurd rfl hq
  | fresh =>
    cases a with
    | selectClosed cutoff' => simp [GcPhase.next]
    | _ => exact absurd hok (by simp [GcPhase.ok])
  | purging todo =>
    cases a with
    | purgeSession u x => cases b <;> simp [GcPhase.next]
    | _ => exact absurd hok (by simp [GcPhase.ok])

theorem sound_gcWork (cfg : Config) (d : Deployment) :
    Sound (collector cfg) undisturbed gcWork GcCall.phase (.boot d) (fun s _ => s.Inv)
      fun i c q s log => c.Fits q ∧ q.Holds i s log where
  init := GcState.inv_boot d
  start {P c} hrun _ _ := by
    have hpast : Log.past P.log P.threads.length = [] := hrun.past_eq_nil le_rfl
    cases c with
    | collect cutoff => exact ⟨fun _ _ => by simp [GcCall.phase], hpast⟩
    | _ => exact ⟨fun _ h => absurd h (by simp), trivial⟩
  step _ _ _ he h hq hok := ⟨trivial, h.exec he, hq.1.next hok, hq.2.next hok h he⟩
  frame hrun _ hg he h _ _ _ _ _ hij hq' := ⟨hq'.1, hq'.2.frame hrun hij h hg he⟩

/-- **A session that a cycle is about to purge is closed, or gone, and has no open task**, as long
as no session is reopened between its selection by a cycle and its purge in that cycle. -/
theorem settled_of_run (h : Run (collector cfg) undisturbed (.init (.boot d)) P) {cutoff : ℕ}
    {u : UserId} {k : Except FkViolation Bool → GcProg (Except FkViolation Unit)}
    (hth : P.threads[i]? = some ⟨.collect cutoff, .act (.purgeSession u x) k⟩) :
    P.shared.Settled x := by
  obtain ⟨-, hthreads⟩ := (sound_gcWork cfg d).of_run (gcWork_body cfg) h
  obtain ⟨q, ⟨hfits, hq⟩, hok, -⟩ := hthreads i _ hth
  cases q with
  | outside => exact absurd rfl (hfits cutoff rfl)
  | fresh => exact hok.elim
  | purging todo =>
    cases todo with
    | nil => exact absurd hok (by simp [gcWork, GcPhase.ok])
    | cons x' todo =>
      obtain rfl : x' = x := Option.some.inj hok
      exact (hq.2 x' List.mem_cons_self).1

end

end Backplane
