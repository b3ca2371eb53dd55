import Backplane.Retention.Collector
import Backplane.Concur.Trace
import Backplane.Router.Reachable

/-!
# How far the collector gets

Cycle after cycle the collector takes the closed sessions in the order in which they were closed.  A
purge raises when a task of a session that is still there hangs below; the cycle stops at it, and so
does every later cycle.

* `Store.Blocked s pre x` : once the sessions `pre` are gone, the purge of `x` raises.
* `Store.Clears s pre` : the sessions `pre` can be purged in this order.
* `Cycles`, `Progress` : cycles with nothing in between, and what they should achieve.
* `Store.NoneStranded` : behind the first session whose purge raises there is none that could be
  purged.
* `progress_iff` : the cycles achieve what they should just when no session is stranded.
* `collector_safe_progress` : this and the safety of every run.
-/

namespace Backplane

open Concur Prog

namespace Store

section

variable (s : Store) (cutoff : ℕ)

/-- Once the sessions `pre` are gone, a task of another session still has its parent in `x`. -/
def Blocked (pre : List SessionId) (x : SessionId) : Prop := ∃ y, y ≠ x ∧ y ∉ pre ∧ s.Hangs y x

/-- The sessions can be purged in this order. -/
inductive Clears : List SessionId → Prop
  | nil : Clears []
  /-- The last one can be purged after the others. -/
  | snoc {pre : List SessionId} {x : SessionId} (h : Clears pre) (hx : ¬ s.Blocked pre x) :
      Clears (pre ++ [x])

/-- A cycle would select the session. -/
def Eligible (x : SessionId) : Prop :=
  ∃ row, s.db.sessions.lookup x = some row ∧ s.collectable cutoff x row = true

/-- The purge of the session by its user raises. -/
def Raises (x : SessionId) : Prop :=
  ∃ u row err, s.db.getSession u x = some row ∧ s.purgeSession u x = .error err

/-- In whatever order the database returns the eligible sessions: behind the first one whose purge
raises there is none that could be purged. -/
def NoneStranded : Prop :=
  ∀ order, s.Lists cutoff order → ∀ pre x post, order.map Prod.fst = pre ++ x :: post →
    s.Clears pre → s.Blocked pre x → ∀ z ∈ post, s.Blocked pre z

end

/-- The store `s'` is `s` without these sessions and their tasks. -/
structure Without (s : Store) (pre : List SessionId) (s' : Store) : Prop where
  sessions : ∀ z, s'.db.sessions.lookup z = if z ∈ pre then none else s.db.sessions.lookup z
  tasks : ∀ t, s'.db.tasks.lookup t = (s.db.tasks.lookup t).filter fun r => r.sessionId ∉ pre
  consistent : s'.Consistent

end Store

/-- The collector runs one cycle after the other, with nothing in between and with these cutoffs. -/
structure Cycles (cfg : Config) (s : GcState) (cutoff : ℕ → ℕ) (σ : ℕ → GcState) : Prop where
  start : σ 0 = s
  /-- Time goes on. -/
  mono : Monotone cutoff
  /-- Each state is what a cycle makes of the one before. -/
  cycle : ∀ n, ∃ r, Solo (collector cfg) (gcClosedSessions (cutoff n)) (σ n) r (σ (n + 1))

/-- Every session that is eligible at the cutoff is purged in some cycle, or its own purge raises
from some cycle on. -/
def Progress (cfg : Config) (cutoff : ℕ) (s : GcState) : Prop :=
  ∀ c σ, c 0 = cutoff → Cycles cfg s c σ → ∀ x, s.store.Eligible cutoff x →
    (∃ n, (σ n).store.db.sessions.lookup x = none) ∨ ∃ n, ∀ m ≥ n, (σ m).store.Raises x

namespace Store

section

variable {s s' s₁ : Store} {cutoff cutoff' : ℕ} {pre : List SessionId} {x y z : SessionId}
  {order D R : List (SessionId × SessionRow)} {row : SessionRow}

/-! ### Clearing a list of sessions -/

theorem Clears.not_blocked {l : List SessionId} (h : s.Clears l) {post : List SessionId}
    (hl : l = pre ++ x :: post) : ¬ s.Blocked pre x := by
  induction h generalizing post with
  | nil => simp at hl
  | @snoc pre' x' _ hx ih =>
    cases post using List.reverseRecOn with
    | nil =>
      obtain ⟨rfl, hxx⟩ := List.append_inj' hl rfl
      obtain rfl := List.singleton_inj.1 hxx
      exact hx
    | append_singleton post p _ =>
      rw [← List.cons_append, ← List.append_assoc] at hl
      exact ih (List.append_inj' hl rfl).1

/-- Where a list stops being cleared is unique. -/
theorem Clears.unique {d d' t t' : List SessionId} (h : s.Clears (pre ++ d))
    (h' : s.Clears (pre ++ d')) (hl : d ++ t = d' ++ t')
    (ht : ∀ x, t.head? = some x → s.Blocked (pre ++ d) x)
    (ht' : ∀ x, t'.head? = some x → s.Blocked (pre ++ d') x) : d = d' := by
  rcases List.append_eq_append_iff.1 hl with ⟨e, rfl, rfl⟩ | ⟨e, rfl, rfl⟩
  · cases e with
    | nil => simp
    | cons x e =>
      exact absurd (ht x rfl) (h'.not_blocked (List.append_assoc _ _ _).symm)
  · cases e with
    | nil => simp
    | cons x e =>
      exact absurd (ht' x rfl) (h.not_blocked (List.append_assoc _ _ _).symm)

/-! ### What is left when sessions are gone -/

theorem Without.hangs (h : s.Without pre s') :
    s'.Hangs y z ↔ s.Hangs y z ∧ y ∉ pre ∧ z ∉ pre := by
  simp only [Hangs, h.tasks, Option.filter_eq_some_iff, decide_eq_true_eq]
  constructor
  · rintro ⟨t, r, p, r', ⟨hr, hy⟩, hp, ⟨hr', hz⟩, rfl, rfl⟩
    exact ⟨⟨t, r, p, r', hr, hp, hr', rfl, rfl⟩, hy, hz⟩
  · rintro ⟨⟨t, r, p, r', hr, hp, hr', rfl, rfl⟩, hy, hz⟩
    exact ⟨t, r, p, r', ⟨hr, hy⟩, hp, ⟨hr', hz⟩, rfl, rfl⟩

theorem Without.blocked (h : s.Without pre s') (hx : x ∉ pre) :
    s.Blocked pre x ↔ ∃ y ≠ x, s'.Hangs y x := by
  simp only [Blocked, h.hangs, hx, not_false_eq_true, and_true]
  exact exists_congr fun y => and_congr_right fun _ => and_comm

theorem Without.nil (hc : s.Consistent) : s.Without [] s :=
  ⟨fun z => by simp, fun t => by cases h : s.db.tasks.lookup t <;> simp [Option.filter], hc⟩

theorem Without.snoc {u : UserId} (h : s.Without pre s₁) (hp : s₁.Purged u x s')
    (hy : ∀ y ≠ x, ¬ s₁.Hangs y x) : s.Without (pre ++ [x]) s' where
  sessions z := by
    rw [hp.sessions, h.sessions]
    by_cases hz : z = x <;> simp [hz]
  tasks t := by
    rw [hp.tasks, h.tasks, Option.filter_filter]
    congr 1
    funext r
    by_cases hr : r.sessionId = x <;> simp [hr]
  consistent := hp.consistent h.consistent hy

theorem collectable_iff : s.collectable cutoff x row = true ↔
    (∃ c, row.closedAt = some c ∧ c < cutoff) ∧
      ∀ t r, s.db.tasks.lookup t = some r → r.sessionId = x → r.state.isTerminal = true := by
  rw [collectable, Bool.and_eq_true, List.isEmpty_iff, List.eq_nil_iff_forall_not_mem]
  refine and_congr (by simp [Option.any_eq_true]) ?_
  simp only [Db.mem_openWhere, decide_eq_true_eq, not_exists, not_and, Bool.not_eq_false]
  exact ⟨fun h t r hr hx => h r t hr hx, fun h r t hr hx => h t r hr hx⟩

theorem Without.collectable (h : s.Without pre s') (hx : x ∉ pre) :
    s'.collectable cutoff x row = s.collectable cutoff x row := by
  rw [Bool.eq_iff_iff, collectable_iff, collectable_iff]
  refine and_congr_right fun _ => ?_
  simp only [h.tasks, Option.filter_eq_some_iff, decide_eq_true_eq]
  constructor
  · exact fun hall t r hr hrx => hall t r ⟨hr, hrx ▸ hx⟩ hrx
  · exact fun hall t r hr hrx => hall t r hr.1 hrx

/-! ### The listings the database may return -/

theorem lists_iff : s.Lists cutoff order ↔ (order.map Prod.fst).Nodup ∧
    (∀ p, p ∈ order ↔
      s.db.sessions.lookup p.1 = some p.2 ∧ s.collectable cutoff p.1 p.2 = true) ∧
    order.Pairwise closedEarlier := by
  have hsel := Table.nodup_select (s.collectable cutoff) s.db.sessions
  constructor
  · rintro ⟨hperm, hsorted⟩
    exact ⟨(hperm.map Prod.fst).nodup_iff.2 hsel,
      fun p => hperm.mem_iff.trans Table.mem_select, hsorted⟩
  · rintro ⟨hn, hmem, hsorted⟩
    refine ⟨(List.perm_ext_iff_of_nodup (.of_map _ hn) (.of_map _ hsel)).2 fun p => ?_, hsorted⟩
    exact (hmem p).trans Table.mem_select.symm

theorem exists_lists (s : Store) (cutoff : ℕ) : ∃ order, s.Lists cutoff order := by
  have htotal : Std.Total closedEarlier := ⟨fun _ _ => Nat.le_total _ _⟩
  have htrans : IsTrans _ closedEarlier := ⟨fun _ _ _ => Nat.le_trans⟩
  exact ⟨_, List.perm_insertionSort closedEarlier _, List.pairwise_insertionSort closedEarlier _⟩

/-- The rows that are left of a listing are a listing of what is left. -/
theorem Without.lists (h : s.Without (D.map Prod.fst) s') (hl : s.Lists cutoff (D ++ R)) :
    s'.Lists cutoff R := by
  obtain ⟨hn, hmem, hsorted⟩ := lists_iff.1 hl
  rw [List.map_append, List.nodup_append] at hn
  obtain ⟨-, hnR, hdisj⟩ := hn
  refine lists_iff.2 ⟨hnR, fun p => ?_, (List.pairwise_append.1 hsorted).2.1⟩
  by_cases hp : p.1 ∈ D.map Prod.fst
  · refine iff_of_false (fun hpR => hdisj _ hp _ (List.mem_map_of_mem hpR) rfl) ?_
    rw [h.sessions, if_pos hp]
    simp
  · have hpD : p ∉ D := fun hpD => hp (List.mem_map_of_mem hpD)
    rw [h.sessions, if_neg hp, h.collectable hp, ← hmem p, List.mem_append, or_iff_right hpD]

/-- Another listing of what is left completes the same beginning. -/
theorem lists_append {R' : List (SessionId × SessionRow)} (hl : s.Lists cutoff (D ++ R))
    (hp : R'.Perm R) (hs : R'.Pairwise closedEarlier) : s.Lists cutoff (D ++ R') := by
  refine ⟨(hp.append_left D).trans hl.1, ?_⟩
  obtain ⟨hD, -, hDR⟩ := List.pairwise_append.1 hl.2
  exact List.pairwise_append.2 ⟨hD, hs, fun p hp' q hq => hDR p hp' q (hp.mem_iff.1 hq)⟩

/-- The sessions that an earlier cutoff makes eligible come first. -/
theorem Lists.split (hl : s.Lists cutoff' order) (hle : cutoff ≤ cutoff') :
    ∃ M X, order = M ++ X ∧ s.Lists cutoff M := by
  obtain ⟨hn, hmem, hsorted⟩ := lists_iff.1 hl
  let early : SessionId × SessionRow → Bool := fun p => decide (p.2.closedAt.getD 0 < cutoff)
  have heq : order = order.takeWhile early ++ order.dropWhile early :=
    List.takeWhile_append_dropWhile.symm
  have hlate : ∀ p ∈ order.dropWhile early, early p = false := by
    intro p hp
    cases hd : order.dropWhile early with
    | nil => simp [hd] at hp
    | cons q l =>
      have hq : early q = false := by
        have := List.head?_dropWhile_not early order
        rw [hd] at this
        simpa using this
      rw [heq, hd, List.pairwise_append, List.pairwise_cons] at hsorted
      rw [hd, List.mem_cons] at hp
      rcases hp with rfl | hp
      · exact hq
      · have hle : q.2.closedAt.getD 0 ≤ p.2.closedAt.getD 0 := hsorted.2.1.1 p hp
        simp only [early, decide_eq_false_iff_not, not_lt] at hq ⊢
        omega
  refine ⟨_, _, heq, lists_iff.2 ⟨?_, fun p => ?_, ?_⟩⟩
  · exact hn.sublist ((List.takeWhile_sublist _).map _)
  · constructor
    · intro hp
      obtain ⟨hrow, hcol⟩ := (hmem p).1 ((List.takeWhile_sublist _).subset hp)
      obtain ⟨⟨c, hc, -⟩, hopen⟩ := collectable_iff.1 hcol
      have hearly : early p = true := List.mem_takeWhile_imp hp
      simp only [early, hc, Option.getD_some, decide_eq_true_eq] at hearly
      exact ⟨hrow, collectable_iff.2 ⟨⟨c, hc, hearly⟩, hopen⟩⟩
    · rintro ⟨hrow, hcol⟩
      obtain ⟨⟨c, hc, hlt⟩, hopen⟩ := collectable_iff.1 hcol
      have hp : p ∈ order := (hmem p).2
        ⟨hrow, collectable_iff.2 ⟨⟨c, hc, by omega⟩, hopen⟩⟩
      rw [heq, List.mem_append] at hp
      refine hp.resolve_right fun hp => ?_
      have hno := hlate p hp
      simp [early, hc, hlt] at hno
  · exact hsorted.sublist (List.takeWhile_sublist _)

end

end Store

/-! ### What a cycle does -/

section

variable {cfg : Config} {s : Store} {s₁ s₂ : GcState} {pre : List SessionId}

/-- **A cycle purges its sessions in turn up to the first one whose purge raises.** -/
theorem purgeEach_split {rows : List (SessionId × UserId)} {r : Except FkViolation Unit}
    (hw : s.Without pre s₁.store) (hn : (rows.map Prod.fst).Nodup)
    (hrows : ∀ p ∈ rows, ∃ row, s₁.store.db.getSession p.2 p.1 = some row)
    (h : Solo (collector cfg) (purgeEach rows) s₁ r s₂) :
    ∃ done rest, rows.map Prod.fst = done ++ rest ∧ s.Without (pre ++ done) s₂.store ∧
      (s.Clears pre → s.Clears (pre ++ done)) ∧
      ∀ x, rest.head? = some x → s.Blocked (pre ++ done) x := by
  induction rows generalizing pre s₁ with
  | nil =>
    obtain ⟨⟩ := h
    exact ⟨[], [], rfl, by simpa using hw, by simp, by simp⟩
  | cons p rows ih =>
    obtain ⟨x, u⟩ := p
    obtain ⟨row, hx⟩ := hrows (x, u) List.mem_cons_self
    obtain ⟨hxr, hn⟩ := List.nodup_cons.1 hn
    have hxpre : x ∉ pre := by
      intro hmem
      have hlook := (Db.getSession_eq_some.1 hx).1
      rw [hw.sessions, if_pos hmem] at hlook
      exact absurd hlook (by simp)
    obtain ⟨out, s', hout, h⟩ := Solo.bind_iff.1 h
    obtain ⟨e, he⟩ := Solo.perform_iff.1 hout
    change GcAct.exec cfg (.purgeSession u x) e s₁ = some (s', out) at he
    rcases GcAct.exec_purgeSession hw.consistent he with
      ⟨rfl, rfl, hy⟩ | ⟨-, -, -, hnone⟩ | ⟨hp, -, rfl, hy⟩
    · -- it raises
      obtain ⟨⟩ := h
      refine ⟨[], x :: rows.map Prod.fst, rfl, by simpa using hw, by simp, fun z hz => ?_⟩
      obtain rfl : x = z := Option.some.inj hz
      rw [List.append_nil]
      exact (hw.blocked hxpre).2 hy
    · rw [hx] at hnone
      exact absurd hnone (by simp)
    · -- it is purged, and the cycle goes on
      have hfree : ¬ s.Blocked pre x := by
        rw [hw.blocked hxpre]
        rintro ⟨y, hyx, hang⟩
        exact hy y hyx hang
      have hrows' : ∀ p ∈ rows, ∃ row, s'.store.db.getSession p.2 p.1 = some row := by
        intro p hp'
        have hne : p.1 ≠ x := by
          rintro rfl
          exact hxr (List.mem_map.2 ⟨p, hp', rfl⟩)
        rw [hp.getSession, if_neg hne]
        exact hrows p (List.mem_cons_of_mem _ hp')
      obtain ⟨done, rest, heq, hw', hclear, hblock⟩ := ih (hw.snoc hp hy) hn hrows' h
      rw [List.append_assoc] at hw' hclear hblock
      exact ⟨x :: done, rest, by rw [List.map_cons, heq]; rfl, hw',
        fun hc => hclear (hc.snoc hfree), hblock⟩

/-- What the purges of a batch do to a store from which the sessions `pre` have gone. -/
theorem purgeBatch_split {cutoff : ℕ} {order : List (SessionId × SessionRow)}
    {r : Except FkViolation Unit} (hw : s.Without pre s₁.store) (hl : s₁.store.Lists cutoff order)
    (h : Solo (collector cfg) (purgeEach ((order.take gcBatch).map fun p => (p.1, p.2.userId)))
      s₁ r s₂) :
    ∃ done rest, (order.take gcBatch).map Prod.fst = done ++ rest ∧
      s.Without (pre ++ done) s₂.store ∧ (s.Clears pre → s.Clears (pre ++ done)) ∧
      ∀ x, rest.head? = some x → s.Blocked (pre ++ done) x := by
  obtain ⟨hn, hmem, -⟩ := Store.lists_iff.1 hl
  have hkeys : ((order.take gcBatch).map fun p => (p.1, p.2.userId)).map Prod.fst =
      (order.take gcBatch).map Prod.fst := by
    rw [List.map_map]
    rfl
  have howned : ∀ q ∈ (order.take gcBatch).map fun p => (p.1, p.2.userId),
      ∃ row, s₁.store.db.getSession q.2 q.1 = some row := by
    intro q hq
    obtain ⟨p, hp, rfl⟩ := List.mem_map.1 hq
    exact ⟨p.2, Db.getSession_eq_some.2 ⟨((hmem p).1 (List.mem_of_mem_take hp)).1, rfl⟩⟩
  rw [← hkeys]
  exact purgeEach_split hw (by rw [hkeys]; exact hn.sublist ((List.take_sublist _ _).map _)) howned h

/-- A cycle is a selection and the purges of its batch. -/
theorem solo_gcClosedSessions {cutoff : ℕ} {r : Except FkViolation Unit} :
    Solo (collector cfg) (gcClosedSessions cutoff) s₁ r s₂ ↔
      ∃ order, s₁.store.Lists cutoff order ∧ Solo (collector cfg)
        (purgeEach ((order.take gcBatch).map fun p => (p.1, p.2.userId))) s₁ r s₂ := by
  rw [gcClosedSessions, Solo.bind_iff]
  simp only [Solo.perform_iff]
  change (∃ rows s', (∃ e, GcAct.exec cfg (.selectClosed cutoff) e s₁ = some (s', rows)) ∧ _) ↔ _
  simp only [GcAct.exec, Option.ite_none_right_eq_some, Option.some.injEq, Prod.mk.injEq]
  constructor
  · rintro ⟨_, _, ⟨e, hl, rfl, rfl⟩, h⟩
    exact ⟨e.order, hl, h⟩
  · rintro ⟨order, hl, h⟩
    exact ⟨_, _, ⟨{ order }, hl, rfl, rfl⟩, h⟩

theorem exists_solo_purgeEach (cfg : Config) (rows : List (SessionId × UserId)) (s₁ : GcState) :
    ∃ r s₂, Solo (collector cfg) (purgeEach rows) s₁ r s₂ := by
  have : Inhabited GcEnv := ⟨{}⟩
  refine Solo.total ?_ s₁
  induction rows with
  | nil => trivial
  | cons p rows ih =>
    refine ⟨fun e s => ?_, fun out => ?_⟩
    · change (GcAct.exec cfg (.purgeSession p.2 p.1) e s).isSome = true
      simp only [GcAct.exec]
      split <;> rfl
    · cases out with
      | error err => trivial
      | ok removed => exact ih

end

/-! ### Cycle after cycle -/

/-- Of the sessions eligible at the cutoff, in a listing of the store `s`, the first ones have been
purged, which leaves `s₁`. -/
structure Underway (s : Store) (cutoff : ℕ) (pre M : List (SessionId × SessionRow)) (s₁ : Store) :
    Prop where
  /-- What is purged and what is left. -/
  lists : s.Lists cutoff (pre ++ M)
  /-- The sessions that are purged are gone. -/
  without : s.Without (pre.map Prod.fst) s₁
  /-- They could be purged in this order. -/
  clears : s.Clears (pre.map Prod.fst)

section

variable {cfg : Config} {s : Store} {s₁ s₂ : GcState} {cutoff cutoff' : ℕ}
  {pre M order : List (SessionId × SessionRow)} {r : Except FkViolation Unit}

/-- A later selection begins with what is left, in some order. -/
theorem Underway.relist (h : Underway s cutoff pre M s₁.store) (hle : cutoff ≤ cutoff')
    (hl : s₁.store.Lists cutoff' order) :
    ∃ M' X, order = M' ++ X ∧ Underway s cutoff pre M' s₁.store ∧ M'.Perm M := by
  obtain ⟨M', X, heq, hM'⟩ := hl.split hle
  have hperm : M'.Perm M := hM'.1.trans (h.without.lists h.lists).1.symm
  exact ⟨M', X, heq, ⟨Store.lists_append h.lists hperm hM'.2, h.without, h.clears⟩, hperm⟩

/-- **One cycle gets to the end of what is left, or further, or to a session behind which nothing
can be purged.** -/
theorem Underway.cycle (h : Underway s cutoff pre M s₁.store) (hno : s.NoneStranded cutoff)
    (hle : cutoff ≤ cutoff') (hc : Solo (collector cfg) (gcClosedSessions cutoff') s₁ r s₂) :
    (∀ p ∈ pre ++ M, s₂.store.db.sessions.lookup p.1 = none) ∨
      (∃ pre' M', Underway s cutoff pre' M' s₂.store ∧ M'.length < M.length) ∨
      ∃ pre' M', M' ≠ [] ∧ Underway s cutoff pre' M' s₂.store ∧
        ∀ p ∈ M', s.Blocked (pre'.map Prod.fst) p.1 := by
  obtain ⟨order, hl, hc⟩ := solo_gcClosedSessions.1 hc
  obtain ⟨done, rest, heq, hw, hclear, hblock⟩ := purgeBatch_split h.without hl hc
  obtain ⟨M', X, rfl, hM', hperm⟩ := h.relist hle hl
  obtain ⟨D, T, htake, rfl, rfl⟩ := List.map_eq_append_iff.1 heq
  rw [← List.map_append] at hw hclear hblock
  have hsplit : D ++ (T ++ (M' ++ X).drop gcBatch) = M' ++ X := by
    rw [← List.append_assoc, ← htake, List.take_append_drop]
  -- what is gone after the cycle
  have hgone : ∀ p ∈ pre ++ D, s₂.store.db.sessions.lookup p.1 = none := by
    intro p hp
    rw [hw.sessions, if_pos (List.mem_map_of_mem hp)]
  rcases List.append_eq_append_iff.1 hsplit with ⟨R, rfl, hR⟩ | ⟨E, rfl, -⟩
  · cases R with
    | nil =>
      refine .inl fun p hp => hgone p ?_
      rw [List.mem_append] at hp ⊢
      exact hp.imp_right fun hp => by simpa using hperm.mem_iff.2 hp
    | cons p R =>
      have hunder : Underway s cutoff (pre ++ D) (p :: R) s₂.store :=
        ⟨by rw [List.append_assoc]; exact hM'.lists, hw, hclear h.clears⟩
      cases T with
      | nil =>
        -- the batch was purged as a whole
        refine .inr (.inl ⟨_, _, hunder, ?_⟩)
        have hlen := congrArg List.length htake
        have hM := hperm.length_eq
        simp only [List.append_nil, List.length_take, List.length_append, List.length_cons,
          gcBatch] at hlen hM ⊢
        omega
      | cons q T =>
        -- the purge of `p` raised
        obtain ⟨rfl, -⟩ := List.cons_eq_cons.1 hR
        refine .inr (.inr ⟨_, _, by simp, hunder, fun z hz => ?_⟩)
        have hq := hblock q.1 rfl
        rcases List.mem_cons.1 hz with rfl | hz
        · exact hq
        · refine hno _ hunder.lists ((pre ++ D).map Prod.fst) q.1 (R.map Prod.fst) ?_ hunder.clears
            hq z.1 (List.mem_map_of_mem hz)
          rw [List.map_append, List.map_cons]
  · refine .inl fun p hp => hgone p ?_
    rw [List.mem_append] at hp ⊢
    exact hp.imp_right fun hp => List.mem_append_left _ (hperm.mem_iff.2 hp)

/-- Where nothing that is left can be purged, a cycle changes nothing. -/
theorem Underway.stuck (h : Underway s cutoff pre M s₁.store) (hne : M ≠ [])
    (hb : ∀ p ∈ M, s.Blocked (pre.map Prod.fst) p.1) (hle : cutoff ≤ cutoff')
    (hc : Solo (collector cfg) (gcClosedSessions cutoff') s₁ r s₂) :
    Underway s cutoff pre M s₂.store := by
  obtain ⟨order, hl, hc⟩ := solo_gcClosedSessions.1 hc
  obtain ⟨done, rest, heq, hw, hclear, hblock⟩ := purgeBatch_split h.without hl hc
  obtain ⟨M', X, rfl, hM', hperm⟩ := h.relist hle hl
  cases M' with
  | nil => exact absurd hperm.symm.eq_nil hne
  | cons p M' =>
    cases done with
    | nil =>
      rw [List.append_nil] at hw
      exact ⟨h.lists, hw, h.clears⟩
    | cons x done =>
      -- the first session of the batch cannot be purged
      obtain ⟨rfl, -⟩ := List.cons_eq_cons.1
        (show p.1 :: _ = x :: (done ++ rest) from heq)
      exact absurd (hb p (hperm.mem_iff.1 List.mem_cons_self))
        ((hclear h.clears).not_blocked rfl)

/-- Where no session is stranded, the cycles purge all that was eligible or end where nothing that
is left can be purged. -/
theorem Underway.cycles {c : ℕ → ℕ} {σ : ℕ → GcState} (hno : s.NoneStranded cutoff)
    (hle : ∀ n, cutoff ≤ c n)
    (hσ : ∀ n, ∃ r, Solo (collector cfg) (gcClosedSessions (c n)) (σ n) r (σ (n + 1))) {n : ℕ}
    (h : Underway s cutoff pre M (σ n).store) :
    ∃ m, (∀ x, s.Eligible cutoff x → (σ m).store.db.sessions.lookup x = none) ∨
      ∃ pre' M', M' ≠ [] ∧ Underway s cutoff pre' M' (σ m).store ∧
        ∀ p ∈ M', s.Blocked (pre'.map Prod.fst) p.1 := by
  induction hM : M.length using Nat.strongRecOn generalizing pre M n with
  | ind N ih =>
    obtain ⟨r, hr⟩ := hσ n
    rcases h.cycle hno (hle n) hr with hgone | ⟨pre', M', hunder, hlt⟩ | hstuck
    · refine ⟨n + 1, .inl fun x ⟨row, hrow, hcol⟩ => ?_⟩
      exact hgone (x, row) (((Store.lists_iff.1 h.lists).2.1 (x, row)).2 ⟨hrow, hcol⟩)
    · exact ih _ (hM ▸ hlt) hunder rfl
    · exact ⟨n + 1, .inr hstuck⟩

/-- What blocks a session makes its purge raise. -/
theorem Underway.raises (h : Underway s cutoff pre M s₁.store) {p : SessionId × SessionRow}
    (hp : p ∈ M) (hb : s.Blocked (pre.map Prod.fst) p.1) : s₁.store.Raises p.1 := by
  have hrow := (((Store.lists_iff.1 (h.without.lists h.lists)).2.1 p).1 hp).1
  have hnot : p.1 ∉ pre.map Prod.fst := by
    intro hmem
    rw [h.without.sessions, if_pos hmem] at hrow
    exact absurd hrow (by simp)
  have hx : s₁.store.db.getSession p.2.userId p.1 = some p.2 := Db.getSession_eq_some.2 ⟨hrow, rfl⟩
  exact ⟨_, _, _, hx, h.without.consistent.purgeSession_error hx ((h.without.blocked hnot).1 hb)⟩

/-- A property that one step can always keep holds along some sequence of steps. -/
theorem exists_seq {α : Type*} {I : ℕ → α → Prop} {R : α → α → Prop} {a : α} (h₀ : I 0 a)
    (hstep : ∀ n x, I n x → ∃ y, R x y ∧ I (n + 1) y) :
    ∃ σ : ℕ → α, σ 0 = a ∧ ∀ n, I n (σ n) ∧ R (σ n) (σ (n + 1)) := by
  choose f hR hI using hstep
  let τ : (n : ℕ) → { x // I n x } := fun n =>
    n.rec ⟨a, h₀⟩ fun n x => ⟨f n x.1 x.2, hI n x.1 x.2⟩
  exact ⟨fun n => (τ n).1, rfl, fun n => ⟨(τ n).2, hR n _ (τ n).2⟩⟩

theorem Store.Clears.of_append {l l' : List SessionId} (h : s.Clears (l ++ l')) : s.Clears l := by
  induction l' using List.reverseRecOn with
  | nil => simpa using h
  | append_singleton l' x ih =>
    refine ih ?_
    rw [← List.append_assoc] at h
    generalize hm : l ++ l' ++ [x] = m at h
    cases h with
    | nil => simp at hm
    | snoc h _ =>
      obtain ⟨rfl, -⟩ := List.append_inj' hm rfl
      exact h

/-- Where no session is stranded, the cycles achieve what they should. -/
theorem progress_of_noneStranded {s : GcState} (hcons : s.store.Consistent)
    (hno : s.store.NoneStranded cutoff) : Progress cfg cutoff s := by
  rintro c σ rfl hcy x ⟨row, hrow, hcol⟩
  have hle : ∀ n, c 0 ≤ c n := fun n => hcy.mono (Nat.zero_le n)
  obtain ⟨order, hl⟩ := s.store.exists_lists (c 0)
  have h₀ : Underway s.store (c 0) [] order (σ 0).store :=
    ⟨hl, by rw [hcy.start]; exact .nil hcons, .nil⟩
  obtain ⟨n, hgone | ⟨pre, M, hne, hunder, hb⟩⟩ := h₀.cycles hno hle hcy.cycle
  · exact .inl ⟨n, hgone x ⟨row, hrow, hcol⟩⟩
  · have hstay : ∀ m ≥ n, Underway s.store (c 0) pre M (σ m).store := by
      intro m hm
      induction m, hm using Nat.le_induction with
      | base => exact hunder
      | succ m _ ih =>
        obtain ⟨r, hr⟩ := hcy.cycle m
        exact ih.stuck hne hb (hle m) hr
    have hmem : (x, row) ∈ pre ++ M :=
      ((Store.lists_iff.1 hunder.lists).2.1 (x, row)).2 ⟨hrow, hcol⟩
    rcases List.mem_append.1 hmem with hp | hp
    · refine .inl ⟨n, ?_⟩
      rw [hunder.without.sessions, if_pos (List.mem_map.2 ⟨_, hp, rfl⟩)]
    · exact .inr ⟨n, fun m hm => (hstay m hm).raises hp (hb _ hp)⟩

/-- One cycle on the way to the first session whose purge raises. -/
theorem exists_cycle {s : Store} {P Q : List (SessionId × SessionRow)} {p : SessionId × SessionRow}
    (hl : s.Lists cutoff (P ++ p :: Q)) (hclear : s.Clears (P.map Prod.fst))
    (hblock : s.Blocked (P.map Prod.fst) p.1) (k : ℕ)
    (hw : s.Without ((P.take k).map Prod.fst) s₁.store) :
    ∃ s₂, (∃ r, Solo (collector cfg) (gcClosedSessions cutoff) s₁ r s₂) ∧
      s.Without ((P.take (k + gcBatch)).map Prod.fst) s₂.store := by
  have hsplit : P.take k ++ (P.drop k ++ p :: Q) = P ++ p :: Q := by
    rw [← List.append_assoc, List.take_append_drop]
  have hl₁ : s₁.store.Lists cutoff (P.drop k ++ p :: Q) := hw.lists (hsplit ▸ hl)
  obtain ⟨r, s₂, hsolo⟩ := exists_solo_purgeEach cfg
    (((P.drop k ++ p :: Q).take gcBatch).map fun q => (q.1, q.2.userId)) s₁
  refine ⟨s₂, ⟨r, solo_gcClosedSessions.2 ⟨_, hl₁, hsolo⟩⟩, ?_⟩
  obtain ⟨done, rest, heq, hw₂, hclear₂, hblock₂⟩ := purgeBatch_split hw hl₁ hsolo
  -- the batch is cleared up to its end or to `p`, whichever comes first
  have htake : (P.take k).map Prod.fst ++ ((P.drop k).take gcBatch).map Prod.fst =
      (P.take (k + gcBatch)).map Prod.fst := by
    rw [← List.map_append, List.take_add]
  have hpre : ∀ n, s.Clears ((P.take n).map Prod.fst) := by
    intro n
    have hall : s.Clears ((P.take n).map Prod.fst ++ (P.drop n).map Prod.fst) := by
      rwa [← List.map_append, List.take_append_drop]
    exact hall.of_append
  rw [List.take_append, List.map_append] at heq
  have hdone : done = ((P.drop k).take gcBatch).map Prod.fst := by
    refine Store.Clears.unique (hclear₂ (hpre k)) (by rw [htake]; exact hpre _) heq.symm hblock₂ ?_
    intro x hx
    have hlt : 0 < gcBatch - (P.drop k).length := by
      by_contra h
      rw [Nat.eq_zero_of_not_pos h] at hx
      exact absurd hx (by simp)
    rw [List.head?_map, List.head?_take, if_neg (by omega), List.head?_cons, Option.map_some,
      Option.some.injEq] at hx
    rw [htake, List.take_of_length_le (by rw [List.length_drop] at hlt; omega), ← hx]
    exact hblock
  rw [← htake, ← hdone]
  exact hw₂

/-- Where a session is stranded, the cycles may leave it for ever. -/
theorem noneStranded_of_progress {s : GcState} (hcons : s.store.Consistent)
    (hprog : Progress cfg cutoff s) : s.store.NoneStranded cutoff := by
  intro order hl pre x post heq hclear hblock z hz
  by_contra hfree
  obtain ⟨P, Q', rfl, rfl, hQ'⟩ := List.map_eq_append_iff.1 heq
  obtain ⟨p, Q, rfl, rfl, rfl⟩ := List.map_eq_cons_iff.1 hQ'
  obtain ⟨q, hq, rfl⟩ := List.mem_map.1 hz
  obtain ⟨σ, hσ₀, hσ⟩ := exists_seq
    (I := fun n (s₁ : GcState) => s.store.Without ((P.take (gcBatch * n)).map Prod.fst) s₁.store)
    (R := fun s₁ s₂ => ∃ r, Solo (collector cfg) (gcClosedSessions cutoff) s₁ r s₂) (a := s)
    (by simpa using .nil hcons) fun n s₁ hw => exists_cycle hl hclear hblock _ hw
  obtain ⟨hn, hmem, -⟩ := Store.lists_iff.1 hl
  obtain ⟨hrow, hcol⟩ := (hmem q).1 (by simp [hq])
  have hqP : q.1 ∉ P.map Prod.fst := by
    rw [List.map_append, List.nodup_append] at hn
    exact fun hin => hn.2.2 _ hin _ (List.mem_map_of_mem (List.mem_cons_of_mem _ hq)) rfl
  have hlook : ∀ n, (σ n).store.db.sessions.lookup q.1 = some q.2 := by
    intro n
    rw [(hσ n).1.sessions, if_neg fun hin => hqP ?_]
    · exact hrow
    · exact ((List.take_sublist _ _).map _).subset hin
  rcases hprog (fun _ => cutoff) σ rfl ⟨hσ₀, monotone_const, fun n => (hσ n).2⟩ q.1
      ⟨q.2, hrow, hcol⟩ with ⟨n, hgone⟩ | ⟨n, hraise⟩
  · rw [hlook n] at hgone
    exact absurd hgone (by simp)
  · -- once `P` is gone the session could be purged
    let m := max n P.length
    have hw := (hσ m).1
    rw [List.take_of_length_le (by simp only [gcBatch]; omega)] at hw
    obtain ⟨u, row, err, hx, herr⟩ := hraise m (le_max_left _ _)
    have hno : ∀ y ≠ q.1, ¬ (σ m).store.Hangs y q.1 := by
      intro y hy hang
      exact hfree ((hw.blocked hqP).2 ⟨y, hy, hang⟩)
    obtain ⟨s', hs', -⟩ := hw.consistent.purgeSession_ok hx hno
    rw [hs'] at herr
    exact absurd herr (by simp)

/-- **The cycles purge every session they can just when none is stranded behind the first session
whose purge raises.** -/
theorem progress_iff {s : GcState} (hcons : s.store.Consistent) :
    Progress cfg cutoff s ↔ s.store.NoneStranded cutoff :=
  ⟨noneStranded_of_progress hcons, progress_of_noneStranded hcons⟩

theorem inv_of_run {g : Guard GcAct GcEnv GcState GcCall (Except FkViolation Unit)} {d : Deployment}
    {P : GcPool}
    (h : Run (collector cfg) g (.init (.boot d)) P) : P.shared.Inv :=
  h.invariant (GcState.inv_boot d) fun hs he => hs.exec he

/-- **The collector purges closed, settled sessions only**, as long as none is reopened between its
selection and its purge; **and it gets on** just when no session is stranded behind the first one
whose purge raises. -/
theorem collector_safe_progress (cfg : Config) (d : Deployment) :
    (∀ (P : GcPool) (i cutoff : ℕ) (u : UserId) (x : SessionId)
      (k : Except FkViolation Bool → GcProg (Except FkViolation Unit)),
      Run (collector cfg) undisturbed (.init (.boot d)) P →
      P.threads[i]? = some ⟨.collect cutoff, .act (.purgeSession u x) k⟩ →
      (∀ row, P.shared.store.db.sessions.lookup x = some row → row.closedAt.isSome = true) ∧
        ∀ t r, P.shared.store.db.tasks.lookup t = some r → r.sessionId = x →
          r.state.isTerminal = true) ∧
    ∀ (P : GcPool) (cutoff : ℕ),
      Run (collector cfg) .free (.init (.boot d)) P →
      (Progress cfg cutoff P.shared ↔ P.shared.store.NoneStranded cutoff) := by
  refine ⟨fun P i cutoff u x k h hth => ?_, fun P cutoff h => progress_iff (inv_of_run h).consistent⟩
  have hset := settled_of_run h hth
  refine ⟨fun row hrow => ?_, hset.tasks⟩
  rcases hset.closed with ⟨row', hrow', hclosed⟩ | ⟨hnone, -⟩
  · obtain rfl := Option.some.inj (hrow.symm.trans hrow')
    exact hclosed
  · rw [hnone] at hrow
    exact absurd hrow (by simp)

end

/-! ### A session that is reopened, and one that blocks the rest -/

namespace Sample

/-- The same decision in the machine with the collector. -/
def withCollector : Move Env Call → Move GcEnv GcCall
  | .start c => .start (.router c)
  | .step i e => .step i { base := e }

/-- `u` closes session `s` (coroutine `0`), and a cycle selects it (coroutine `1`). -/
def selected : List (Move GcEnv GcCall) :=
  [.start (.closeSession "u" "s"), step 0, step 0].map withCollector ++
    [.start (.collect 5), .step 1 { order := [("s", ⟨"s", "u", 0, some 1⟩)] }]

/-- Session `s`, below which a task of `s2` hangs, is closed before a session `s3`. -/
def stranding : List (Move GcEnv GcCall) :=
  (acrossSessions ++ [.start (.openSession "u"), step 8 "s3", .start (.closeSession "u" "s3"),
    step 9, .step 9 { now := 2 }]).map withCollector

/-- Carry out the decisions, checking each action. -/
def collecting (check : ∀ {β : Type}, GcPool → ℕ →
    GcCall → GcAct β → GcEnv → Bool) (ms : List (Move GcEnv GcCall)) :
    Option GcPool :=
  (collector settings).run check (.init (.boot deployment)) ms

/-- The session the program is about to purge, with its user. -/
def purging : GcProg (Except FkViolation Unit) → Option (UserId × SessionId)
  | .act (.purgeSession u x) _ => some (u, x)
  | _ => none

theorem purging_eq_some {p : GcProg (Except FkViolation Unit)} {u : UserId} {x : SessionId}
    (h : purging p = some (u, x)) : ∃ k, p = .act (.purgeSession u x) k := by
  unfold purging at h
  split at h
  · obtain ⟨rfl, rfl⟩ := Prod.mk.inj (Option.some.inj h)
    exact ⟨_, rfl⟩
  · exact absurd h (by simp)

end Sample

/-- The cycle that selected `s` is about to purge it, and nothing else is eligible. -/
theorem collector_safe_progress_selected : ∃ P,
    Sample.collecting (fun P _ _ a _ => leavesPending P.threads.length P.log a) Sample.selected =
      some P ∧
    (∀ row, P.shared.store.db.sessions.lookup "s" = some row → row.closedAt.isSome = true) ∧
    Progress {} 5 P.shared := by
  have hplay : ((Sample.collecting (fun P _ _ a _ => leavesPending P.threads.length P.log a)
      Sample.selected).bind fun P => P.threads[1]?.map fun th => (th.call, Sample.purging th.prog,
        P.shared.store.db.sessions.select (P.shared.store.collectable 5))) =
      some (.collect 5, some ("u", "s"), [("s", ⟨"s", "u", 0, some 1⟩)]) := by
    decide +kernel
  obtain ⟨P, hP, h⟩ := Option.bind_eq_some_iff.1 hplay
  obtain ⟨⟨c, p⟩, hth, h⟩ := Option.map_eq_some_iff.1 h
  obtain ⟨rfl, h⟩ := Prod.mk.inj h
  obtain ⟨hp, hsel⟩ := Prod.mk.inj h
  obtain ⟨k, rfl⟩ := Sample.purging_eq_some hp
  have hrun : Run (collector {}) undisturbed (.init (.boot Sample.deployment)) P :=
    Run.of_run (fun _ _ => trivial) (fun _ _ _ _ _ hc => hc) hP
  refine ⟨P, hP, ((collector_safe_progress {} Sample.deployment).1 P 1 5 "u" "s" k hrun hth).1,
    ((collector_safe_progress {} Sample.deployment).2 P 5 hrun.free).2 ?_⟩
  intro order hl pre x post heq _ _ z hz
  rw [Store.Lists, hsel, List.perm_singleton] at hl
  rw [hl.1, List.map_singleton, eq_comm] at heq
  have hlen := congrArg List.length heq
  simp only [List.length_append, List.length_cons, List.length_nil] at hlen
  rw [List.eq_nil_of_length_eq_zero (by omega : post.length = 0)] at hz
  exact absurd hz List.not_mem_nil

/-- `s` is reopened after its selection (coroutine `2`), and the cycle is about to purge it; and
`s3` is never purged, since the purge of `s` raises in every cycle. -/
theorem collector_unsafe_stuck :
    (¬ ∀ (cfg : Config) (d : Deployment) (P : GcPool) (i cutoff : ℕ) (u : UserId) (x : SessionId)
      (k : Except FkViolation Bool → GcProg (Except FkViolation Unit)),
      Run (collector cfg) .free (.init (.boot d)) P →
      P.threads[i]? = some ⟨.collect cutoff, .act (.purgeSession u x) k⟩ →
      ∀ row, P.shared.store.db.sessions.lookup x = some row → row.closedAt.isSome = true) ∧
    ¬ ∀ (cfg : Config) (d : Deployment) (P : GcPool) (cutoff : ℕ),
      Run (collector cfg) .free (.init (.boot d)) P → Progress cfg cutoff P.shared := by
  constructor
  · intro hall
    have hplay : ((Sample.collecting (fun _ _ _ _ _ => true) (Sample.selected ++
        [.start (.router (.reopenSession "u" "s")), .step 2 {}])).bind fun P =>
          P.threads[1]?.map fun th => (th.call, Sample.purging th.prog,
            P.shared.store.db.sessions.lookup "s")) =
        some (.collect 5, some ("u", "s"), some ⟨"s", "u", 0, none⟩) := by
      decide +kernel
    obtain ⟨P, hP, h⟩ := Option.bind_eq_some_iff.1 hplay
    obtain ⟨⟨c, p⟩, hth, h⟩ := Option.map_eq_some_iff.1 h
    obtain ⟨rfl, h⟩ := Prod.mk.inj h
    obtain ⟨hp, hrow⟩ := Prod.mk.inj h
    obtain ⟨k, rfl⟩ := Sample.purging_eq_some hp
    have hrun : Run (collector {}) .free (.init (.boot Sample.deployment)) P :=
      Run.of_run (fun _ _ => trivial) (fun _ _ _ _ _ _ => trivial) hP
    exact absurd (hall {} Sample.deployment P 1 5 "u" "s" k hrun hth _ hrow) (by simp)
  · intro hall
    have hplay : ((Sample.collecting (fun _ _ _ _ _ => true) Sample.stranding).map fun P =>
        (Sample.purgeOutcome P.shared.store "s", Sample.purgeOutcome P.shared.store "s3",
          (P.shared.store.db.getSession "u" "s3").isSome, (P.shared.store.db.getSession "u" "s").isSome,
          decide (P.shared.store.Lists 5 [("s", ⟨"s", "u", 0, some 1⟩),
            ("s3", ⟨"s3", "u", 1, some 2⟩)]))) =
        some (none, some true, true, true, true) := by
      decide +kernel
    obtain ⟨P, hP, h⟩ := Option.map_eq_some_iff.1 hplay
    obtain ⟨hs, h⟩ := Prod.mk.inj h
    obtain ⟨hs3, h⟩ := Prod.mk.inj h
    obtain ⟨hx3, h⟩ := Prod.mk.inj h
    obtain ⟨hx, hl⟩ := Prod.mk.inj h
    obtain ⟨row, hx⟩ := Option.isSome_iff_exists.1 hx
    obtain ⟨row3, hx3⟩ := Option.isSome_iff_exists.1 hx3
    have hrun : Run (collector {}) .free (.init (.boot Sample.deployment)) P :=
      Run.of_run (fun _ _ => trivial) (fun _ _ _ _ _ _ => trivial) hP
    have hcons := (inv_of_run hrun).consistent
    have hblocked : P.shared.store.Blocked [] "s" := by
      rw [(Store.Without.nil hcons).blocked List.not_mem_nil]
      by_contra hno
      simp only [not_exists, not_and] at hno
      obtain ⟨s', hs', -⟩ := hcons.purgeSession_ok hx hno
      rw [Sample.purgeOutcome, hs'] at hs
      exact absurd hs (by simp)
    have hfree : ¬ P.shared.store.Blocked [] "s3" := by
      rw [(Store.Without.nil hcons).blocked List.not_mem_nil]
      intro hy
      rw [Sample.purgeOutcome, hcons.purgeSession_error hx3 hy] at hs3
      exact absurd hs3 (by simp)
    have hno := (progress_iff hcons).1 (hall {} Sample.deployment P 5 hrun)
    exact hfree (hno _ (of_decide_eq_true hl) [] "s" ["s3"] rfl .nil hblocked "s3" (by simp))

end Backplane
