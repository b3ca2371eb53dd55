import Backplane.Router.Reachable
import Mathlib.Data.List.Chain

/-!
# Terminal states are absorbing

Several writers move a task: the transitions under the row lock, the Result of an executor, the
guarded bulk update of a compensation, and the flip of the executor.

* `movesTo t x` : the state the event `x` puts the task `t` in, if it moves the task at all.
* `history t log` : the states the task has been in, in order.
* `IsPath` : such a list starts with `QUEUED` and follows the table of allowed transitions.
* `Effect.moves` : every effect on the state of a task is one of these moves.
* `terminal_absorbed` : every history is a path, and a row that has ended never changes.
-/

namespace Backplane

open Concur

/-- The state an event puts the task in.  A repeated request moves nothing. -/
def movesTo (t : TaskId) : Event Act → Option TaskState
  | ⟨.createTask _ _ _, .created r⟩ => if r.taskId = t then some r.state else none
  | ⟨.transition t' new _, .done prev _⟩ => if t' = t ∧ prev ≠ new then some new else none
  | ⟨.complete f _, .done prev _⟩ =>
    if f.taskId = t ∧ prev ≠ stateFromStatus f.status then some (stateFromStatus f.status)
    else none
  | ⟨.forceFailTask _ t' _ _, true⟩ => if t' = t then some .failed else none
  | _ => none

/-- The states the task has been in. -/
def history (t : TaskId) (log : Log Act) : List TaskState :=
  log.filterMap fun x => movesTo t x.2

/-- A path in the table of allowed transitions, from `QUEUED`. -/
structure IsPath (l : List TaskState) : Prop where
  start : ∀ s ∈ l.head?, s = .queued
  /-- Each state is reachable from the one before in one transition. -/
  steps : l.IsChain fun s s' => allowed s s' = true

/-- The state of a task, if there is one. -/
def Db.stateOf (db : Db) (t : TaskId) : Option TaskState :=
  (db.tasks.lookup t).map TaskRow.state

theorem IsPath.nil : IsPath [] := ⟨by simp, .nil⟩

theorem IsPath.snoc {l : List TaskState} {new : TaskState} (h : IsPath l)
    (hstart : l = [] → new = .queued) (hstep : ∀ s ∈ l.getLast?, allowed s new = true) :
    IsPath (l ++ [new]) where
  start := by
    intro s hs
    cases l with
    | nil =>
      obtain rfl : new = s := by simpa using hs
      exact hstart rfl
    | cons x l => exact h.start s hs
  steps := List.isChain_append.2 ⟨h.steps, .singleton new, fun s hs s' hs' => by
    obtain rfl : new = s' := by simpa using hs'
    exact hstep s hs⟩

section

variable {named : List TaskId} {db db' : Db} {x : Event Act} {t : TaskId} {r : TaskRow}

theorem Db.stateOf_update {t₀ : TaskId} {f : TaskRow → TaskRow} {r : TaskRow}
    (hr : db.tasks.lookup t₀ = some r) :
    (db.updateTask t₀ f).stateOf t = if t = t₀ then some (f r).state else db.stateOf t := by
  unfold stateOf updateTask
  rw [Table.lookup_update]
  split_ifs
  · rw [hr]; rfl
  · rfl

/-- A move from the state of a row to another one. -/
theorem Db.stateOf_moved {t₀ : TaskId} {f : TaskRow → TaskRow} {new : TaskState}
    (hr : db.tasks.lookup t₀ = some r) (hf : (f r).state = new)
    (ha : allowed r.state new = true) (ht : t₀ = t) :
    (db.updateTask t₀ f).stateOf t = some new ∧
      (db.stateOf t = none → new = .queued) ∧ ∀ s ∈ db.stateOf t, allowed s new = true := by
  subst ht
  have hold : db.stateOf t₀ = some r.state := by simp [stateOf, hr]
  refine ⟨by rw [stateOf_update hr, if_pos rfl, hf], fun hn => ?_, fun s hs => ?_⟩
  · rw [hold] at hn
    exact absurd hn (by simp)
  · obtain rfl : r.state = s := by simpa [hold] using hs
    exact ha

/-- **Every effect on the state of a task is a move**: from nothing to `QUEUED`, or along the table
of allowed transitions. -/
theorem Effect.moves (h : Effect named db x db') (t : TaskId) :
    (movesTo t x = none → db'.stateOf t = db.stateOf t) ∧
    ∀ new, movesTo t x = some new → db'.stateOf t = some new ∧
      (db.stateOf t = none → new = .queued) ∧ ∀ s ∈ db.stateOf t, allowed s new = true := by
  cases h with
  | silent hx =>
    have hnone : movesTo t x = none := by
      obtain ⟨a, b⟩ := x
      cases a with
      | createTask => cases b <;> first | rfl | exact hx.elim
      | transition => cases b <;> first | rfl | exact hx.elim
      | complete => cases b <;> first | rfl | exact hx.elim
      | forceFailTask => cases b <;> first | rfl | exact hx.elim
      | _ => rfl
    exact ⟨fun _ => rfl, fun new hn => absurd (hnone.symm.trans hn) (by simp)⟩
  | @create f caller d now root newId y hnew =>
    have hrow : ∀ t, AList.lookup t (db.tasks.insert newId (f.row caller d now root newId)) =
        if t = newId then some (f.row caller d now root newId) else db.tasks.lookup t :=
      fun t => Table.lookup_insert _ _ _ _
    have hm : movesTo t ⟨.createTask f caller d, .created (f.row caller d now root newId)⟩ =
        if newId = t then some .queued else none := rfl
    rw [hm]
    split_ifs with ht
    · subst ht
      refine ⟨fun hn => absurd hn (by simp), ?_⟩
      rintro new ⟨⟩
      refine ⟨?_, fun _ => rfl, fun s hs => ?_⟩
      · simp only [Db.stateOf, Db.insertEvent, hrow, if_pos]
        rfl
      · simp [Db.stateOf, hnew] at hs
    · refine ⟨fun _ => ?_, fun new hn => absurd hn (by simp)⟩
      simp only [Db.stateOf, Db.insertEvent, hrow, if_neg (Ne.symm ht)]
  | @move t₀ new c r hr ha =>
    have hne : r.state ≠ new := allowed_ne ha
    simp only [movesTo, ne_eq, hne, not_false_eq_true, and_true]
    split_ifs with ht
    · exact ⟨fun hn => absurd hn (by simp), fun _ hn => Option.some.inj hn ▸
        Db.stateOf_moved hr rfl ha ht⟩
    · exact ⟨fun _ => (Db.stateOf_update hr).trans (if_neg (Ne.symm ht)), by simp⟩
  | @result f r hr ha =>
    have hne : r.state ≠ stateFromStatus f.status := allowed_ne ha
    simp only [movesTo, ne_eq, hne, not_false_eq_true, and_true]
    split_ifs with ht
    · exact ⟨fun hn => absurd hn (by simp), fun _ hn => Option.some.inj hn ▸
        Db.stateOf_moved hr rfl ha ht⟩
    · exact ⟨fun _ => (Db.stateOf_update hr).trans (if_neg (Ne.symm ht)), by simp⟩
  | @forceFail u t₀ code err r hr hu ho =>
    have ha : allowed r.state .failed = true :=
      allowed_terminal ho (fun _ => TaskState.noConfusion) rfl
    simp only [movesTo]
    split_ifs with ht
    · exact ⟨fun hn => absurd hn (by simp), fun _ hn => Option.some.inj hn ▸
        Db.stateOf_moved hr rfl ha ht⟩
    · exact ⟨fun _ => (Db.stateOf_update hr).trans (if_neg (Ne.symm ht)), by simp⟩
  | @noop t₀ c r hr =>
    simp only [movesTo, ne_eq, not_true_eq_false, and_false, if_false]
    exact ⟨fun _ => rfl, by simp⟩
  | @repeated f r hr hs =>
    simp only [movesTo, hs, ne_eq, not_true_eq_false, and_false, if_false]
    exact ⟨fun _ => rfl, by simp⟩
  | @handOver f t₀ r hr =>
    -- the flip of the executor writes the row, but not its state
    refine ⟨fun _ => ?_, by simp [movesTo]⟩
    refine (Db.stateOf_update hr).trans ?_
    split_ifs with ht
    · subst ht
      simp [Db.stateOf, hr]
    · rfl
  | close => exact ⟨fun _ => rfl, by simp [movesTo]⟩
  | reopen => exact ⟨fun _ => rfl, by simp [movesTo]⟩
  | openSession => exact ⟨fun _ => rfl, by simp [movesTo]⟩
  | bind => exact ⟨fun _ => rfl, by simp [movesTo]⟩

end

section

variable {cfg : Config} {d : Deployment} {P Q : Pool Act Router Call Ret}

/-- What has moved a task is what its state says. -/
theorem history_of_run (h : Run (router cfg) .free (.init d.boot) P) (t : TaskId) :
    IsPath (history t P.log) ∧ P.shared.db.stateOf t = (history t P.log).getLast? := by
  refine h.guarded (I := fun s log => IsPath (history t log) ∧
    s.db.stateOf t = (history t log).getLast?) ⟨.nil, rfl⟩ ?_
  rintro Q i c β a e s b ⟨hpath, hlast⟩ - he
  obtain ⟨hkeep, hmove⟩ := (Act.exec_effect he).1.moves t
  simp only [history, List.filterMap_append, List.filterMap_cons, List.filterMap_nil] at *
  cases hx : movesTo t ⟨a, b⟩ with
  | none =>
    rw [List.append_nil, hkeep hx]
    exact ⟨hpath, hlast⟩
  | some new =>
    obtain ⟨hnew, hfirst, hstep⟩ := hmove new hx
    rw [hlast] at hfirst hstep
    refine ⟨hpath.snoc (fun hn => hfirst (by rw [hn]; rfl)) hstep, ?_⟩
    rw [hnew, List.getLast?_concat]

/-- **The states of a task form a path in the table of allowed transitions, and a row that has ended
never changes again**, however the operations of the router are interleaved. -/
theorem terminal_absorbed (h : Run (router cfg) .free (.init d.boot) P)
    (h' : Run (router cfg) .free P Q) (t : TaskId) :
    IsPath (history t Q.log) ∧ Q.shared.db.stateOf t = (history t Q.log).getLast? ∧
      ∀ r, P.shared.db.tasks.lookup t = some r → r.state.isTerminal = true →
        Q.shared.db.tasks.lookup t = some r := by
  obtain ⟨hpath, hlast⟩ := history_of_run (h.trans h') t
  refine ⟨hpath, hlast, fun r hr hterm => ?_⟩
  obtain ⟨r', hr', hl⟩ := later_of_run h' hr
  exact hl.ended hterm ▸ hr'

end

/-- `b` completes `t`; then the user cancels it. -/
theorem terminal_absorbed_completed : ∃ (P Q : Pool Act Router Call Ret) (r : TaskRow),
    P.shared.db.tasks.lookup "t" = some r ∧ r.state = .succeeded ∧
    history "t" Q.log = [.queued, .running, .succeeded] ∧ IsPath (history "t" Q.log) ∧
    Q.shared.db.tasks.lookup "t" = some r := by
  have hplay : ((Sample.play Sample.anything (Sample.dispatched ++
      [Sample.receive 1 "b" (.result (Sample.result "b" "t" .succeeded))] ++
        Sample.steps 5 4)).bind fun P =>
      ((router {}).run Sample.anything P (.start (.cancelTask "u" "t") :: Sample.steps 6 3)).map
        fun Q => (P.shared.db.stateOf "t", history "t" Q.log)) =
      some (some .succeeded, [.queued, .running, .succeeded]) := by
    decide +kernel
  obtain ⟨P, hP, h⟩ := Option.bind_eq_some_iff.1 hplay
  obtain ⟨Q, hQ, h⟩ := Option.map_eq_some_iff.1 h
  obtain ⟨hstate, hhist⟩ := Prod.mk.inj h
  obtain ⟨r, hr, hs⟩ := Option.map_eq_some_iff.1 hstate
  obtain ⟨hpath, -, hsame⟩ := terminal_absorbed (Sample.free_of_play hP)
    (Run.of_run (fun _ _ => trivial) (fun _ _ _ _ _ _ => trivial) hQ) "t"
  exact ⟨P, Q, r, hr, hs, hhist, hpath, hsame r hr (by rw [hs]; rfl)⟩

end Backplane
