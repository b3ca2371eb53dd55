import Mathlib.Data.List.Basic

/-!
# Event systems

An `EventSystem` has a state that events change, one at a time; some events cannot happen in some
states.

* `EventSystem.Reaches` : the states of the runs whose events are all allowed where they happen.
* `EventSystem.Invariant` : what holds at first and is kept; `Invariant.of_reaches` : it holds in
  every such state.
* `EventSystem.run`, `Reaches.of_run` : runs that can be computed.
-/

namespace Backplane

/-- A state, and events that change it. -/
structure EventSystem (σ ε : Type) where
  /-- The first state. -/
  init : σ
  /-- The state after an event; `none`: it cannot happen. -/
  step : σ → ε → Option σ

namespace EventSystem

variable {σ ε : Type} (S : EventSystem σ ε) (ok : σ → ε → Prop)

/-- The state is reached by events that are allowed where they happen. -/
inductive Reaches : σ → Prop
  | init : Reaches S.init
  | step {s s' : σ} {e : ε} (h : Reaches s) (hok : ok s e) (hstep : S.step s e = some s') :
      Reaches s'

/-- What holds at first, and is kept by the events that are allowed. -/
structure Invariant (P : σ → Prop) : Prop where
  /-- It holds at first. -/
  init : P S.init
  step : ∀ {s e s'}, P s → ok s e → S.step s e = some s' → P s'

/-- The state after a list of events, if each can happen and passes the check. -/
def run (check : σ → ε → Bool) (s : σ) : List ε → Option σ
  | [] => some s
  | e :: es => if check s e then (S.step s e).bind fun s' => run check s' es else none

variable {S ok} {P : σ → Prop} {check : σ → ε → Bool} {s s' : σ} {es : List ε}

/-- **An invariant holds in every state that is reached.** -/
theorem Invariant.of_reaches (h : S.Invariant ok P) (hs : S.Reaches ok s) : P s := by
  induction hs with
  | init => exact h.init
  | step _ hok hstep ih => exact h.step ih hok hstep

theorem Reaches.of_run_from (hcheck : ∀ s e, check s e = true → ok s e) (hs : S.Reaches ok s)
    (h : S.run check s es = some s') : S.Reaches ok s' := by
  induction es generalizing s with
  | nil => exact Option.some.inj h ▸ hs
  | cons e es ih =>
    rw [run] at h
    split_ifs at h with he
    obtain ⟨s₁, hstep, hrun⟩ := Option.bind_eq_some_iff.1 h
    exact ih (hs.step (hcheck s e he) hstep) hrun

/-- A run that is computed reaches its state. -/
theorem Reaches.of_run (hcheck : ∀ s e, check s e = true → ok s e)
    (h : S.run check S.init es = some s') : S.Reaches ok s' :=
  of_run_from hcheck .init h

end EventSystem

end Backplane
