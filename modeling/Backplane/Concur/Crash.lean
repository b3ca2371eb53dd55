import Backplane.Concur.Fallible

/-!
# What a program leaves behind when it is cut short

A program that runs on its own may be struck before any of its actions.  `Wp` asks for a postcondition
where the program has returned and for an invariant at every point where it may be struck; its rules
follow the program text.

* `Machine.restrict` : the machine in which the environment keeps to a condition.
* `Prog.Wp`, `Fallible.Wp` : weakest preconditions, for programs and for programs that may raise.
* `wp_bind`, `wp_query`, … : one rule for each way to build a program.
* `Wp.interruptible` : what a struck program leaves behind.
-/

namespace Backplane.Concur

open Prog

variable {A : Type → Type 1} {E S C R : Type} {α β : Type}

/-! ### Conditions on the environment -/

/-- The machine in which the environment decides only what `ok` allows. -/
def Machine.restrict (M : Machine A E S C R) (ok : ∀ {β : Type}, A β → E → S → Bool) :
    Machine A E S C R where
  exec a e s := if ok a e s then M.exec a e s else none
  body := M.body

section

variable {M : Machine A E S C R} {ok : ∀ {β : Type}, A β → E → S → Bool} {p : Prog A α}
  {s s' : S} {x : α}

theorem Machine.restrict_exec {a : A β} {e : E} {r : S × β} :
    (M.restrict ok).exec a e s = some r ↔ ok a e s = true ∧ M.exec a e s = some r := by
  simp [Machine.restrict]

end

/-! ### Weakest preconditions -/

/-- From `s`, whatever the environment decides, `I` holds before each action of the program, and
`fin` of what it has returned and left. -/
def Prog.Wp (M : Machine A E S C R) (I : S → Prop) : Prog A α → S → (α → S → Prop) → Prop
  | .ret a, s, fin => fin a s
  | .act a k, s, fin => I s ∧ ∀ e s₁ b, M.exec a e s = some (s₁, b) → (k b).Wp M I s₁ fin

namespace Prog

variable {M : Machine A E S C R} {I : S → Prop} {p : Prog A α} {f : α → Prog A β} {s s' : S}

theorem wp_bind {fin : β → S → Prop} :
    (p >>= f).Wp M I s fin ↔ p.Wp M I s fun a s' => (f a).Wp M I s' fin := by
  induction p generalizing s with
  | ret a => rfl
  | act a k ih =>
    exact and_congr_right fun _ => forall₃_congr fun e s₁ b => forall_congr' fun _ => ih b

theorem Wp.mono {fin fin' : α → S → Prop} (h : p.Wp M I s fin)
    (hfin : ∀ a s', fin a s' → fin' a s') : p.Wp M I s fin' := by
  induction p generalizing s with
  | ret a => exact hfin a s h
  | act a k ih => exact ⟨h.1, fun e s₁ b he => ih b (h.2 e s₁ b he)⟩

/-- **What a struck program leaves behind** satisfies the invariant; one that was not has returned
what it should. -/
theorem Wp.interruptible {probe : A Bool} {H : S → Prop} {fin : α → S → Prop} {x : Option α}
    (hprobe : ∀ {e s s₁ b}, M.exec probe e s = some (s₁, b) → s₁ = s ∧ (b = true → H s))
    (h : p.Wp M I s fin) (hp : Solo M (p.interruptible probe) s x s') :
    x = none ∧ I s' ∧ H s' ∨ ∃ a, x = some a ∧ fin a s' := by
  induction p generalizing s with
  | ret a =>
    obtain ⟨rfl, rfl⟩ := Solo.ret_iff.1 hp
    exact .inr ⟨a, rfl, h⟩
  | act a k ih =>
    obtain _ | ⟨he, hp⟩ := hp
    obtain ⟨rfl, hhit⟩ := hprobe he
    dsimp only at hp
    split at hp
    · rename_i hb
      obtain ⟨rfl, rfl⟩ := Solo.ret_iff.1 hp
      exact .inl ⟨rfl, h.1, hhit hb⟩
    · obtain _ | ⟨he', hp⟩ := hp
      exact ih _ (h.2 _ _ _ he') hp

end Prog

namespace Fallible

/-- `Prog.Wp` for a program that may raise: `err` holds where it has raised. -/
def Wp (M : Machine A E S C R) (I err : S → Prop) (p : Fallible A α) (s : S)
    (fin : α → S → Prop) : Prop :=
  p.run.Wp M I s fun x s' => match x with
    | .ok a => fin a s'
    | .error _ => err s'

variable {M : Machine A E S C R} {I err : S → Prop} {p : Fallible A α} {f : α → Fallible A β} {s : S}

theorem wp_pure {a : α} {fin : α → S → Prop} :
    Wp M I err (pure a : Fallible A α) s fin ↔ fin a s := Iff.rfl

theorem wp_throw {fin : α → S → Prop} :
    Wp M I err (throw () : Fallible A α) s fin ↔ err s := Iff.rfl

theorem wp_bind {fin : β → S → Prop} :
    Wp M I err (p >>= f) s fin ↔ Wp M I err p s fun a s' => Wp M I err (f a) s' fin := by
  rw [Wp, ExceptT.run_bind, Prog.wp_bind]
  refine iff_of_eq (congrArg (p.run.Wp M I s) (funext fun x => funext fun s' => ?_))
  cases x <;> rfl

theorem wp_query {a : A (Option α)} {fin : α → S → Prop} :
    Wp M I err (query a) s fin ↔ I s ∧ ∀ e s₁ b, M.exec a e s = some (s₁, b) → match b with
      | some v => fin v s₁
      | none => err s₁ := by
  refine and_congr_right fun _ => forall₃_congr fun e s₁ b => forall_congr' fun _ => ?_
  cases b <;> rfl

theorem wp_write {a : A Bool} {fin : Unit → S → Prop} :
    Wp M I err (write a) s fin ↔ I s ∧ ∀ e s₁ b, M.exec a e s = some (s₁, b) →
      if b then fin () s₁ else err s₁ := by
  refine and_congr_right fun _ => forall₃_congr fun e s₁ b => forall_congr' fun _ => ?_
  cases b <;> rfl

theorem wp_lift {q : Prog A α} {fin : α → S → Prop} :
    Wp M I err (lift q) s fin ↔ q.Wp M I s fin := by
  rw [Wp, lift, ExceptT.run_lift, ← bind_pure_comp, Prog.wp_bind]
  exact Iff.rfl

theorem Wp.mono {fin fin' : α → S → Prop} (h : Wp M I err p s fin)
    (hfin : ∀ a s', fin a s' → fin' a s') : Wp M I err p s fin' := by
  refine Prog.Wp.mono h fun x s' hx => ?_
  cases x with
  | ok a => exact hfin a s' hx
  | error => exact hx

end Fallible

end Backplane.Concur
