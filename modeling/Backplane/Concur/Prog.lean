import Mathlib.Logic.Basic
import Mathlib.Tactic.Common

/-!
# Programs over atomic actions

A coroutine is a tree: it either has returned, or performs one atomic action and continues with
the answer.  Nothing about the shared state appears in the tree; what an action does to the state
is the business of `Backplane.Concur.Pool`.

* `Prog A α` : programs over the actions `A` that return an `α`; a lawful monad.
* `Prog.perform` : the program that performs one action.
* `Prog.mapAct` : the same program over other actions.
* `Prog.interruptible` : a program in which a fault may strike before each action.
* `Prog.expand` : a program whose actions are programs themselves.
* `Prog.Only P p` : `p` performs no action outside `P`, whatever answers it gets.
-/

namespace Backplane.Concur

/-- A program over the actions `A`, where an action `a : A β` is answered by a `β`. -/
inductive Prog (A : Type → Type 1) (α : Type) : Type 1
  | ret (a : α) : Prog A α
  /-- Perform `a` and continue with its answer. -/
  | act {β : Type} (a : A β) (k : β → Prog A α) : Prog A α

namespace Prog

variable {A : Type → Type 1} {α β γ : Type}

/-- Run `p`, then continue with `f` on what it returned. -/
def bind : Prog A α → (α → Prog A β) → Prog A β
  | ret a, f => f a
  | act a k, f => act a fun b => (k b).bind f

instance : Monad (Prog A) where
  pure := ret
  bind := bind

/-- The program that performs `a` and returns its answer. -/
def perform (a : A α) : Prog A α := act a ret

/-- `p` with each of its actions replaced by its image under `f`. -/
def mapAct {B : Type → Type 1} (f : ∀ {β : Type}, A β → B β) : Prog A α → Prog B α
  | ret a => ret a
  | act a k => act (f a) fun b => (k b).mapAct f

/-- `p` with a fault point before each of its actions: `probe` tells whether a fault strikes
there, and the program that was struck returns nothing. -/
def interruptible (probe : A Bool) : Prog A α → Prog A (Option α)
  | ret a => ret (some a)
  | act a k => act probe fun hit =>
      if hit then ret none else act a fun b => (k b).interruptible probe

/-- `p` with each of its actions replaced by a program; where that yields no answer, `p` ends. -/
def expand {B : Type → Type 1} (f : ∀ {β : Type}, A β → Prog B (Option β)) :
    Prog A α → Prog B (Option α)
  | ret a => ret (some a)
  | act a k => f a |>.bind fun r => r.elim (ret none) fun b => (k b).expand f

/-- `p` performs only actions that satisfy `P`, whatever answers it gets. -/
def Only (P : ∀ {β : Type}, A β → Prop) : Prog A α → Prop
  | ret _ => True
  | act a k => P a ∧ ∀ b, (k b).Only P

/-- `p` has nothing left to do. -/
def Finished : Prog A α → Prop
  | ret _ => True
  | act _ _ => False

/-- Decides `Finished`. -/
def finished : Prog A α → Bool
  | ret _ => true
  | act _ _ => false

theorem finished_iff {p : Prog A α} : p.finished = true ↔ p.Finished := by
  cases p <;> simp [finished, Finished]

@[simp] theorem pure_eq (a : α) : (pure a : Prog A α) = ret a := rfl

@[simp] theorem ret_bind (a : α) (f : α → Prog A β) : (ret a : Prog A α) >>= f = f a := rfl

@[simp] theorem act_bind (a : A γ) (k : γ → Prog A α) (f : α → Prog A β) :
    (act a k) >>= f = act a fun b => k b >>= f := rfl

theorem perform_bind (a : A α) (f : α → Prog A β) : perform a >>= f = act a f := rfl

theorem expand_act {B : Type → Type 1} (f : ∀ {β : Type}, A β → Prog B (Option β)) (a : A γ)
    (k : γ → Prog A α) :
    (act a k).expand f = f a >>= fun r => r.elim (ret none) fun b => (k b).expand f := rfl

theorem bind_ret (p : Prog A α) : p >>= ret = p := by
  induction p with
  | ret a => rfl
  | act a k ih => simp [ih]

theorem bind_assoc (p : Prog A α) (f : α → Prog A β) (g : β → Prog A γ) :
    p >>= f >>= g = p >>= fun a => f a >>= g := by
  induction p with
  | ret a => rfl
  | act a k ih => simp [ih]

instance : LawfulMonad (Prog A) :=
  LawfulMonad.mk' (Prog A) bind_ret (fun _ _ => rfl) bind_assoc

section Only

variable {P P' : ∀ {β : Type}, A β → Prop}

theorem Only.bind {p : Prog A α} {f : α → Prog A β} (hp : p.Only P) (hf : ∀ a, (f a).Only P) :
    (p >>= f).Only P := by
  induction p with
  | ret a => exact hf a
  | act a k ih => exact ⟨hp.1, fun b => ih b (hp.2 b)⟩

theorem Only.of_forall (h : ∀ {β : Type} (a : A β), P a) (p : Prog A α) : p.Only P := by
  induction p with
  | ret a => trivial
  | act a k ih => exact ⟨h a, ih⟩

theorem Only.mono {p : Prog A α} (hp : p.Only P) (h : ∀ {β} (a : A β), P a → P' a) :
    p.Only P' := by
  induction p with
  | ret a => trivial
  | act a k ih => exact ⟨h a hp.1, fun b => ih b (hp.2 b)⟩

theorem only_perform {a : A α} : (perform a).Only P ↔ P a := by
  simp [perform, Only]

theorem Only.mapAct {B : Type → Type 1} {P : ∀ {β : Type}, B β → Prop} {f : ∀ {β : Type}, A β → B β}
    {p : Prog A α} (hp : p.Only fun a => P (f a)) : (p.mapAct f).Only P := by
  induction p with
  | ret a => trivial
  | act a k ih => exact ⟨hp.1, fun b => ih b (hp.2 b)⟩

theorem Only.interruptible {probe : A Bool} {p : Prog A α} (hp : p.Only P) (hprobe : P probe) :
    (p.interruptible probe).Only P := by
  induction p with
  | ret a => trivial
  | act a k ih =>
    refine ⟨hprobe, fun hit => ?_⟩
    cases hit with
    | true => trivial
    | false => exact ⟨hp.1, fun b => ih b (hp.2 b)⟩

theorem Only.expand {B : Type → Type 1} {P : ∀ {β : Type}, B β → Prop}
    {f : ∀ {β : Type}, A β → Prog B (Option β)} {p : Prog A α} (hp : p.Only fun a => (f a).Only P) :
    (p.expand f).Only P := by
  induction p with
  | ret a => trivial
  | act a k ih =>
    rw [expand_act]
    refine Only.bind hp.1 fun b => ?_
    cases b with
    | none => trivial
    | some b => exact ih b (hp.2 b)

end Only

end Prog

end Backplane.Concur
