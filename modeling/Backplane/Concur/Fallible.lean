import Backplane.Concur.Serial
import Backplane.Concur.Discipline

/-!
# Programs that may raise

* `Fallible` : a program that may raise; `query`, `write`, `lift` are its statements.
* `run_query`, … : what such a program performs.
* `only_query`, … : the actions it performs; `obeys_query`, … : the disciplines it obeys.
* `solo_query`, … : what it does when it runs on its own.
-/

namespace Backplane.Concur

open Prog

variable {A : Type → Type 1} {E S C R Q : Type} {α β : Type}

/-- A program that may raise. -/
abbrev Fallible (A : Type → Type 1) (α : Type) := ExceptT Unit (Prog A) α

namespace Fallible

/-- A statement that answers. -/
def query (a : A (Option α)) : Fallible A α := ExceptT.mk do
  match ← perform a with
  | some x => pure (.ok x)
  | none => pure (.error ())

/-- A statement that writes. -/
def write (a : A Bool) : Fallible A Unit := ExceptT.mk do
  if ← perform a then pure (.ok ()) else pure (.error ())

/-- A program that does not raise. -/
def lift (p : Prog A α) : Fallible A α := ExceptT.lift p

theorem run_query {a : A (Option α)} {f : α → Fallible A β} :
    (query a >>= f).run = (perform a >>= fun b => match b with
      | some v => (f v).run
      | none => pure (.error ())) := by
  refine congrArg (Prog.act a) (funext fun b => ?_)
  cases b <;> rfl

theorem run_write {a : A Bool} {f : Unit → Fallible A β} :
    (write a >>= f).run = (perform a >>= fun b =>
      if b then (f ()).run else pure (.error ())) := by
  refine congrArg (Prog.act a) (funext fun b => ?_)
  cases b <;> rfl

theorem run_lift {p : Prog A α} {f : α → Fallible A β} :
    (lift p >>= f).run = (p >>= fun y => (f y).run) := by
  rw [lift, ExceptT.run_bind, ExceptT.run_lift]
  exact bind_map_left _ _ _

section

variable {P : ∀ {β : Type}, A β → Prop}

theorem only_query {a : A (Option α)} {f : α → Fallible A β} (ha : P a)
    (hf : ∀ v, (f v).run.Only P) : (query a >>= f).run.Only P := by
  rw [run_query]
  refine ⟨ha, fun b => ?_⟩
  cases b with
  | none => trivial
  | some v => exact hf v

theorem only_write {a : A Bool} {f : Unit → Fallible A β} (ha : P a)
    (hf : (f ()).run.Only P) : (write a >>= f).run.Only P := by
  rw [run_write]
  refine ⟨ha, fun b => ?_⟩
  cases b with
  | false => trivial
  | true => exact hf

theorem only_lift {p : Prog A α} {f : α → Fallible A β} (hp : p.Only P)
    (hf : ∀ v, (f v).run.Only P) : (lift p >>= f).run.Only P := by
  rw [run_lift]
  exact hp.bind hf

theorem only_lifted {p : Prog A α} (hp : p.Only P) : (lift p).run.Only P := by
  rw [← bind_pure (lift p)]
  exact only_lift hp fun _ => trivial

theorem only_bind {p : Fallible A α} {f : α → Fallible A β} (hp : p.run.Only P)
    (hf : ∀ v, (f v).run.Only P) : (p >>= f).run.Only P := by
  rw [ExceptT.run_bind]
  refine hp.bind fun x => ?_
  cases x with
  | error => trivial
  | ok v => exact hf v

end

/-! Disciplines of programs that may raise, one rule for each statement. -/

section

variable {D : Discipline A Q} {q : Q} {fin : Q → Except Unit β → Prop}

theorem obeys_query {a : A (Option α)} {f : α → Fallible A β} (ha : D.ok q a)
    (hnone : fin (D.next q a none) (.error ()))
    (hf : ∀ v, D.Obeys (D.next q a (some v)) (f v).run fin) :
    D.Obeys q (query a >>= f).run fin := by
  rw [run_query]
  refine ⟨ha, fun b _ => ?_⟩
  cases b with
  | none => exact hnone
  | some v => exact hf v

theorem obeys_queried {a : A (Option α)} {fin : Q → Except Unit α → Prop} (ha : D.ok q a)
    (hnone : fin (D.next q a none) (.error ())) (hf : ∀ v, fin (D.next q a (some v)) (.ok v)) :
    D.Obeys q (query a).run fin := by
  refine ⟨ha, fun b _ => ?_⟩
  cases b with
  | none => exact hnone
  | some v => exact hf v

theorem obeys_write {a : A Bool} {f : Unit → Fallible A β} (ha : D.ok q a)
    (hfalse : fin (D.next q a false) (.error ()))
    (hf : D.Obeys (D.next q a true) (f ()).run fin) :
    D.Obeys q (write a >>= f).run fin := by
  rw [run_write]
  refine ⟨ha, fun b _ => ?_⟩
  cases b with
  | false => exact hfalse
  | true => exact hf

end

section

variable {M : Machine A E S C R} {s s' : S} {x : Except Unit β}

theorem solo_query {a : A (Option α)} {f : α → Fallible A β} :
    Solo M (query a >>= f).run s x s' ↔
      ∃ e s₁ b, M.exec a e s = some (s₁, b) ∧ match b with
        | some v => Solo M (f v).run s₁ x s'
        | none => x = .error () ∧ s' = s₁ := by
  rw [run_query, Solo.perform_bind_iff]
  refine exists_congr fun e => exists_congr fun s₁ => exists_congr fun b => and_congr_right fun _ => ?_
  cases b with
  | none => exact Solo.ret_iff
  | some v => exact Iff.rfl

theorem solo_write {a : A Bool} {f : Unit → Fallible A β} :
    Solo M (write a >>= f).run s x s' ↔
      ∃ e s₁ b, M.exec a e s = some (s₁, b) ∧
        if b then Solo M (f ()).run s₁ x s' else x = .error () ∧ s' = s₁ := by
  rw [run_write, Solo.perform_bind_iff]
  refine exists_congr fun e => exists_congr fun s₁ => exists_congr fun b => and_congr_right fun _ => ?_
  cases b with
  | false => exact Solo.ret_iff
  | true => exact Iff.rfl

theorem solo_lift {p : Prog A α} {f : α → Fallible A β} :
    Solo M (lift p >>= f).run s x s' ↔
      ∃ y s₁, Solo M p s y s₁ ∧ Solo M (f y).run s₁ x s' := by
  rw [run_lift, Solo.bind_iff]

theorem solo_bind {p : Fallible A α} {f : α → Fallible A β} :
    Solo M (p >>= f).run s x s' ↔
      ∃ y s₁, Solo M p.run s y s₁ ∧ match y with
        | .ok v => Solo M (f v).run s₁ x s'
        | .error () => x = .error () ∧ s' = s₁ := by
  rw [ExceptT.run_bind, Solo.bind_iff]
  refine exists_congr fun y => exists_congr fun s₁ => and_congr_right fun _ => ?_
  cases y with
  | error => exact Solo.ret_iff
  | ok v => exact Iff.rfl

end

end Fallible

end Backplane.Concur
