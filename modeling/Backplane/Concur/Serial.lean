import Backplane.Concur.Trace

/-!
# Calls that are served one at a time

Where a lock lets one call in at a time, a run is a sequence of calls, each of which runs on its own
from the state the one before it has left.

* `Performed`, `Serial` : what a call was answered and what it did to the state; runs of calls.
* `Serial.invariant` : what every call keeps holds after every run.
* `Solo.keeps`, `Solo.preserves` : what no action of a program changes, or breaks.
* `Discipline.Obeys.solo` : disciplines, for a program that runs on its own.
* `Prog.play` : what a program does under given decisions of the environment.
-/

namespace Backplane.Concur

variable {A : Type → Type 1} {E S C R Q : Type} {α β : Type}

/-- A call, with the state it has found, its answer, and the state it has left. -/
structure Performed (S C R : Type) where
  call : C
  before : S
  answer : R
  after : S

/-- From the state `s₀`, these calls one after the other lead to a state. -/
inductive Serial (M : Machine A E S C R) (s₀ : S) : List (Performed S C R) → S → Prop
  | nil : Serial M s₀ [] s₀
  | snoc {ops : List (Performed S C R)} {s s' : S} {c : C} {x : R} (h : Serial M s₀ ops s)
      (hc : Solo M (M.body c) s x s') : Serial M s₀ (ops ++ [⟨c, s, x, s'⟩]) s'

namespace Serial

variable {M : Machine A E S C R} {s₀ s : S} {ops : List (Performed S C R)}

/-- Each call has run on its own. -/
theorem performed (h : Serial M s₀ ops s) {d : Performed S C R} (hd : d ∈ ops) :
    Solo M (M.body d.call) d.before d.answer d.after := by
  induction h with
  | nil => exact absurd hd List.not_mem_nil
  | snoc _ hc ih =>
    obtain hd | hd := List.mem_append.1 hd
    · exact ih hd
    · rw [List.mem_singleton.1 hd]
      exact hc

/-- **What every call keeps holds after every run**, and before each of its calls. -/
theorem invariant {I : S → Prop} {P : Performed S C R → Prop} (h : Serial M s₀ ops s)
    (h₀ : I s₀) (hok : ∀ d ∈ ops, P d)
    (hstep : ∀ d, Solo M (M.body d.call) d.before d.answer d.after → P d → I d.before →
      I d.after) : I s ∧ ∀ d ∈ ops, I d.before ∧ I d.after := by
  induction h with
  | nil => exact ⟨h₀, fun _ hd => absurd hd List.not_mem_nil⟩
  | @snoc ops s s' c x _ hc ih =>
    obtain ⟨hs, hall⟩ := ih fun d hd => hok d (List.mem_append_left _ hd)
    have hs' := hstep ⟨c, s, x, s'⟩ hc
      (hok _ (List.mem_append_right _ (List.mem_singleton.2 rfl))) hs
    refine ⟨hs', fun d hd => ?_⟩
    obtain hd | hd := List.mem_append.1 hd
    · exact hall d hd
    · rw [List.mem_singleton.1 hd]
      exact ⟨hs, hs'⟩

end Serial

/-! ### Programs on their own -/

section

variable {M : Machine A E S C R} {p : Prog A α} {s s' : S} {x : α}

theorem Solo.ret_iff {a : α} : Solo M (.ret a) s x s' ↔ x = a ∧ s' = s := by
  constructor
  · rintro ⟨⟩
    exact ⟨rfl, rfl⟩
  · rintro ⟨rfl, rfl⟩
    exact .ret _ _

theorem Solo.perform_bind_iff {a : A β} {f : β → Prog A α} :
    Solo M (.perform a >>= f) s x s' ↔
      ∃ e s₁ b, M.exec a e s = some (s₁, b) ∧ Solo M (f b) s₁ x s' := by
  constructor
  · rintro (_ | ⟨he, h⟩)
    exact ⟨_, _, _, he, h⟩
  · rintro ⟨e, s₁, b, he, h⟩
    exact .act he h

/-- What none of its actions changes a program leaves as it was. -/
theorem Solo.keeps {γ : Type} {Ok : ∀ {β : Type}, A β → Prop} (h : Solo M p s x s')
    (hp : p.Only Ok) (f : S → γ)
    (hf : ∀ {β : Type} {a : A β} {e : E} {s s₁ : S} {b : β}, Ok a →
      M.exec a e s = some (s₁, b) → f s₁ = f s) : f s' = f s := by
  induction h with
  | ret => rfl
  | act he _ ih => exact (ih (hp.2 _)).trans (hf hp.1 he)

/-- What every action of a program keeps it keeps itself. -/
theorem Solo.preserves {I : S → Prop} {Ok : ∀ {β : Type}, A β → Prop} (h : Solo M p s x s')
    (hp : p.Only Ok) (hs : I s)
    (hstep : ∀ {β : Type} {a : A β} {e : E} {s s₁ : S} {b : β}, Ok a → I s →
      M.exec a e s = some (s₁, b) → I s₁) : I s' := by
  induction h with
  | ret => exact hs
  | act he _ ih => exact ih (hp.2 _) (hstep hp.1 hs he)

/-- A program that no fault has struck has run as if there were none. -/
theorem Solo.of_interruptible {probe : A Bool}
    (hprobe : ∀ {e : E} {s s₁ : S} {b : Bool}, M.exec probe e s = some (s₁, b) → s₁ = s)
    (h : Solo M (p.interruptible probe) s (some x) s') : Solo M p s x s' := by
  induction p generalizing s with
  | ret a =>
    obtain ⟨hx, rfl⟩ := Solo.ret_iff.1 h
    obtain rfl := Option.some.inj hx
    exact .ret _ _
  | act a k ih =>
    obtain _ | ⟨he, h⟩ := h
    obtain rfl := hprobe he
    dsimp only at h
    split at h
    · exact absurd (Solo.ret_iff.1 h).1 (by simp)
    · obtain _ | ⟨he', h⟩ := h
      exact .act he' (ih _ h)

/-- A program that obeys a discipline ends with true knowledge, if each action makes it so. -/
theorem Discipline.Obeys.solo {D : Discipline A Q} {q : Q} {fin : Q → α → Prop}
    {Holds : Q → S → Prop} (hp : D.Obeys q p fin) (h : Solo M p s x s') (hq : Holds q s)
    (hstep : ∀ {β : Type} {a : A β} {e : E} {q : Q} {s s₁ : S} {b : β}, Holds q s → D.ok q a →
      M.exec a e s = some (s₁, b) → D.ans a b ∧ Holds (D.next q a b) s₁) :
    ∃ q', Holds q' s' ∧ fin q' x := by
  induction h generalizing q with
  | ret => exact ⟨q, hq, hp⟩
  | act he _ ih =>
    obtain ⟨hans, hq'⟩ := hstep hq hp.1 he
    exact ih (hp.2 _ hans) hq'

end

/-! ### Playing a program -/

/-- What a program does on its own when the environment decides so, and what it leaves undecided. -/
def Prog.play (M : Machine A E S C R) : Prog A α → S → List E → Option (α × S)
  | .ret a, s, _ => some (a, s)
  | .act _ _, _, [] => none
  | .act a k, s, e :: es =>
    match M.exec a e s with
    | some (s₁, b) => (k b).play M s₁ es
    | none => none

theorem Solo.of_play {M : Machine A E S C R} {p : Prog A α} {s s' : S} {x : α} {es : List E}
    (h : p.play M s es = some (x, s')) : Solo M p s x s' := by
  induction p generalizing s es with
  | ret a =>
    cases h
    exact .ret _ _
  | act a k ih =>
    cases es with
    | nil => cases h
    | cons e es =>
      simp only [Prog.play] at h
      split at h
      · rename_i s₁ b he
        exact .act he (ih b h)
      · cases h

/-- Calls that are played one after the other. -/
def Machine.playAll (M : Machine A E S C R) :
    S → List (C × List E) → Option (List (Performed S C R) × S)
  | s, [] => some ([], s)
  | s, (c, es) :: cs =>
    match (M.body c).play M s es with
    | some (x, s₁) => (M.playAll s₁ cs).map fun r => (⟨c, s, x, s₁⟩ :: r.1, r.2)
    | none => none

/-- What is played is a run. -/
theorem Serial.of_playAll {M : Machine A E S C R} {s₀ s s' : S} {cs : List (C × List E)}
    {ops ops' : List (Performed S C R)} (h : Serial M s₀ ops s)
    (hplay : M.playAll s cs = some (ops', s')) : Serial M s₀ (ops ++ ops') s' := by
  induction cs generalizing s ops ops' with
  | nil =>
    cases hplay
    rwa [List.append_nil]
  | cons x cs ih =>
    obtain ⟨c, es⟩ := x
    simp only [Machine.playAll] at hplay
    split at hplay
    · rename_i x s₁ hx
      obtain ⟨⟨rest, s₂⟩, hrest, heq⟩ := Option.map_eq_some_iff.1 hplay
      obtain ⟨rfl, rfl⟩ := Prod.mk.inj heq
      have := ih (h.snoc (Solo.of_play hx)) hrest
      rwa [List.append_assoc] at this
    · cases hplay

end Backplane.Concur
