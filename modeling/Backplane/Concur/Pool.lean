import Backplane.Concur.Prog
import Mathlib.Data.List.Basic

/-!
# Pools of coroutines over a shared state

* `Machine` : what each action does to the shared state, and the program each call runs.
* `Pool` : the shared state, the history of the actions performed so far, and the coroutines.
* `Run M g P Q` : from `P` the pool can get to `Q`, every step satisfying the guard `g`; at each
  step any coroutine may be the one that moves, so a run is an arbitrary interleaving.
* `Machine.run` : the executable scheduler, sound for `Run` (`Run.of_run`).

An action is atomic; an action whose `exec` answers `none` blocks.
-/

namespace Backplane.Concur

variable {A : Type → Type 1} {E S C R : Type}

/-- What each action does to the shared state (`none`: it blocks), and what each call runs. -/
structure Machine (A : Type → Type 1) (E S C R : Type) where
  /-- Perform an action; `E` carries what the environment decides at this step. -/
  exec : ∀ {β : Type}, A β → E → S → Option (S × β)
  body : C → Prog A R

/-- One performed action with its answer. -/
structure Event (A : Type → Type 1) where
  /-- Type of the answer. -/
  {β : Type}
  act : A β
  ans : β

/-- A call and what is left of its program. -/
structure Thread (A : Type → Type 1) (C R : Type) where
  /-- The call this coroutine serves. -/
  call : C
  prog : Prog A R

/-- The history of a pool: who performed what, in order. -/
abbrev Log (A : Type → Type 1) := List (ℕ × Event A)

/-- The actions coroutine `i` has performed. -/
def Log.past (log : Log A) (i : ℕ) : List (Event A) :=
  (log.filter fun x => x.1 = i).map Prod.snd

/-- The shared state, the history and the coroutines. -/
structure Pool (A : Type → Type 1) (S C R : Type) where
  shared : S
  /-- The actions performed so far, each with the index of the coroutine. -/
  log : Log A
  /-- The coroutines, finished ones included. -/
  threads : List (Thread A C R)

/-- The conditions a run keeps to: on the calls that start and on the actions that fire. -/
structure Guard (A : Type → Type 1) (E S C R : Type) where
  start : Pool A S C R → C → Prop
  /-- This coroutine may perform its action now. -/
  fire : ∀ {β : Type}, Pool A S C R → ℕ → C → A β → E → Prop

/-- The guard that allows everything. -/
def Guard.free : Guard A E S C R := ⟨fun _ _ => True, fun _ _ _ _ _ => True⟩

namespace Pool

/-- A pool in which nothing has started. -/
def init (s : S) : Pool A S C R := ⟨s, [], []⟩

/-- Start a call. -/
def spawn (M : Machine A E S C R) (P : Pool A S C R) (c : C) : Pool A S C R :=
  { P with threads := P.threads ++ [⟨c, M.body c⟩] }

/-- Coroutine `i` performed `a`, which left the state `s` and was answered `b`. -/
def fired {β : Type} (P : Pool A S C R) (i : ℕ) (c : C) (a : A β) (k : β → Prog A R) (s : S)
    (b : β) : Pool A S C R where
  shared := s
  log := P.log ++ [(i, ⟨a, b⟩)]
  threads := P.threads.set i ⟨c, k b⟩

/-- The actions coroutine `i` has performed. -/
abbrev past (P : Pool A S C R) (i : ℕ) : List (Event A) := P.log.past i

end Pool

/-- `Run M g P Q`: the pool can get from `P` to `Q` by steps that satisfy `g`. -/
inductive Run (M : Machine A E S C R) (g : Guard A E S C R) :
    Pool A S C R → Pool A S C R → Prop
  | refl (P : Pool A S C R) : Run M g P P
  | start {P Q : Pool A S C R} (c : C) (h : Run M g P Q) (hg : g.start Q c) :
      Run M g P (Q.spawn M c)
  | step {P Q : Pool A S C R} {i : ℕ} {c : C} {β : Type} {a : A β} {k : β → Prog A R} {e : E}
      {s : S} {b : β} (h : Run M g P Q) (ht : Q.threads[i]? = some ⟨c, .act a k⟩)
      (hg : g.fire Q i c a e) (he : M.exec a e Q.shared = some (s, b)) :
      Run M g P (Q.fired i c a k s b)

/-- A decision of the scheduler. -/
inductive Move (E C : Type) where
  | start (c : C)
  /-- Coroutine `i` moves, the environment deciding `e`. -/
  | step (i : ℕ) (e : E)

namespace Machine

variable (M : Machine A E S C R)

/-- The pool after one decision, if it can be carried out and `check` lets it pass. -/
def next (check : ∀ {β : Type}, Pool A S C R → ℕ → C → A β → E → Bool) (P : Pool A S C R) :
    Move E C → Option (Pool A S C R)
  | .start c => some (P.spawn M c)
  | .step i e =>
    match P.threads[i]? with
    | some ⟨c, .act a k⟩ =>
      if check P i c a e then
        match M.exec a e P.shared with
        | some (s, b) => some (P.fired i c a k s b)
        | none => none
      else none
    | _ => none

/-- The pool after a list of decisions. -/
def run (check : ∀ {β : Type}, Pool A S C R → ℕ → C → A β → E → Bool) (P : Pool A S C R) :
    List (Move E C) → Option (Pool A S C R)
  | [] => some P
  | m :: ms =>
    match M.next check P m with
    | some Q => run check Q ms
    | none => none

end Machine

namespace Log

variable {log : Log A} {i j : ℕ} {x : Event A}

@[simp] theorem past_append_self : past (log ++ [(i, x)]) i = past log i ++ [x] := by
  simp [past]

theorem past_append_ne (h : j ≠ i) : past (log ++ [(i, x)]) j = past log j := by
  simp [past, Ne.symm h]

theorem mem_past : x ∈ past log i ↔ (i, x) ∈ log := by
  simp only [past, List.mem_map, List.mem_filter, decide_eq_true_eq]
  constructor
  · rintro ⟨⟨j, y⟩, ⟨hy, rfl⟩, rfl⟩
    exact hy
  · exact fun h => ⟨(i, x), ⟨h, rfl⟩, rfl⟩

theorem past_past (log : Log A) (i j : ℕ) :
    past (log.filter fun x => x.1 ≠ i) j = if j = i then [] else past log j := by
  simp only [past, List.filter_filter]
  split_ifs with h
  · subst h
    simp
  · congr 1
    refine List.filter_congr fun x _ => ?_
    by_cases hx : x.1 = j <;> simp [hx, h]

theorem countP_eq_add (log : Log A) (p : Event A → Bool) (i : ℕ) :
    log.countP (fun x => p x.2) =
      (past log i).countP p + (log.filter fun x => x.1 ≠ i).countP fun x => p x.2 := by
  rw [List.countP_eq_countP_filter_add log (fun x => p x.2) fun x => decide (x.1 = i), past,
    List.countP_map]
  simp [Function.comp_def]

/-- What holds of the counts coroutine by coroutine holds of the counts of the whole history. -/
theorem countP_le {p q : Event A → Bool} (h : ∀ i, (past log i).countP p ≤ (past log i).countP q) :
    log.countP (fun x => p x.2) ≤ log.countP fun x => q x.2 := by
  -- the history of one coroutine is taken out at a time
  induction hn : log.length using Nat.strongRecOn generalizing log with
  | ind n ih =>
    cases hl : log with
    | nil => simp
    | cons y ys =>
      have hlt : (log.filter fun x => x.1 ≠ y.1).length < n := by
        have hle := List.length_filter_le (fun x : ℕ × Event A => decide (x.1 ≠ y.1)) ys
        rw [hl, List.length_cons] at hn
        rw [hl, List.filter_cons_of_neg (by simp)]
        omega
      have hrest := @ih _ hlt (log.filter fun x => x.1 ≠ y.1)
        (fun i => by rw [past_past]; split_ifs <;> simp [h i]) rfl
      have hi := h y.1
      have hp := countP_eq_add log p y.1
      have hq := countP_eq_add log q y.1
      rw [← hl]
      omega

end Log

namespace Run

variable {M : Machine A E S C R} {g : Guard A E S C R}

theorem trans {P Q T : Pool A S C R} (h₁ : Run M g P Q) (h₂ : Run M g Q T) : Run M g P T := by
  induction h₂ with
  | refl => exact h₁
  | start c _ hg ih => exact ih.start c hg
  | step _ ht hg he ih => exact ih.step ht hg he

theorem mono {g' : Guard A E S C R} {P Q : Pool A S C R} (h : Run M g P Q)
    (hs : ∀ Q c, g.start Q c → g'.start Q c)
    (hf : ∀ {β : Type} (Q : Pool A S C R) i c (a : A β) e, g.fire Q i c a e → g'.fire Q i c a e) :
    Run M g' P Q := by
  induction h with
  | refl => exact .refl _
  | start c _ hg ih => exact ih.start c (hs _ _ hg)
  | step _ ht hg he ih => exact ih.step ht (hf _ _ _ _ _ hg) he

theorem free {P Q : Pool A S C R} (h : Run M g P Q) : Run M Guard.free P Q :=
  h.mono (fun _ _ _ => trivial) fun _ _ _ _ _ _ => trivial

/-- What the scheduler carries out, checking `check` before each action, is a run under every
guard that `check` implies and that lets every call start. -/
theorem of_run {check : ∀ {β : Type}, Pool A S C R → ℕ → C → A β → E → Bool}
    (hs : ∀ Q c, g.start Q c)
    (hc : ∀ {β : Type} (Q : Pool A S C R) i c (a : A β) e,
      check Q i c a e = true → g.fire Q i c a e)
    {ms : List (Move E C)} {P Q : Pool A S C R} (h : M.run check P ms = some Q) : Run M g P Q := by
  induction ms generalizing P with
  | nil => simp only [Machine.run, Option.some.injEq] at h; exact h ▸ .refl P
  | cons m ms ih =>
    simp only [Machine.run] at h
    split at h
    · rename_i P' hn
      refine trans ?_ (ih h)
      cases m with
      | start c =>
        simp only [Machine.next, Option.some.injEq] at hn
        exact hn ▸ (Run.refl P).start c (hs _ _)
      | step i e =>
        simp only [Machine.next] at hn
        split at hn
        · rename_i c β a k ht
          split_ifs at hn with hck
          split at hn
          · rename_i s b he
            simp only [Option.some.injEq] at hn
            exact hn ▸ (Run.refl P).step ht (hc _ _ _ _ _ hck) he
          · exact absurd hn (by simp)
        · exact absurd hn (by simp)
    · exact absurd h (by simp)

/-- The history only grows. -/
theorem log_append {P Q : Pool A S C R} (h : Run M g P Q) : ∃ l, Q.log = P.log ++ l := by
  induction h with
  | refl => exact ⟨[], (List.append_nil _).symm⟩
  | start _ _ _ ih => exact ih
  | step _ _ _ _ ih =>
    obtain ⟨l, hl⟩ := ih
    exact ⟨l ++ [_], by rw [Pool.fired, hl, List.append_assoc]⟩

/-- Every index in the history is that of a coroutine. -/
theorem log_lt {s : S} {P : Pool A S C R} (h : Run M g (.init s) P) :
    ∀ x ∈ P.log, x.1 < P.threads.length := by
  induction h with
  | refl => simp [Pool.init]
  | start c _ _ ih =>
    intro x hx
    have := ih x hx
    simp only [Pool.spawn, List.length_append, List.length_singleton]
    omega
  | step _ ht _ _ ih =>
    intro x hx
    simp only [Pool.fired, List.mem_append, List.mem_singleton, List.length_set] at hx ⊢
    rcases hx with hx | rfl
    · exact ih x hx
    · exact (List.getElem?_eq_some_iff.1 ht).1

/-- Nobody has moved under an index that was not in use yet. -/
theorem past_eq_nil {s : S} {P : Pool A S C R} (h : Run M g (.init s) P) {i : ℕ}
    (hi : P.threads.length ≤ i) : P.past i = [] := by
  simp only [Pool.past, Log.past, List.map_eq_nil_iff, List.filter_eq_nil_iff, decide_eq_true_eq]
  intro x hx hxi
  have := h.log_lt x hx
  omega

end Run

end Backplane.Concur
