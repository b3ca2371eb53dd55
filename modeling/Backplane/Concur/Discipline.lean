import Backplane.Concur.Pool
import Mathlib.Order.Basic

/-!
# Disciplines: what a program does, apart from what its actions mean

A `Discipline` watches the actions of one program and their answers.  It keeps what it has learned
in a `Q`, says which actions the program may perform next, and forgets the shared state altogether,
so `Obeys` is proved by following the program text.

What the learned facts mean is said once for the whole pool: `Sound M g D q₀ s₀ Inv Know` asks, for
one action of one coroutine, that the invariant `Inv` is kept, that the coroutine's own facts come
out true, and that those of the others stay true.  `Sound.of_run` is the resulting law of every
interleaving.

* `Discipline.Obeys` and its rules for `bind`, loops, faults and exceptions.
* `Discipline.Keeps` : the programs that keep a property of what is known.
* `Discipline.Accumulates` : nothing is forgotten, so a program may use what was known before.
* `Sound.of_run` : from one action to every run.
-/

namespace Backplane.Concur

variable {A : Type → Type 1} {E S C R Q : Type} {α β γ X : Type}

/-- An observer of one program: what it may do, and what is learned from the answers. -/
structure Discipline (A : Type → Type 1) (Q : Type) where
  /-- The action may be performed now. -/
  ok : ∀ {β : Type}, Q → A β → Prop
  /-- The action can be answered so. -/
  ans : ∀ {β : Type}, A β → β → Prop
  /-- What is known after the answer. -/
  next : ∀ {β : Type}, Q → A β → β → Q

namespace Discipline

variable (D : Discipline A Q)

/-- Started with `q`, the program performs permitted actions only, and `fin` holds of what is
known and what is returned when it is done. -/
def Obeys : Q → Prog A α → (Q → α → Prop) → Prop
  | q, .ret a, fin => fin q a
  | q, .act a k, fin => D.ok q a ∧ ∀ b, D.ans a b → Obeys (D.next q a b) (k b) fin

/-- Started with facts that satisfy `I`, the program performs permitted actions only and ends with
such facts. -/
def Keeps (I : Q → Prop) (p : Prog A α) : Prop := ∀ q, I q → D.Obeys q p fun q' _ => I q'

/-- The action is permitted wherever `I` holds, and keeps `I`. -/
def Safe (I : Q → Prop) (a : A β) : Prop := ∀ q, I q → D.ok q a ∧ ∀ b, D.ans a b → I (D.next q a b)

/-- The action is always permitted and teaches nothing. -/
def Neutral (a : A β) : Prop := ∀ q, D.ok q a ∧ ∀ b, D.ans a b → D.next q a b = q

variable {D} {q : Q} {p : Prog A α} {f : α → Prog A β}

@[simp] theorem obeys_ret {a : α} {fin : Q → α → Prop} :
    D.Obeys q (.ret a) fin ↔ fin q a := Iff.rfl

@[simp] theorem obeys_pure {a : α} {fin : Q → α → Prop} :
    D.Obeys q (pure a) fin ↔ fin q a := Iff.rfl

@[simp] theorem obeys_act {a : A γ} {k : γ → Prog A α} {fin : Q → α → Prop} :
    D.Obeys q (.act a k) fin ↔ D.ok q a ∧ ∀ b, D.ans a b → D.Obeys (D.next q a b) (k b) fin :=
  Iff.rfl

@[simp] theorem obeys_perform {a : A α} {fin : Q → α → Prop} :
    D.Obeys q (.perform a) fin ↔ D.ok q a ∧ ∀ b, D.ans a b → fin (D.next q a b) b := Iff.rfl

theorem obeys_perform_bind {a : A γ} {f : γ → Prog A α} {fin : Q → α → Prop} :
    D.Obeys q (.perform a >>= f) fin ↔
      D.ok q a ∧ ∀ b, D.ans a b → D.Obeys (D.next q a b) (f b) fin := Iff.rfl

@[simp] theorem obeys_bind {fin : Q → β → Prop} :
    D.Obeys q (p >>= f) fin ↔ D.Obeys q p fun q' a => D.Obeys q' (f a) fin := by
  induction p generalizing q with
  | ret a => rfl
  | act a k ih =>
    simp only [Prog.act_bind, obeys_act]
    exact and_congr_right fun _ => forall₂_congr fun b _ => ih b

theorem Obeys.mono {fin fin' : Q → α → Prop} (h : D.Obeys q p fin)
    (hf : ∀ q a, fin q a → fin' q a) : D.Obeys q p fin' := by
  induction p generalizing q with
  | ret a => exact hf _ _ h
  | act a k ih => exact ⟨h.1, fun b hb => ih b (h.2 b hb)⟩

/-- A program of actions that are always permitted. -/
theorem Obeys.of_ok (h : p.Only fun a => ∀ q, D.ok q a) : D.Obeys q p fun _ _ => True := by
  induction p generalizing q with
  | ret a => trivial
  | act a k ih => exact ⟨h.1 q, fun b _ => ih b (h.2 b)⟩

/-- A program of neutral actions learns nothing. -/
theorem Obeys.of_only {fin : Q → α → Prop} (h : p.Only D.Neutral) (hf : ∀ a, fin q a) :
    D.Obeys q p fin := by
  induction p with
  | ret a => exact hf a
  | act a k ih =>
    refine ⟨(h.1 q).1, fun b hb => ?_⟩
    rw [(h.1 q).2 b hb]
    exact ih b (h.2 b)

section Keeps

variable {I : Q → Prop}

/-- A program of safe actions keeps `I`. -/
theorem Keeps.of_only (h : p.Only (D.Safe I)) : D.Keeps I p := by
  induction p with
  | ret a => exact fun _ hq => hq
  | act a k ih => exact fun q hq => ⟨(h.1 q hq).1, fun b hb => ih b (h.2 b) _ ((h.1 q hq).2 b hb)⟩

theorem keeps_pure (a : α) : D.Keeps I (pure a) := fun _ hq => hq

theorem keeps_perform {a : A α} (h : D.Safe I a) : D.Keeps I (.perform a) := h

theorem Keeps.bind (hp : D.Keeps I p) (hf : ∀ a, D.Keeps I (f a)) : D.Keeps I (p >>= f) :=
  fun q hq => obeys_bind.2 ((hp q hq).mono fun q' a hq' => hf a q' hq')

end Keeps

/-- The rule for faults, where what is known satisfies `I` at every action: where the probe misses
nothing is learned; a program that was struck returns right after the probe that hit. -/
theorem Obeys.interruptible_in {I : Q → Prop} {probe : A Bool} {fin : Q → α → Prop}
    (hprobe : ∀ q, I q → D.ok q probe ∧ D.next q probe false = q)
    (hI : ∀ {β : Type} (q : Q) (a : A β) (b : β), I q → D.ok q a → I (D.next q a b)) (hq : I q)
    (h : D.Obeys q p fin) :
    D.Obeys q (p.interruptible probe) fun q' r =>
      (∀ a, r = some a → fin q' a) ∧ (r = none → ∃ q'', I q'' ∧ q' = D.next q'' probe true) := by
  induction p generalizing q with
  | ret a => exact ⟨fun a' ha => Option.some.inj ha ▸ h, fun hn => absurd hn (by simp)⟩
  | act a k ih =>
    refine ⟨(hprobe q hq).1, fun hit _ => ?_⟩
    cases hit with
    | true => exact ⟨fun _ h => absurd h (by simp), fun _ => ⟨q, hq, rfl⟩⟩
    | false =>
      rw [(hprobe q hq).2]
      exact ⟨h.1, fun b hb => ih b (hI q a b hq h.1) (h.2 b hb)⟩

/-- The rule for faults: where the probe misses nothing is learned; a program that was struck
returns right after the probe that hit. -/
theorem Obeys.interruptible {probe : A Bool} {fin : Q → α → Prop}
    (hprobe : ∀ q, D.ok q probe ∧ D.next q probe false = q) (h : D.Obeys q p fin) :
    D.Obeys q (p.interruptible probe) fun q' r =>
      (∀ a, r = some a → fin q' a) ∧ (r = none → ∃ q'', q' = D.next q'' probe true) := by
  refine (h.interruptible_in (I := fun _ => True) (fun q _ => hprobe q) (fun _ _ _ _ _ => trivial)
    trivial).mono fun q' r hr => ⟨hr.1, fun hn => ?_⟩
  obtain ⟨q'', -, hq''⟩ := hr.2 hn
  exact ⟨q'', hq''⟩

/-- The rule for expanded programs: each action's program may do what the action may, and learns from
the answer it yields what the action teaches. -/
theorem Obeys.expand {B : Type → Type 1} {D' : Discipline B Q}
    {f : ∀ {β : Type}, A β → Prog B (Option β)} {fin : Q → α → Prop}
    (hf : ∀ {β : Type} (a : A β) (q : Q), D.ok q a → D'.Obeys q (f a) fun q' r =>
      ∀ b, r = some b → D.ans a b ∧ q' = D.next q a b)
    (h : D.Obeys q p fin) : D'.Obeys q (p.expand f) fun q' r => ∀ x, r = some x → fin q' x := by
  induction p generalizing q with
  | ret a =>
    rintro x ⟨⟩
    exact h
  | act a k ih =>
    rw [Prog.expand_act]
    refine obeys_bind.2 ((hf a q h.1).mono fun q' r hr => ?_)
    cases r with
    | none => exact fun x hx => absurd hx (by simp)
    | some b =>
      obtain ⟨hb, rfl⟩ := hr b rfl
      exact ih b (h.2 b hb)

end Discipline

/-! ### Loops -/

namespace Prog

/-- Run `f` on each element in turn. -/
def each (f : X → Prog A β) : List X → Prog A Unit
  | [] => pure ()
  | x :: xs => do
    let _ ← f x
    each f xs

/-- Run `f` on each element in turn and collect what it yields. -/
def collect (f : X → Prog A (Option β)) : List X → Prog A (List β)
  | [] => pure []
  | x :: xs => do
    let b ← f x
    let bs ← collect f xs
    pure (b.toList ++ bs)

variable {P : ∀ {β : Type}, A β → Prop}

theorem only_each {f : X → Prog A β} (h : ∀ x, (f x).Only P) (xs : List X) :
    (each f xs).Only P := by
  induction xs with
  | nil => trivial
  | cons x xs ih => exact (h x).bind fun _ => ih

theorem only_collect {f : X → Prog A (Option β)} (h : ∀ x, (f x).Only P) (xs : List X) :
    (collect f xs).Only P := by
  induction xs with
  | nil => trivial
  | cons x xs ih => exact (h x).bind fun _ => ih.bind fun _ => trivial

end Prog

namespace Discipline

variable {D : Discipline A Q} {q : Q}

/-- The loop rule: `I` holds of the elements still to come and of what is known. -/
theorem obeys_each {f : X → Prog A β} (I : List X → Q → Prop)
    (hf : ∀ x xs q, I (x :: xs) q → D.Obeys q (f x) fun q' _ => I xs q') {xs : List X}
    (h : I xs q) : D.Obeys q (Prog.each f xs) fun q' _ => I [] q' := by
  induction xs generalizing q with
  | nil => exact h
  | cons x xs ih => exact obeys_bind.2 ((hf x xs q h).mono fun q' _ hq => ih hq)

/-- The loop rule with what has been collected so far. -/
theorem obeys_collect {f : X → Prog A (Option β)} (I : List X → List β → Q → Prop)
    (hf : ∀ x xs bs q, I (x :: xs) bs q →
      D.Obeys q (f x) fun q' b => I xs (bs ++ b.toList) q') {xs : List X} (bs : List β)
    (h : I xs bs q) :
    D.Obeys q (Prog.collect f xs) fun q' bs' => I [] (bs ++ bs') q' := by
  induction xs generalizing q bs with
  | nil => simpa [Prog.collect] using h
  | cons x xs ih =>
    refine obeys_bind.2 ((hf x xs bs q h).mono fun q' b hq => ?_)
    refine obeys_bind.2 ((ih _ hq).mono fun q'' bs' hq' => ?_)
    simpa using hq'

theorem keeps_each {I : Q → Prop} {f : X → Prog A β} (h : ∀ x, D.Keeps I (f x)) (xs : List X) :
    D.Keeps I (Prog.each f xs) := fun _ hq =>
  obeys_each (fun _ => I) (fun x _ q hq => h x q hq) hq

/-- The rule for raising programs: an exception skips the continuation. -/
theorem obeys_except_bind {ε : Type} {x : ExceptT ε (Prog A) α} {f : α → ExceptT ε (Prog A) β}
    {fin : Q → Except ε β → Prop} :
    D.Obeys q (x >>= f).run fin ↔ D.Obeys q x.run fun q' r => match r with
      | .ok a => D.Obeys q' (f a).run fin
      | .error e => fin q' (.error e) := by
  simp only [ExceptT.run_bind, obeys_bind]
  refine ⟨fun h => h.mono ?_, fun h => h.mono ?_⟩ <;> rintro q' (e | a) h <;> exact h

theorem obeys_except_lift {ε : Type} {p : Prog A α} {fin : Q → Except ε α → Prop} :
    D.Obeys q (ExceptT.lift p : ExceptT ε (Prog A) α).run fin ↔
      D.Obeys q p fun q' a => fin q' (.ok a) := by
  simp only [ExceptT.run_lift, ← bind_pure_comp, obeys_bind, obeys_pure]

theorem obeys_lift_bind {ε : Type} {p : Prog A α} {f : α → ExceptT ε (Prog A) β}
    {fin : Q → Except ε β → Prop} :
    D.Obeys q ((ExceptT.lift p : ExceptT ε (Prog A) α) >>= f).run fin ↔
      D.Obeys q p fun q' a => D.Obeys q' (f a).run fin := by
  rw [obeys_except_bind, obeys_except_lift]

theorem keeps_except_bind {ε : Type} {I : Q → Prop} {x : ExceptT ε (Prog A) α}
    {f : α → ExceptT ε (Prog A) β} (hx : D.Keeps I x.run) (hf : ∀ a, D.Keeps I (f a).run) :
    D.Keeps I (x >>= f).run := fun q hq =>
  obeys_except_bind.2 ((hx q hq).mono fun q' r hq' => match r with
    | .ok a => hf a q' hq'
    | .error _ => hq')

theorem keeps_except_lift {ε : Type} {I : Q → Prop} {p : Prog A α} (h : D.Keeps I p) :
    D.Keeps I (ExceptT.lift p : ExceptT ε (Prog A) α).run := fun q hq =>
  obeys_except_lift.2 (h q hq)

end Discipline

/-! ### Facts that accumulate -/

namespace Discipline

/-- What is known only grows. -/
def Accumulates [LE Q] (D : Discipline A Q) : Prop :=
  ∀ {β : Type} (q : Q) (a : A β) (b : β), q ≤ D.next q a b

variable [Preorder Q] {D : Discipline A Q} {q : Q} {p : Prog A α} {f : α → Prog A β}

/-- A program ends with at least what it started with. -/
theorem Obeys.le (hD : D.Accumulates) {fin : Q → α → Prop} (h : D.Obeys q p fin) :
    D.Obeys q p fun q' a => q ≤ q' ∧ fin q' a := by
  induction p generalizing q with
  | ret a => exact ⟨le_rfl, h⟩
  | act a k ih =>
    refine ⟨h.1, fun b hb => (ih b (h.2 b hb)).mono fun q' _ hq => ⟨?_, hq.2⟩⟩
    exact (hD q a b).trans hq.1

theorem Obeys.bind_le (hD : D.Accumulates) {fin : Q → α → Prop} {fin' : Q → β → Prop}
    (hp : D.Obeys q p fin) (hf : ∀ q' a, q ≤ q' → fin q' a → D.Obeys q' (f a) fin') :
    D.Obeys q (p >>= f) fin' :=
  obeys_bind.2 ((hp.le hD).mono fun q' a h => hf q' a h.1 h.2)

theorem Obeys.except_bind_le (hD : D.Accumulates) {ε : Type} {x : ExceptT ε (Prog A) α}
    {f : α → ExceptT ε (Prog A) β} {fin : Q → Except ε α → Prop} {fin' : Q → Except ε β → Prop}
    (hx : D.Obeys q x.run fin)
    (hf : ∀ q' a, q ≤ q' → fin q' (.ok a) → D.Obeys q' (f a).run fin')
    (he : ∀ q' e, q ≤ q' → fin q' (.error e) → fin' q' (.error e)) :
    D.Obeys q (x >>= f).run fin' :=
  obeys_except_bind.2 ((hx.le hD).mono fun q' r h => match r with
    | .ok a => hf q' a h.1 h.2
    | .error e => he q' e h.1 h.2)

/-- The loop rule: what an element needs may have been known before the loop. -/
theorem obeys_each_le (hD : D.Accumulates) {f : X → Prog A β} {xs : List X}
    (hf : ∀ x ∈ xs, ∀ q', q ≤ q' → D.Obeys q' (f x) fun _ _ => True) :
    D.Obeys q (Prog.each f xs) fun _ _ => True := by
  induction xs generalizing q with
  | nil => trivial
  | cons x xs ih =>
    refine (hf x List.mem_cons_self q le_rfl).bind_le hD fun q' _ hq _ => ih fun y hy q'' hq' => ?_
    exact hf y (List.mem_cons_of_mem _ hy) q'' (hq.trans hq')

end Discipline

/-! ### From one action to every run -/

/-- One action of one coroutine keeps the invariant, makes that coroutine's facts true and keeps
those of the others true. -/
structure Sound (M : Machine A E S C R) (g : Guard A E S C R) (D : Discipline A Q) (q₀ : C → Q)
    (s₀ : S) (Inv : S → Log A → Prop) (Know : ℕ → C → Q → S → Log A → Prop) : Prop where
  /-- The invariant holds before anything starts. -/
  init : Inv s₀ []
  /-- A call that starts knows true facts. -/
  start : ∀ {P : Pool A S C R} {c : C}, Run M g (.init s₀) P → Inv P.shared P.log →
    g.start P c → Know P.threads.length c (q₀ c) P.shared P.log
  /-- The coroutine that moves. -/
  step : ∀ {P : Pool A S C R} {i : ℕ} {c : C} {β : Type} {a : A β} {k : β → Prog A R} {e : E}
    {s : S} {b : β} {q : Q}, Run M g (.init s₀) P → P.threads[i]? = some ⟨c, .act a k⟩ →
    g.fire P i c a e → M.exec a e P.shared = some (s, b) → Inv P.shared P.log →
    Know i c q P.shared P.log → D.ok q a →
    D.ans a b ∧ Inv s (P.log ++ [(i, ⟨a, b⟩)]) ∧
      Know i c (D.next q a b) s (P.log ++ [(i, ⟨a, b⟩)])
  /-- The coroutines that wait. -/
  frame : ∀ {P : Pool A S C R} {i : ℕ} {c : C} {β : Type} {a : A β} {k : β → Prog A R} {e : E}
    {s : S} {b : β} {q : Q}, Run M g (.init s₀) P → P.threads[i]? = some ⟨c, .act a k⟩ →
    g.fire P i c a e → M.exec a e P.shared = some (s, b) → Inv P.shared P.log →
    Know i c q P.shared P.log → D.ok q a → ∀ {j : ℕ} {c' : C} {q' : Q}, j ≠ i →
    Know j c' q' P.shared P.log → Know j c' q' s (P.log ++ [(i, ⟨a, b⟩)])

/-- **Every interleaving keeps the invariant, and every coroutine knows true facts only.** -/
theorem Sound.of_run {M : Machine A E S C R} {g : Guard A E S C R} {D : Discipline A Q}
    {q₀ : C → Q} {s₀ : S} {Inv : S → Log A → Prop}
    {Know : ℕ → C → Q → S → Log A → Prop}
    (hs : Sound M g D q₀ s₀ Inv Know) {fin : C → Q → R → Prop}
    (hbody : ∀ c, D.Obeys (q₀ c) (M.body c) (fin c)) {P : Pool A S C R}
    (h : Run M g (.init s₀) P) :
    Inv P.shared P.log ∧ ∀ i th, P.threads[i]? = some th →
      ∃ q, Know i th.call q P.shared P.log ∧ D.Obeys q th.prog (fin th.call) := by
  induction h with
  | refl => exact ⟨hs.init, fun i th h => absurd h (by simp [Pool.init])⟩
  | @start Q c h hg ih =>
    refine ⟨ih.1, fun i th hth => ?_⟩
    rcases Nat.lt_trichotomy i Q.threads.length with hi | hi | hi
    · exact ih.2 i th (by simpa [Pool.spawn, List.getElem?_append_left hi] using hth)
    · subst hi
      obtain rfl : ⟨c, M.body c⟩ = th := by simpa [Pool.spawn] using hth
      exact ⟨q₀ c, hs.start h ih.1 hg, hbody c⟩
    · have hlen : (Q.spawn M c).threads.length ≤ i := by simp [Pool.spawn]; omega
      exact absurd hth (by simp [List.getElem?_eq_none hlen])
  | @step Q i c β a k e s b h ht hg he ih =>
    obtain ⟨q, hknow, hok, hnext⟩ := ih.2 i _ ht
    obtain ⟨hans, hinv, hknow'⟩ := hs.step h ht hg he ih.1 hknow hok
    refine ⟨hinv, fun j th hth => ?_⟩
    by_cases hj : j = i
    · subst hj
      have hlt : j < Q.threads.length := (List.getElem?_eq_some_iff.1 ht).1
      obtain rfl : ⟨c, k b⟩ = th := by simpa [Pool.fired, hlt] using hth
      exact ⟨_, hknow', hnext b hans⟩
    · rw [Pool.fired, List.getElem?_set_ne (Ne.symm hj)] at hth
      obtain ⟨q', hq', hob⟩ := ih.2 j th hth
      exact ⟨q', hs.frame h ht hg he ih.1 hknow hok hj hq', hob⟩

/-- A property of the shared state that every action keeps holds in every run. -/
theorem Run.invariant {M : Machine A E S C R} {g : Guard A E S C R} {I : S → Prop}
    {P Q : Pool A S C R} (h : Run M g P Q) (h₀ : I P.shared)
    (hstep : ∀ {β : Type} {a : A β} {e : E} {s s' : S} {b : β}, I s →
      M.exec a e s = some (s', b) → I s') : I Q.shared := by
  induction h with
  | refl => exact h₀
  | start c _ _ ih => exact ih
  | step _ _ _ he ih => exact hstep ih he

/-- A property of the shared state and of what has happened that every allowed action keeps holds in
every run. -/
theorem Run.guarded {M : Machine A E S C R} {g : Guard A E S C R} {I : S → Log A → Prop}
    {P Q : Pool A S C R} (h : Run M g P Q) (h₀ : I P.shared P.log)
    (hstep : ∀ {Q : Pool A S C R} {i : ℕ} {c : C} {β : Type} {a : A β} {e : E} {s : S} {b : β},
      I Q.shared Q.log → g.fire Q i c a e → M.exec a e Q.shared = some (s, b) →
      I s (Q.log ++ [(i, ⟨a, b⟩)])) : I Q.shared Q.log := by
  induction h with
  | refl => exact h₀
  | start c _ _ ih => exact ih
  | step _ _ hg he ih => exact hstep ih hg he

end Backplane.Concur
