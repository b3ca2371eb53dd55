import Backplane.Concur.Discipline

/-!
# What one program does

* `After p tr p'` : having performed the actions `tr`, answered as they say, `p` has become `p'`.
* `Run.after` : in every run the past of a coroutine leads from the program of its call to what is
  left of it.
* `Discipline.after`, `Run.obeys` : what a discipline has learned is read off the past.
* `Run.exists_step` : an event of a run is a step of it.
* `Solo M p s a s'` : run without interruption from the state `s`, `p` returns `a` in `s'`.
* `Solo.total` : a program whose actions never wait can be run so.
-/

namespace Backplane.Concur

variable {A : Type → Type 1} {E S C R : Type} {α β γ : Type}

/-- Having performed the actions `tr`, answered as they say, one program has become another. -/
inductive After : Prog A α → List (Event A) → Prog A α → Prop
  | nil (p : Prog A α) : After p [] p
  | cons {β : Type} {a : A β} {k : β → Prog A α} {b : β} {tr : List (Event A)} {p' : Prog A α}
      (h : After (k b) tr p') : After (.act a k) (⟨a, b⟩ :: tr) p'

namespace After

variable {p p' : Prog A α} {tr tr' : List (Event A)} {f : α → Prog A β}

theorem snoc {a : A γ} {k : γ → Prog A α} {b : γ} (h : After p tr (.act a k)) :
    After p (tr ++ [⟨a, b⟩]) (k b) := by
  generalize hq : Prog.act a k = q at h
  induction h with
  | nil => subst hq; exact .cons (.nil _)
  | cons _ ih => exact .cons (ih hq)

theorem only {P : ∀ {β : Type}, A β → Prop} (h : After p tr p') (hp : p.Only P) :
    (∀ x ∈ tr, P x.act) ∧ p'.Only P := by
  induction h with
  | nil => exact ⟨by simp, hp⟩
  | @cons _ a k b _ _ _ ih =>
    obtain ⟨htr, hp'⟩ := ih (hp.2 b)
    refine ⟨fun x hx => ?_, hp'⟩
    rcases List.mem_cons.1 hx with rfl | hx
    · exact hp.1
    · exact htr x hx

/-- A sequence that has returned first ran its first part to the end. -/
theorem bind_ret {b : β} (h : After (p >>= f) tr (.ret b)) :
    ∃ tr₁ a tr₂, tr = tr₁ ++ tr₂ ∧ After p tr₁ (.ret a) ∧ After (f a) tr₂ (.ret b) := by
  induction p generalizing tr with
  | ret a => exact ⟨[], a, tr, rfl, .nil _, h⟩
  | act a k ih =>
    cases h with
    | cons h =>
      obtain ⟨tr₁, x, tr₂, rfl, h₁, h₂⟩ := ih _ h
      exact ⟨_ :: tr₁, x, tr₂, rfl, .cons h₁, h₂⟩

/-- A sequence that begins with an action has performed that action. -/
theorem perform_bind {a : A γ} {f : γ → Prog A β} {b : β}
    (h : After (Prog.perform a >>= f) tr (.ret b)) :
    ∃ x tr', tr = ⟨a, x⟩ :: tr' ∧ After (f x) tr' (.ret b) := by
  cases h with
  | cons h => exact ⟨_, _, rfl, h⟩

theorem perform_iff {a : A β} {b : β} : After (Prog.perform a) tr (.ret b) ↔ tr = [⟨a, b⟩] := by
  constructor
  · rintro (_ | ⟨⟨⟩⟩)
    rfl
  · rintro rfl
    exact .cons (.nil _)

theorem ret_iff {a b : β} : After (A := A) (.ret a) tr (.ret b) ↔ tr = [] ∧ a = b := by
  constructor
  · rintro ⟨⟩
    exact ⟨rfl, rfl⟩
  · rintro ⟨rfl, rfl⟩
    exact .nil _

/-- Where a program has returned, and with what, is determined by what it performed. -/
theorem unique {a b : α} {l l' : List (Event A)} (h : After p tr (.ret a))
    (h' : After p tr' (.ret b)) (he : tr ++ l = tr' ++ l') : a = b ∧ tr = tr' := by
  induction p generalizing tr tr' with
  | ret x => cases h; cases h'; exact ⟨rfl, rfl⟩
  | act x k ih =>
    cases h with
    | cons h =>
      cases h' with
      | cons h' =>
        simp only [List.cons_append, List.cons.injEq, Event.mk.injEq, heq_eq_eq, true_and] at he
        obtain ⟨rfl, he⟩ := he
        obtain ⟨rfl, rfl⟩ := ih _ h h' he
        exact ⟨rfl, rfl⟩

/-- A raising sequence that has succeeded first ran its first part to a success. -/
theorem ok_bind {ε : Type} {x : ExceptT ε (Prog A) α} {f : α → ExceptT ε (Prog A) β} {b : β}
    (h : After (x >>= f).run tr (.ret (.ok b))) :
    ∃ tr₁ a tr₂, tr = tr₁ ++ tr₂ ∧ After x.run tr₁ (.ret (.ok a)) ∧
      After (f a).run tr₂ (.ret (.ok b)) := by
  rw [ExceptT.run_bind] at h
  obtain ⟨tr₁, r, tr₂, rfl, h₁, h₂⟩ := bind_ret h
  cases r with
  | ok a => exact ⟨tr₁, a, tr₂, rfl, h₁, h₂⟩
  | error e => exact absurd (ret_iff.1 h₂).2 (by simp)

theorem ok_pure {ε : Type} {a b : α}
    (h : After (pure a : ExceptT ε (Prog A) α).run tr (.ret (.ok b))) : tr = [] ∧ a = b := by
  obtain ⟨htr, hab⟩ := ret_iff.1 h
  exact ⟨htr, Except.ok.inj hab⟩

theorem not_ok_throw {ε : Type} {e : ε} {b : α} :
    ¬ After (throw e : ExceptT ε (Prog A) α).run tr (.ret (.ok b)) :=
  fun h => absurd (ret_iff.1 h).2 (by simp)

/-- A program that cannot raise, run in one that can. -/
theorem ok_lift {ε : Type} {b : α}
    (h : After (ExceptT.lift p : ExceptT ε (Prog A) α).run tr (.ret (.ok b))) :
    After p tr (.ret b) := by
  rw [ExceptT.run_lift, ← bind_pure_comp] at h
  obtain ⟨tr₁, a, tr₂, rfl, h₁, h₂⟩ := bind_ret h
  obtain ⟨rfl, hab⟩ := ret_iff.1 h₂
  obtain rfl := Except.ok.inj hab
  rwa [List.append_nil]

end After

namespace Pool

variable {P : Pool A S C R} {i j : ℕ} {c : C} {a : A β} {k : β → Prog A R} {s : S} {b : β}

@[simp] theorem past_fired_self : (P.fired i c a k s b).past i = P.past i ++ [⟨a, b⟩] :=
  Log.past_append_self

theorem past_fired_ne (h : j ≠ i) : (P.fired i c a k s b).past j = P.past j :=
  Log.past_append_ne h

@[simp] theorem past_spawn (M : Machine A E S C R) : (P.spawn M c).past i = P.past i := rfl

end Pool

namespace Run

variable {M : Machine A E S C R} {g : Guard A E S C R} {s₀ : S} {P : Pool A S C R}

/-- **The past of a coroutine leads from the program of its call to what is left of it.** -/
theorem after (h : Run M g (.init s₀) P) {i : ℕ} {th : Thread A C R}
    (hth : P.threads[i]? = some th) : After (M.body th.call) (P.past i) th.prog := by
  induction h generalizing i th with
  | refl => exact absurd hth (by simp [Pool.init])
  | @start Q c h _ ih =>
    rw [Pool.past_spawn]
    rcases Nat.lt_or_ge i Q.threads.length with hi | hi
    · exact ih (by simpa [Pool.spawn, List.getElem?_append_left hi] using hth)
    · rw [Pool.spawn, List.getElem?_append_right hi, List.getElem?_singleton] at hth
      split_ifs at hth with h0
      obtain rfl := Option.some.inj hth
      rw [h.past_eq_nil hi]
      exact .nil _
  | @step Q j c β a k e s b h ht _ _ ih =>
    by_cases hj : i = j
    · subst hj
      have hlt : i < Q.threads.length := (List.getElem?_eq_some_iff.1 ht).1
      obtain rfl : ⟨c, k b⟩ = th := by simpa [Pool.fired, hlt] using hth
      rw [Pool.past_fired_self]
      exact (ih ht).snoc
    · rw [Pool.past_fired_ne hj]
      rw [Pool.fired, List.getElem?_set_ne (Ne.symm hj)] at hth
      exact ih hth

end Run

/-! ### Disciplines over the past -/

variable {Q : Type}

/-- What is known after these events. -/
def Discipline.after (D : Discipline A Q) (q : Q) (tr : List (Event A)) : Q :=
  tr.foldl (fun q x => D.next q x.act x.ans) q

/-- What is left of a program obeys what is known by then. -/
theorem After.obeys {D : Discipline A Q} {q : Q} {p p' : Prog A α} {tr : List (Event A)}
    {fin : Q → α → Prop} (h : After p tr p') (hp : D.Obeys q p fin)
    (hans : ∀ x ∈ tr, D.ans x.act x.ans) : D.Obeys (D.after q tr) p' fin := by
  induction h generalizing q with
  | nil => exact hp
  | @cons _ a k b tr p' _ ih =>
    have hb : D.ans a b := hans ⟨a, b⟩ List.mem_cons_self
    exact ih (hp.2 b hb) fun x hx => hans x (List.mem_cons_of_mem _ hx)

/-- A past has been lived through in parts. -/
theorem After.split {p p' : Prog A α} {tr₁ tr₂ : List (Event A)} (h : After p (tr₁ ++ tr₂) p') :
    ∃ q, After p tr₁ q ∧ After q tr₂ p' := by
  induction tr₁ generalizing p with
  | nil => exact ⟨p, .nil _, h⟩
  | cons x tr₁ ih =>
    obtain _ | h := h
    obtain ⟨q, h₁, h₂⟩ := ih h
    exact ⟨q, .cons h₁, h₂⟩

/-- What has been performed was permitted. -/
theorem After.permitted {D : Discipline A Q} {q : Q} {p p' : Prog A α} {tr₁ tr₂ : List (Event A)}
    {x : Event A} {fin : Q → α → Prop} (h : After p (tr₁ ++ x :: tr₂) p') (hp : D.Obeys q p fin)
    (hans : ∀ x ∈ tr₁, D.ans x.act x.ans) : D.ok (D.after q tr₁) x.act := by
  obtain ⟨r, h₁, h₂⟩ := h.split
  have hr := h₁.obeys hp hans
  obtain _ | _ := h₂
  exact hr.1

/-- What permitted actions keep holds of what is known at any time. -/
theorem After.known {D : Discipline A Q} {q : Q} {p p' : Prog A α} {tr : List (Event A)}
    {fin : Q → α → Prop} {I : Q → Prop} (h : After p tr p') (hp : D.Obeys q p fin)
    (hans : ∀ x ∈ tr, D.ans x.act x.ans) (hq : I q)
    (hstep : ∀ {β : Type} (q : Q) (a : A β) (b : β), I q → D.ok q a → I (D.next q a b)) :
    I (D.after q tr) := by
  induction h generalizing q with
  | nil => exact hq
  | @cons _ a k b tr p' _ ih =>
    have hb : D.ans a b := hans ⟨a, b⟩ List.mem_cons_self
    exact ih (hp.2 b hb) (fun x hx => hans x (List.mem_cons_of_mem _ hx)) (hstep q a b hq hp.1)

namespace Run

variable {M : Machine A E S C R} {g : Guard A E S C R} {s₀ : S} {P T : Pool A S C R}

/-- **What a discipline has learned is read off the past.** -/
theorem obeys {D : Discipline A Q} {q₀ : C → Q} {fin : C → Q → R → Prop}
    (h : Run M g (.init s₀) P) (hbody : ∀ c, D.Obeys (q₀ c) (M.body c) (fin c))
    (hans : ∀ {β : Type} (a : A β) (b : β), D.ans a b) {i : ℕ} {th : Thread A C R}
    (hth : P.threads[i]? = some th) :
    D.Obeys (D.after (q₀ th.call) (P.past i)) th.prog (fin th.call) :=
  (h.after hth).obeys (hbody th.call) fun x _ => hans x.act x.ans

/-- A coroutine goes on with its call. -/
theorem thread {i : ℕ} {th : Thread A C R} (h : Run M g P T) (hth : P.threads[i]? = some th) :
    ∃ p, T.threads[i]? = some ⟨th.call, p⟩ := by
  induction h with
  | refl => exact ⟨th.prog, hth⟩
  | start c _ _ ih =>
    obtain ⟨p, hp⟩ := ih
    refine ⟨p, ?_⟩
    rw [Pool.spawn, List.getElem?_append_left (List.getElem?_eq_some_iff.1 hp).1, hp]
  | @step Q j c β a k e s b _ ht _ _ ih =>
    obtain ⟨p, hp⟩ := ih
    by_cases hj : i = j
    · subst hj
      obtain rfl : c = th.call := congrArg Thread.call (Option.some.inj (ht.symm.trans hp))
      exact ⟨k b, by simp [Pool.fired, (List.getElem?_eq_some_iff.1 ht).1]⟩
    · exact ⟨p, by rw [Pool.fired, List.getElem?_set_ne (Ne.symm hj), hp]⟩

/-- Where nothing has been performed the shared state is as it was. -/
theorem shared_eq (h : Run M g P T) (hlog : T.log = P.log) : T.shared = P.shared := by
  induction h with
  | refl => rfl
  | start c _ _ ih => exact ih hlog
  | step hrun _ _ _ _ =>
    obtain ⟨l, hl⟩ := hrun.log_append
    rw [Pool.fired, hl, List.append_assoc] at hlog
    exact absurd (List.append_right_eq_self.1 hlog) (by simp)

/-- **An event of a run is a step of it.** -/
theorem exists_step {l₁ l₂ : Log A} {i : ℕ} {x : Event A} (h : Run M g P T)
    (hlog : T.log = l₁ ++ (i, x) :: l₂) (hP : P.log <+: l₁) :
    ∃ (Q : Pool A S C R) (c : C) (β : Type) (a : A β) (k : β → Prog A R) (e : E) (s : S) (b : β),
      Run M g P Q ∧ Q.log = l₁ ∧ Q.threads[i]? = some ⟨c, .act a k⟩ ∧ g.fire Q i c a e ∧
        M.exec a e Q.shared = some (s, b) ∧ x = ⟨a, b⟩ ∧ Run M g (Q.fired i c a k s b) T := by
  induction h generalizing l₂ with
  | refl =>
    have hlen := hP.length_le
    rw [hlog, List.length_append, List.length_cons] at hlen
    omega
  | start c _ hg ih =>
    obtain ⟨Q, c', β, a, k, e, s, b, hrun, hl, ht, hf, he, hx, hrest⟩ := ih hlog
    exact ⟨Q, c', β, a, k, e, s, b, hrun, hl, ht, hf, he, hx, hrest.start c hg⟩
  | @step Q j c β a k e s b hrun ht hg he ih =>
    rw [Pool.fired] at hlog
    rcases List.eq_nil_or_concat' l₂ with rfl | ⟨l₂, z, rfl⟩
    · obtain ⟨hl, hx⟩ := List.append_inj' hlog rfl
      obtain ⟨rfl, rfl⟩ := Prod.mk.inj (List.singleton_inj.1 hx)
      exact ⟨Q, c, β, a, k, e, s, b, hrun, hl, ht, hg, he, rfl, .refl _⟩
    · rw [← List.cons_append, ← List.append_assoc] at hlog
      obtain ⟨Q', c', β', a', k', e', s', b', hrun', hl, ht', hf, he', hx, hrest⟩ :=
        ih (List.append_inj' hlog rfl).1
      exact ⟨Q', c', β', a', k', e', s', b', hrun', hl, ht', hf, he', hx, hrest.step ht hg he⟩

end Run

/-- Each step of coroutine `i` on the way to `T` has changed the shared state in this way only. -/
def StepsKeep (M : Machine A E S C R) (g : Guard A E S C R) (P T : Pool A S C R) (i : ℕ)
    (K : S → S → Prop) : Prop :=
  ∀ ⦃Q : Pool A S C R⦄ ⦃c : C⦄ ⦃β : Type⦄ ⦃a : A β⦄ ⦃k : β → Prog A R⦄ ⦃e : E⦄ ⦃s : S⦄ ⦃b : β⦄,
    Run M g P Q → Q.threads[i]? = some ⟨c, .act a k⟩ → M.exec a e Q.shared = some (s, b) →
    Run M g (Q.fired i c a k s b) T → K Q.shared s

/-- What holds of all that a coroutine has performed holds of each of its steps. -/
theorem StepsKeep.of_past {M : Machine A E S C R} {g : Guard A E S C R} {P T : Pool A S C R} {i : ℕ}
    {K : S → S → Prop} {p : Event A → Prop} (hp : ∀ x ∈ T.past i, p x)
    (hK : ∀ {β : Type} {a : A β} {e : E} {s s' : S} {b : β}, M.exec a e s = some (s', b) →
      p ⟨a, b⟩ → K s s') : StepsKeep M g P T i K := by
  intro Q c β a k e s b _ _ he hrest
  obtain ⟨l, hl⟩ := hrest.log_append
  refine hK he (hp _ (Log.mem_past.2 ?_))
  rw [hl, Pool.fired]
  simp

/-! ### A program on its own -/

/-- Run without interruption from one state, the program returns in the other. -/
inductive Solo (M : Machine A E S C R) : Prog A α → S → α → S → Prop
  | ret (a : α) (s : S) : Solo M (.ret a) s a s
  | act {β : Type} {a : A β} {k : β → Prog A α} {e : E} {s s₁ s' : S} {b : β} {x : α}
      (he : M.exec a e s = some (s₁, b)) (h : Solo M (k b) s₁ x s') : Solo M (.act a k) s x s'

namespace Solo

variable {M : Machine A E S C R} {p : Prog A α} {f : α → Prog A β} {s s' : S}

theorem bind_iff {y : β} :
    Solo M (p >>= f) s y s' ↔ ∃ x s₁, Solo M p s x s₁ ∧ Solo M (f x) s₁ y s' := by
  induction p generalizing s with
  | ret a =>
    constructor
    · exact fun h => ⟨a, s, .ret a s, h⟩
    · rintro ⟨_, _, ⟨⟩, h⟩
      exact h
  | act a k ih =>
    constructor
    · rintro (_ | ⟨he, h⟩)
      obtain ⟨x, s₁, h₁, h₂⟩ := (ih _).1 h
      exact ⟨x, s₁, .act he h₁, h₂⟩
    · rintro ⟨x, s₁, _ | ⟨he, h₁⟩, h₂⟩
      exact .act he ((ih _).2 ⟨x, s₁, h₁, h₂⟩)

theorem perform_iff {a : A α} {x : α} :
    Solo M (.perform a) s x s' ↔ ∃ e, M.exec a e s = some (s', x) := by
  constructor
  · rintro (_ | ⟨he, ⟨⟩⟩)
    exact ⟨_, he⟩
  · rintro ⟨e, he⟩
    exact .act he (.ret _ _)

/-- A program whose actions never wait can be run on its own. -/
theorem total [Inhabited E] (hp : p.Only fun a => ∀ e s, (M.exec a e s).isSome) (s : S) :
    ∃ x s', Solo M p s x s' := by
  induction p generalizing s with
  | ret a => exact ⟨a, s, .ret a s⟩
  | act a k ih =>
    obtain ⟨⟨s₁, b⟩, he⟩ := Option.isSome_iff_exists.1 (hp.1 default s)
    obtain ⟨x, s', h⟩ := ih b (hp.2 b) s₁
    exact ⟨x, s', .act he h⟩

end Solo

end Backplane.Concur
