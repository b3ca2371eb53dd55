import Mathlib.Logic.Relation
import Mathlib.Data.List.Basic
import Mathlib.Data.Option.Basic

/-!
# Forests given by parent pointers

`par : K → Option K` sends a node to its parent; a node without a parent is a root (and so is a
node that does not exist).

* `climb par k d` : the `k`-th ancestor of `d`.
* `Below par a d` : `a` is a proper ancestor of `d`.
* `Depth par d n` : there are `n` nodes from `d` up to its root, `d` included.
* `levels children n fr` : the nodes at most `n` generations below the frontier `fr`, as a
  breadth-first search that stops after `n` rounds lists them (`mem_levels`).
* `mem_levels_children` : the search misses nothing in a forest that is shallow enough.
* `below_graft` : what a new leaf adds to the ancestor relation.
-/

namespace Backplane.Forest

variable {K : Type}

/-- The `k`-th ancestor. -/
def climb (par : K → Option K) : ℕ → K → Option K
  | 0, d => some d
  | k + 1, d => (climb par k d).bind par

/-- `a` is a proper ancestor of `d`. -/
def Below (par : K → Option K) : K → K → Prop := Relation.TransGen fun a d => par d = some a

/-- There are `n` nodes from the given one up to its root. -/
inductive Depth (par : K → Option K) : K → ℕ → Prop
  | root {d : K} (h : par d = none) : Depth par d 1
  | child {d a : K} {n : ℕ} (h : par d = some a) (ha : Depth par a n) : Depth par d (n + 1)

/-- The nodes at most `n` generations below the frontier, the frontier included. -/
def levels (children : K → List K) : ℕ → List K → List K
  | 0, fr => fr
  | n + 1, fr => fr ++ levels children n (fr.flatMap children)

section

variable {par : K → Option K} {a b d x : K} {k m n : ℕ}

theorem climb_succ (par : K → Option K) (k : ℕ) (d : K) :
    climb par (k + 1) d = (climb par k d).bind par := rfl

theorem Below.single (h : par d = some a) : Below par a d := Relation.TransGen.single h

theorem Below.trans (h : Below par a b) (h' : Below par b d) : Below par a d :=
  Relation.TransGen.trans h h'

theorem Below.cases_tail (h : Below par a d) :
    ∃ p, par d = some p ∧ (a = p ∨ Below par a p) := by
  cases h with
  | single h => exact ⟨a, h, .inl rfl⟩
  | tail h h' => exact ⟨_, h', .inr h⟩

theorem below_iff_climb : Below par a d ↔ ∃ k, climb par (k + 1) d = some a := by
  constructor
  · intro h
    induction h using Relation.TransGen.head_induction_on with
    | single h => exact ⟨0, h⟩
    | head h _ ih =>
      obtain ⟨k, hk⟩ := ih
      exact ⟨k + 1, by rw [climb_succ, hk]; exact h⟩
  · rintro ⟨k, hk⟩
    induction k generalizing a with
    | zero => exact Below.single hk
    | succ k ih =>
      obtain ⟨b, hb, hab⟩ := Option.bind_eq_some_iff.1 hk
      exact (Below.single hab).trans (ih hb)

theorem Depth.unique (h : Depth par d m) (h' : Depth par d n) : m = n := by
  induction h generalizing n with
  | root h =>
    cases h' with
    | root => rfl
    | child h₁ _ => rw [h] at h₁; exact absurd h₁ (by simp)
  | child h _ ih =>
    cases h' with
    | root h₁ => rw [h] at h₁; exact absurd h₁ (by simp)
    | child h₁ ha₁ =>
      rw [h, Option.some.injEq] at h₁
      subst h₁
      rw [ih ha₁]

theorem Depth.pos (h : Depth par d n) : 0 < n := by
  cases h <;> omega

/-- An ancestor is less deep. -/
theorem Depth.climb (h : Depth par d n) (hk : climb par k d = some x) :
    ∃ m, Depth par x m ∧ m + k = n := by
  induction k generalizing x with
  | zero =>
    obtain rfl : d = x := Option.some.inj hk
    exact ⟨n, h, rfl⟩
  | succ k ih =>
    obtain ⟨y, hy, hx⟩ := Option.bind_eq_some_iff.1 hk
    obtain ⟨m, hm, hmk⟩ := ih hy
    cases hm with
    | root h => rw [h] at hx; exact absurd hx (by simp)
    | child h ha =>
      rw [h, Option.some.injEq] at hx
      exact ⟨_, hx ▸ ha, by omega⟩

theorem Depth.not_below_self (h : Depth par d n) : ¬ Below par d d := by
  intro hb
  obtain ⟨k, hk⟩ := below_iff_climb.1 hb
  obtain ⟨m, hm, hmk⟩ := h.climb hk
  have := hm.unique h
  omega

variable {children : K → List K}

/-- The breadth-first search lists the nodes that reach the frontier in at most `n` steps. -/
theorem mem_levels (hc : ∀ a d, d ∈ children a ↔ par d = some a) {fr : List K} :
    d ∈ levels children n fr ↔ ∃ k ≤ n, ∃ x ∈ fr, climb par k d = some x := by
  induction n generalizing fr with
  | zero =>
    constructor
    · exact fun h => ⟨0, Nat.le_refl 0, d, h, rfl⟩
    · rintro ⟨k, hk, x, hx, hcl⟩
      obtain rfl : k = 0 := Nat.le_zero.1 hk
      obtain rfl : d = x := Option.some.inj hcl
      exact hx
  | succ n ih =>
    rw [levels, List.mem_append, ih]
    constructor
    · rintro (h | ⟨k, hk, y, hy, hcl⟩)
      · exact ⟨0, Nat.zero_le _, d, h, rfl⟩
      · obtain ⟨x, hx, hyx⟩ := List.mem_flatMap.1 hy
        exact ⟨k + 1, Nat.succ_le_succ hk, x, hx, by rw [climb_succ, hcl]; exact (hc x y).1 hyx⟩
    · rintro ⟨k, hk, x, hx, hcl⟩
      cases k with
      | zero =>
        obtain rfl : d = x := Option.some.inj hcl
        exact .inl hx
      | succ k =>
        obtain ⟨y, hy, hyx⟩ := Option.bind_eq_some_iff.1 hcl
        exact .inr ⟨k, Nat.le_of_succ_le_succ hk, y,
          List.mem_flatMap.2 ⟨x, hx, (hc x y).2 hyx⟩, hy⟩

theorem below_of_mem_levels (hc : ∀ a d, d ∈ children a ↔ par d = some a)
    (h : d ∈ levels children n (children a)) : Below par a d := by
  obtain ⟨k, -, x, hx, hcl⟩ := (mem_levels hc).1 h
  exact below_iff_climb.2 ⟨k, by rw [climb_succ, hcl]; exact (hc a x).1 hx⟩

/-- **A search of `n` rounds finds every descendant in a forest at most `n + 2` deep.** -/
theorem mem_levels_children (hc : ∀ a d, d ∈ children a ↔ par d = some a)
    (hd : Depth par d m) (hm : m ≤ n + 2) :
    d ∈ levels children n (children a) ↔ Below par a d := by
  refine ⟨below_of_mem_levels hc, fun h => ?_⟩
  obtain ⟨k, hk⟩ := below_iff_climb.1 h
  obtain ⟨m', hm', hmk⟩ := hd.climb hk
  obtain ⟨x, hx, hxa⟩ := Option.bind_eq_some_iff.1 hk
  have := hm'.pos
  exact (mem_levels hc).2 ⟨k, by omega, x, (hc a x).2 hxa, hx⟩

end

/-! ### Grafting a leaf -/

section

variable {par par' : K → Option K} {a c d : K} {n : ℕ}

theorem Below.mono (hpar : ∀ x p, par x = some p → par' x = some p) (h : Below par a d) :
    Below par' a d :=
  Relation.TransGen.mono (fun _ _ hxy => hpar _ _ hxy) _ _ h

/-- **Grafting the leaf `c` adds to the ancestor relation just the chain above `c`.** -/
theorem below_graft {p : Option K} (hc : par' c = p) (hne : ∀ x, x ≠ c → par' x = par x)
    (hleaf : ∀ x, par x ≠ some c) (hself : p ≠ some c) :
    Below par' a d ↔
      (d ≠ c ∧ Below par a d) ∨ (d = c ∧ ∃ q, p = some q ∧ (a = q ∨ Below par a q)) := by
  -- nothing hangs below `c`, so a chain that ends elsewhere never used the new edge
  have key : ∀ {d}, d ≠ c → (Below par' a d ↔ Below par a d) := by
    intro d hd
    constructor
    · intro h
      induction h with
      | single h => exact Below.single ((hne _ hd) ▸ h)
      | @tail y z _ h ih =>
        have hyz : par z = some y := (hne _ hd) ▸ h
        exact (ih fun he => hleaf z (he ▸ hyz)).trans (Below.single hyz)
    · intro h
      induction h with
      | single h => exact Below.single ((hne _ hd).symm ▸ h)
      | @tail y z _ h ih =>
        have hyz : par' z = some y := (hne _ hd).symm ▸ h
        exact (ih fun he => hleaf z (he ▸ h)).trans (Below.single hyz)
  by_cases hd : d = c
  · subst hd
    constructor
    · intro h
      obtain ⟨q, hq, hor⟩ := h.cases_tail
      rw [hc] at hq
      have hqd : q ≠ d := fun he => hself (he ▸ hq)
      exact .inr ⟨rfl, q, hq, hor.imp_right (key hqd).1⟩
    · rintro (⟨h, -⟩ | ⟨-, q, hq, hor⟩)
      · exact absurd rfl h
      · have hqd : q ≠ d := fun he => hself (he ▸ hq)
        have hdq : par' d = some q := hc.trans hq
        rcases hor with rfl | h
        · exact Below.single hdq
        · exact ((key hqd).2 h).trans (Below.single hdq)
  · rw [key hd]
    constructor
    · exact fun h => .inl ⟨hd, h⟩
    · rintro (⟨-, h⟩ | ⟨h, -⟩)
      · exact h
      · exact absurd h hd

end

end Backplane.Forest
