import Mathlib.Data.List.Basic
import Mathlib.Tactic.Common

/-!
# Deferred operations

Operations that are announced in one order and carried out in another: each announcement carries the
label of who is to carry it out.

* `settle` : what an object will be once everything that is pending is carried out.
* `earlier`, `without` : what was announced before the operation of a label, and what is pending after
  it.
* `settle_carryOut` : an operation may be carried out early if it commutes with those before it.
-/

namespace Backplane.Deferred

variable {ι σ P : Type}

/-- What an object will be once everything that is pending is carried out, in order. -/
def settle (act : P → σ → σ) (pending : List (ι × P)) (o : σ) : σ :=
  pending.foldl (fun o x => act x.2 o) o

section

variable {f : P → σ → σ} {pending before rest : List (ι × P)} {n : ι} {p : P} {o : σ}

theorem settle_append : settle f (before ++ rest) o = settle f rest (settle f before o) :=
  List.foldl_append

/-- An operation that comes last is carried out last. -/
theorem settle_snoc : settle f (pending ++ [(n, p)]) o = f p (settle f pending o) := by
  rw [settle_append]
  rfl

theorem settle_comm (h : ∀ x ∈ before, ∀ o, f x.2 (f p o) = f p (f x.2 o)) :
    settle f before (f p o) = f p (settle f before o) := by
  induction before generalizing o with
  | nil => rfl
  | cons x xs ih =>
    simp only [settle, List.foldl_cons] at ih ⊢
    rw [h x List.mem_cons_self]
    exact ih fun y hy => h y (List.mem_cons_of_mem _ hy)

variable [DecidableEq ι]

/-- What was announced before the operation of a label. -/
def earlier (n : ι) (pending : List (ι × P)) : List (ι × P) := pending.takeWhile (·.1 ≠ n)

/-- What a label has pending. -/
def pendingOf (n : ι) (pending : List (ι × P)) : List (ι × P) := pending.filter (·.1 = n)

/-- What is pending without the operation of a label. -/
def without (n : ι) (pending : List (ι × P)) : List (ι × P) := pending.filter (·.1 ≠ n)

/-- A label with one operation pending. -/
theorem split_of_pendingOf (h : pendingOf n pending = [(n, p)]) :
    ∃ rest, pending = earlier n pending ++ (n, p) :: rest ∧
      without n pending = earlier n pending ++ rest := by
  induction pending with
  | nil => exact absurd h (by simp [pendingOf])
  | cons x xs ih =>
    by_cases hx : x.1 = n
    · have hrest : xs.filter (·.1 = n) = [] ∧ x = (n, p) := by
        rw [pendingOf, List.filter_cons_of_pos (by simpa using hx)] at h
        exact ⟨(List.cons.inj h).2, (List.cons.inj h).1⟩
      refine ⟨xs, by simp [earlier, hrest.2], ?_⟩
      have hne : ∀ y ∈ xs, y.1 ≠ n := by simpa [List.filter_eq_nil_iff] using hrest.1
      rw [without, List.filter_cons_of_neg (by simpa using hx), earlier,
        List.takeWhile_cons_of_neg (by simpa using hx), List.nil_append]
      exact List.filter_eq_self.2 fun y hy => by simpa using hne y hy
    · rw [pendingOf, List.filter_cons_of_neg (by simpa using hx)] at h
      obtain ⟨rest, hsplit, hwithout⟩ := ih h
      refine ⟨rest, ?_, ?_⟩
      · rw [earlier, List.takeWhile_cons_of_pos (by simpa using hx), List.cons_append]
        exact congrArg _ hsplit
      · rw [without, List.filter_cons_of_pos (by simpa using hx), earlier,
          List.takeWhile_cons_of_pos (by simpa using hx), List.cons_append]
        exact congrArg _ hwithout

/-- **An operation may be carried out early** if it commutes with those that were announced before
it: what the object will be stays the same. -/
theorem settle_carryOut (h : pendingOf n pending = [(n, p)])
    (hcomm : ∀ x ∈ earlier n pending, ∀ o, f x.2 (f p o) = f p (f x.2 o)) :
    settle f (without n pending) (f p o) = settle f pending o := by
  obtain ⟨rest, hsplit, hwithout⟩ := split_of_pendingOf h
  rw [hwithout, settle_append, settle_comm hcomm]
  conv_rhs => rw [hsplit, settle_append]
  rfl

/-- Carrying out an operation that does not touch an object changes nothing for it. -/
theorem settle_without (h : pendingOf n pending = [(n, p)]) (hid : ∀ o, f p o = o) :
    settle f (without n pending) o = settle f pending o := by
  have := settle_carryOut (f := f) (o := o) h fun x _ o => by rw [hid, hid]
  rwa [hid] at this

theorem mem_of_pendingOf (h : pendingOf n pending = [(n, p)]) : (n, p) ∈ pending :=
  (List.mem_filter.1 (h ▸ List.mem_singleton.2 rfl : (n, p) ∈ pendingOf n pending)).1

theorem eq_of_pendingOf {x : ι × P} (h : pendingOf n pending = [(n, p)]) (hx : x ∈ pending)
    (hn : x.1 = n) : x = (n, p) := by
  have hmem : x ∈ pendingOf n pending := List.mem_filter.2 ⟨hx, by simpa using hn⟩
  rwa [h, List.mem_singleton] at hmem

/-- What was announced before an operation stands before it. -/
theorem rel_of_earlier {R : ι × P → ι × P → Prop} {x : ι × P} (h : pendingOf n pending = [(n, p)])
    (hR : pending.Pairwise R) (hx : x ∈ earlier n pending) : R x (n, p) := by
  obtain ⟨rest, hsplit, -⟩ := split_of_pendingOf h
  rw [hsplit, List.pairwise_append] at hR
  exact hR.2.2 x hx _ List.mem_cons_self

theorem mem_without {x : ι × P} : x ∈ without n pending ↔ x ∈ pending ∧ x.1 ≠ n := by
  simp [without]

theorem pendingOf_append : pendingOf n (before ++ rest) = pendingOf n before ++ pendingOf n rest :=
  List.filter_append ..

/-- What others have pending stays. -/
theorem pendingOf_without {m : ι} (h : m ≠ n) : pendingOf m (without n pending) = pendingOf m pending := by
  rw [pendingOf, without, List.filter_filter]
  refine List.filter_congr fun x _ => ?_
  by_cases hx : x.1 = m <;> simp [hx, h]

theorem pendingOf_without_self : pendingOf n (without n pending) = [] := by
  rw [pendingOf, List.filter_eq_nil_iff]
  intro x hx
  simpa using (mem_without.1 hx).2

end

end Backplane.Deferred
