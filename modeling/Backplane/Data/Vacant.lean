import Mathlib.Data.Nat.Nth

/-!
# The numbers that are not used

Numbers are given out, the lowest first, that do not stand in a list.

* `Vacant used n` : the list does not have the number.
* `exists_vacant` : a search from a number on that goes past as many as the list has meets one.
* `nth_vacant_le` : the `i`-th one is not far.
-/

namespace Backplane

variable {used : List ℤ} {fuel next n : ℕ}

/-- The list does not have the number. -/
def Vacant (used : List ℤ) (n : ℕ) : Prop := (n : ℤ) ∉ used

instance (used : List ℤ) : DecidablePred (Vacant used) :=
  fun n => inferInstanceAs (Decidable ((n : ℤ) ∉ used))

theorem natCast_injective : Function.Injective ((↑) : ℕ → ℤ) := fun _ _ h => Int.ofNat.inj h

/-- There are always more. -/
theorem infinite_vacant (used : List ℤ) : (Set.ofPred (Vacant used)).Infinite := by
  have hfinite := (List.finite_toSet used).preimage natCast_injective.injOn
  exact hfinite.infinite_compl

theorem vacant_nth (used : List ℤ) (i : ℕ) : Vacant used (Nat.nth (Vacant used) i) :=
  Nat.nth_mem_of_infinite (infinite_vacant used) i

theorem nth_vacant_strictMono (used : List ℤ) : StrictMono (Nat.nth (Vacant used)) :=
  Nat.nth_strictMono (infinite_vacant used)

/-- So many numbers below a number are used at most as there are. -/
theorem count_used_le (used : List ℤ) (n : ℕ) :
    Nat.count (fun m => ¬ Vacant used m) n ≤ used.length := by
  rw [Nat.count_eq_card_filter_range]
  calc ((Finset.range n).filter fun m => ¬ Vacant used m).card
      = (((Finset.range n).filter fun m => ¬ Vacant used m).image ((↑) : ℕ → ℤ)).card :=
        (Finset.card_image_of_injective _ natCast_injective).symm
    _ ≤ used.toFinset.card := by
        refine Finset.card_le_card fun x hx => ?_
        obtain ⟨m, hm, rfl⟩ := Finset.mem_image.1 hx
        exact List.mem_toFinset.2 (not_not.1 (Finset.mem_filter.1 hm).2)
    _ ≤ used.length := used.toFinset_card_le

theorem count_add_count_not (p : ℕ → Prop) [DecidablePred p] (n : ℕ) :
    Nat.count p n + Nat.count (fun m => ¬ p m) n = n := by
  induction n with
  | zero => rfl
  | succ n ih =>
    rw [Nat.count_succ, Nat.count_succ]
    split_ifs
    · omega
    · omega

theorem exists_vacant (used : List ℤ) (next : ℕ) :
    ∃ n, next ≤ n ∧ n ≤ next + used.length ∧ Vacant used n := by
  by_contra hall
  have hsub : (Finset.Icc next (next + used.length)).image ((↑) : ℕ → ℤ) ⊆ used.toFinset := by
    intro x hx
    obtain ⟨n, hn, rfl⟩ := Finset.mem_image.1 hx
    obtain ⟨hlo, hhi⟩ := Finset.mem_Icc.1 hn
    refine List.mem_toFinset.2 ?_
    by_contra hnot
    exact hall ⟨n, hlo, hhi, hnot⟩
  have hcard := Finset.card_le_card hsub
  rw [Finset.card_image_of_injective _ natCast_injective, Nat.card_Icc] at hcard
  have hle := used.toFinset_card_le
  omega

/-- **The `i`-th number that is not used** is not far. -/
theorem nth_vacant_le (used : List ℤ) (i : ℕ) : Nat.nth (Vacant used) i ≤ i + used.length := by
  have hcount := Nat.count_nth_of_infinite (infinite_vacant used) i
  have hused := count_used_le used (Nat.nth (Vacant used) i)
  have hsum := count_add_count_not (Vacant used) (Nat.nth (Vacant used) i)
  omega

end Backplane
