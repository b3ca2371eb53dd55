import Mathlib.Data.List.Nodup

/-!
# Tokens that are good once

Whoever has tokens that are good once keeps each in one place, and lets the place go on holding the
token while it asks for the next one.

* `SingleUse` : no token is in two places, none has been presented twice, and one that has been
  presented is in a place that asks.
* `SingleUse.present`, `SingleUse.issue`, `SingleUse.move`, `SingleUse.weaken` : what keeps it.
-/

namespace Backplane

variable {ι : Type} {held held' : ι → Option ℕ} {asking asking' : ι → Prop} {presented : List ℕ}
  {n n' t : ℕ} {x y : ι}

/-- The tokens in these places, of `n` that have been issued, are good for presenting, unless their
places ask. -/
structure SingleUse (held : ι → Option ℕ) (asking : ι → Prop) (presented : List ℕ) (n : ℕ) :
    Prop where
  /-- They have been issued. -/
  issued : ∀ x t, held x = some t → t < n
  /-- So have those that were presented. -/
  old : ∀ t ∈ presented, t < n
  /-- None is in two places. -/
  inj : ∀ x y t, held x = some t → held y = some t → x = y
  /-- None has been presented twice. -/
  nodup : presented.Nodup
  /-- A place with a token that was presented asks. -/
  unused : ∀ x t, held x = some t → t ∈ presented → asking x

namespace SingleUse

/-- Tokens are lost, and more are issued. -/
theorem weaken (h : SingleUse held asking presented n)
    (hheld : ∀ x t, held' x = some t → held x = some t ∧ (asking x → asking' x)) (hn : n ≤ n') :
    SingleUse held' asking' presented n' where
  issued x t ht := Nat.lt_of_lt_of_le (h.issued x t (hheld x t ht).1) hn
  old t ht := Nat.lt_of_lt_of_le (h.old t ht) hn
  inj x y t hx hy := h.inj x y t (hheld x t hx).1 (hheld y t hy).1
  nodup := h.nodup
  unused x t ht hpresented := (hheld x t ht).2 (h.unused x t (hheld x t ht).1 hpresented)

/-- A place that does not ask presents its token. -/
theorem present (h : SingleUse held asking presented n) (hx : held x = some t) (hfree : ¬ asking x)
    (hheld : ∀ y t, held' y = some t → held y = some t ∧ (asking y → asking' y))
    (hask : asking' x) :
    SingleUse held' asking' (t :: presented) n where
  issued y t' ht := h.issued y t' (hheld y t' ht).1
  old := List.forall_mem_cons.2 ⟨h.issued x t hx, h.old⟩
  inj y z t' hy hz := h.inj y z t' (hheld y t' hy).1 (hheld z t' hz).1
  nodup := List.nodup_cons.2 ⟨fun ht => hfree (h.unused x t hx ht), h.nodup⟩
  unused y t' ht hmem := by
    rcases List.mem_cons.1 hmem with rfl | hmem
    · exact h.inj y x t' (hheld y t' ht).1 hx ▸ hask
    · exact (hheld y t' ht).2 (h.unused y t' (hheld y t' ht).1 hmem)

/-- A place gets a token that has not been issued before. -/
theorem issue (h : SingleUse held asking presented n) (hx : held' x = some n)
    (hheld : ∀ y t, y ≠ x → held' y = some t → held y = some t ∧ (asking y → asking' y)) :
    SingleUse held' asking' presented (n + 1) := by
  have hcases : ∀ y t, held' y = some t → y = x ∧ t = n ∨
      held y = some t ∧ (asking y → asking' y) := by
    intro y t ht
    by_cases hy : y = x
    · exact .inl ⟨hy, Option.some.inj (ht.symm.trans (hy ▸ hx))⟩
    · exact .inr (hheld y t hy ht)
  refine ⟨fun y t ht => ?_, fun t ht => Nat.lt_succ_of_lt (h.old t ht),
    fun y z t hy hz => ?_, h.nodup, fun y t ht hmem => ?_⟩
  · rcases hcases y t ht with ⟨-, rfl⟩ | hold
    · exact Nat.lt_succ_self t
    · exact Nat.lt_succ_of_lt (h.issued y t hold.1)
  · rcases hcases y t hy with ⟨rfl, rfl⟩ | hy
    · rcases hcases z t hz with ⟨rfl, -⟩ | hz
      · rfl
      · exact absurd (h.issued z t hz.1) (Nat.lt_irrefl t)
    · rcases hcases z t hz with ⟨rfl, rfl⟩ | hz
      · exact absurd (h.issued y t hy.1) (Nat.lt_irrefl t)
      · exact h.inj y z t hy.1 hz.1
  · rcases hcases y t ht with ⟨-, rfl⟩ | hold
    · exact absurd (h.old t hmem) (Nat.lt_irrefl t)
    · exact hold.2 (h.unused y t hold.1 hmem)

/-- A token that has not been presented is put in another place, over what was there. -/
theorem move (h : SingleUse held asking presented n) (hx : held x = some t) (hfree : ¬ asking x)
    (hy : held' y = some t) (hx' : x ≠ y → held' x = none)
    (hheld : ∀ z t, z ≠ x → z ≠ y → held' z = some t → held z = some t ∧ (asking z → asking' z)) :
    SingleUse held' asking' presented n := by
  have hcases : ∀ z t', held' z = some t' → z = y ∧ t' = t ∨
      z ≠ x ∧ held z = some t' ∧ (asking z → asking' z) := by
    intro z t' ht
    by_cases hzy : z = y
    · exact .inl ⟨hzy, Option.some.inj (ht.symm.trans (hzy ▸ hy))⟩
    · have hzx : z ≠ x := fun hzx => by
        subst hzx
        exact Option.some_ne_none t' (ht.symm.trans (hx' hzy))
      exact .inr ⟨hzx, hheld z t' hzx hzy ht⟩
  refine ⟨fun z t' ht => ?_, h.old, fun z w t' hz hw => ?_, h.nodup, fun z t' ht hmem => ?_⟩
  · rcases hcases z t' ht with ⟨-, rfl⟩ | hold
    · exact h.issued x t' hx
    · exact h.issued z t' hold.2.1
  · rcases hcases z t' hz with ⟨rfl, rfl⟩ | hz
    · rcases hcases w t' hw with ⟨rfl, -⟩ | hw
      · rfl
      · exact absurd (h.inj w x t' hw.2.1 hx) hw.1
    · rcases hcases w t' hw with ⟨rfl, rfl⟩ | hw
      · exact absurd (h.inj z x t' hz.2.1 hx) hz.1
      · exact h.inj z w t' hz.2.1 hw.2.1
  · rcases hcases z t' ht with ⟨-, rfl⟩ | hold
    · exact absurd (h.unused x t' hx hmem) hfree
    · exact hold.2.2 (h.unused z t' hold.2.1 hmem)

end SingleUse

end Backplane
