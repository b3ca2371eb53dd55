import Mathlib.Computability.Language

/-!
# Grammars as languages

What a regular expression matches, written as a language: `l + m` is `l|m`, `l * m` is `lm`, and
`l∗` is `l*`.

* `lit c`, `letter p` : this letter; one letter of a class.
* `upTo l n`, `plus l` : `l{0,n}` and `l+`.
* `mem_letter_kstar`, `mem_letter_upTo` : words over a class.
* `Avoids c l` : no word of the language has this letter; `Without c l m` : the words of `l` that do
  not have it are in `m`; a rule for each operation.
* `mem_mul_optional_iff` : what an optional last letter adds.
-/

namespace Backplane.Grammar

open Computability

variable {α : Type} {l m : Language α} {c : α} {p : α → Bool} {w : List α} {n : ℕ}

/-- This letter. -/
def lit (c : α) : Language α := {w | w = [c]}

/-- One letter of a class. -/
def letter (p : α → Bool) : Language α := {w | ∃ c, p c = true ∧ w = [c]}

/-- At most so many words of the language. -/
def upTo (l : Language α) : ℕ → Language α
  | 0 => 1
  | n + 1 => 1 + l * upTo l n

/-- Some words of the language. -/
def plus (l : Language α) : Language α := l * l∗

theorem mem_lit : w ∈ lit c ↔ w = [c] := Iff.rfl

theorem mem_lit_mul : w ∈ lit c * l ↔ ∃ v ∈ l, w = c :: v := by
  rw [Language.mem_mul]
  constructor
  · rintro ⟨_, rfl, v, hv, rfl⟩
    exact ⟨v, hv, rfl⟩
  · rintro ⟨v, hv, rfl⟩
    exact ⟨[c], rfl, v, hv, rfl⟩

theorem mem_mul_lit : w ∈ l * lit c ↔ ∃ v ∈ l, w = v ++ [c] := by
  rw [Language.mem_mul]
  constructor
  · rintro ⟨v, hv, _, rfl, rfl⟩
    exact ⟨v, hv, rfl⟩
  · rintro ⟨v, hv, rfl⟩
    exact ⟨v, hv, [c], rfl, rfl⟩

theorem mem_letter_mul : w ∈ letter p * l ↔ ∃ c v, p c = true ∧ v ∈ l ∧ w = c :: v := by
  rw [Language.mem_mul]
  constructor
  · rintro ⟨_, ⟨c, hc, rfl⟩, v, hv, rfl⟩
    exact ⟨c, v, hc, hv, rfl⟩
  · rintro ⟨c, v, hc, hv, rfl⟩
    exact ⟨[c], ⟨c, hc, rfl⟩, v, hv, rfl⟩

/-- A word over the class. -/
theorem mem_letter_kstar : w ∈ (letter p)∗ ↔ ∀ c ∈ w, p c = true := by
  rw [Language.mem_kstar]
  constructor
  · rintro ⟨L, rfl, hL⟩ c hc
    obtain ⟨v, hv, hcv⟩ := List.mem_flatten.1 hc
    obtain ⟨d, hd, rfl⟩ := hL v hv
    exact List.mem_singleton.1 hcv ▸ hd
  · intro h
    refine ⟨w.map fun c => [c], ?_, fun v hv => ?_⟩
    · induction w with
      | nil => rfl
      | cons c w ih =>
        rw [List.map_cons, List.flatten_cons, ← ih fun d hd => h d (List.mem_cons_of_mem c hd)]
        rfl
    · obtain ⟨c, hc, rfl⟩ := List.mem_map.1 hv
      exact ⟨c, h c hc, rfl⟩

theorem mem_letter_plus : w ∈ plus (letter p) ↔ w ≠ [] ∧ ∀ c ∈ w, p c = true := by
  rw [plus, mem_letter_mul]
  constructor
  · rintro ⟨c, v, hc, hv, rfl⟩
    exact ⟨List.cons_ne_nil c v, List.forall_mem_cons.2 ⟨hc, mem_letter_kstar.1 hv⟩⟩
  · rintro ⟨hne, h⟩
    obtain ⟨c, v, rfl⟩ := List.exists_cons_of_ne_nil hne
    obtain ⟨hc, hv⟩ := List.forall_mem_cons.1 h
    exact ⟨c, v, hc, mem_letter_kstar.2 hv, rfl⟩

/-- A short word over the class. -/
theorem mem_letter_upTo : w ∈ upTo (letter p) n ↔ w.length ≤ n ∧ ∀ c ∈ w, p c = true := by
  induction n generalizing w with
  | zero =>
    rw [upTo, Language.mem_one, Nat.le_zero, List.length_eq_zero_iff]
    constructor
    · rintro rfl
      exact ⟨rfl, by simp⟩
    · exact And.left
  | succ n ih =>
    rw [upTo, Language.mem_add, Language.mem_one, mem_letter_mul]
    constructor
    · rintro (rfl | ⟨c, v, hc, hv, rfl⟩)
      · simp
      · obtain ⟨hlength, hall⟩ := ih.1 hv
        exact ⟨Nat.succ_le_succ hlength, List.forall_mem_cons.2 ⟨hc, hall⟩⟩
    · rintro ⟨hlength, hall⟩
      cases w with
      | nil => exact .inl rfl
      | cons c v =>
        obtain ⟨hc, hv⟩ := List.forall_mem_cons.1 hall
        exact .inr ⟨c, v, hc, ih.2 ⟨Nat.le_of_succ_le_succ hlength, hv⟩, rfl⟩

/-- A letter, and a short word after it. -/
theorem mem_letter_mul_upTo {q : α → Bool} : w ∈ letter p * upTo (letter q) n ↔
    ∃ c v, w = c :: v ∧ p c = true ∧ v.length ≤ n ∧ ∀ d ∈ v, q d = true := by
  rw [mem_letter_mul]
  constructor
  · rintro ⟨c, v, hc, hv, rfl⟩
    exact ⟨c, v, rfl, hc, mem_letter_upTo.1 hv⟩
  · rintro ⟨c, v, rfl, hc, hv⟩
    exact ⟨c, v, hc, mem_letter_upTo.2 hv, rfl⟩

/-- Words of a language, each after a letter that it does not have. -/
theorem mem_lit_mul_kstar :
    w ∈ (lit c * l)∗ ↔ ∃ vs : List (List α), (∀ v ∈ vs, v ∈ l) ∧ w = vs.flatMap (c :: ·) := by
  rw [Language.mem_kstar]
  constructor
  · rintro ⟨L, rfl, hL⟩
    induction L with
    | nil => exact ⟨[], by simp, rfl⟩
    | cons u L ih =>
      obtain ⟨hu, hrest⟩ := List.forall_mem_cons.1 hL
      obtain ⟨vs, hvs, heq⟩ := ih hrest
      obtain ⟨v, hv, rfl⟩ := mem_lit_mul.1 hu
      exact ⟨v :: vs, List.forall_mem_cons.2 ⟨hv, hvs⟩, by
        rw [List.flatten_cons, heq, List.flatMap_cons]⟩
  · rintro ⟨vs, hvs, rfl⟩
    refine ⟨vs.map (c :: ·), List.flatMap_def .., fun v hv => ?_⟩
    obtain ⟨u, hu, rfl⟩ := List.mem_map.1 hv
    exact mem_lit_mul.2 ⟨u, hvs u hu, rfl⟩

theorem mem_lit_mul_plus : w ∈ plus (lit c * l) ↔
    ∃ vs : List (List α), 1 ≤ vs.length ∧ (∀ v ∈ vs, v ∈ l) ∧ w = vs.flatMap (c :: ·) := by
  rw [plus, Language.mem_mul]
  constructor
  · rintro ⟨u, hu, w, hw, rfl⟩
    obtain ⟨v, hv, rfl⟩ := mem_lit_mul.1 hu
    obtain ⟨vs, hvs, rfl⟩ := mem_lit_mul_kstar.1 hw
    exact ⟨v :: vs, Nat.le_add_left 1 _, List.forall_mem_cons.2 ⟨hv, hvs⟩, rfl⟩
  · rintro ⟨vs, hlength, hvs, rfl⟩
    cases vs with
    | nil => exact absurd hlength (Nat.not_succ_le_zero 0)
    | cons v vs =>
      obtain ⟨hv, hrest⟩ := List.forall_mem_cons.1 hvs
      exact ⟨c :: v, mem_lit_mul.2 ⟨v, hv, rfl⟩, _, mem_lit_mul_kstar.2 ⟨vs, hrest, rfl⟩, rfl⟩

/-! ### Letters that no word has -/

/-- No word of the language has this letter. -/
def Avoids (c : α) (l : Language α) : Prop := ∀ w ∈ l, c ∉ w

theorem avoids_lit {d : α} (h : c ≠ d) : Avoids c (lit d) := by
  rintro w rfl
  simpa using h

theorem avoids_letter (h : p c = false) : Avoids c (letter p) := by
  rintro w ⟨d, hd, rfl⟩ hmem
  rw [List.mem_singleton.1 hmem, hd] at h
  exact Bool.noConfusion h

theorem avoids_one : Avoids c 1 := by
  intro w hw
  rw [(Language.mem_one w).1 hw]
  exact List.not_mem_nil

theorem Avoids.add (h : Avoids c l) (h' : Avoids c m) : Avoids c (l + m) :=
  fun w hw => ((Language.mem_add l m w).1 hw).elim (h w) (h' w)

theorem Avoids.mul (h : Avoids c l) (h' : Avoids c m) : Avoids c (l * m) := by
  intro w hw hc
  obtain ⟨u, hu, v, hv, rfl⟩ := Language.mem_mul.1 hw
  exact (List.mem_append.1 hc).elim (h u hu) (h' v hv)

theorem Avoids.kstar (h : Avoids c l) : Avoids c l∗ := by
  intro w hw hc
  obtain ⟨L, rfl, hL⟩ := Language.mem_kstar.1 hw
  obtain ⟨v, hv, hcv⟩ := List.mem_flatten.1 hc
  exact h v (hL v hv) hcv

theorem Avoids.plus (h : Avoids c l) : Avoids c (plus l) := h.mul h.kstar

theorem Avoids.upTo (h : Avoids c l) (n : ℕ) : Avoids c (upTo l n) := by
  induction n with
  | zero => exact avoids_one
  | succ n ih => exact avoids_one.add (h.mul ih)

/-! ### Words without a letter -/

/-- The words of the first language that do not have this letter are in the second. -/
def Without (c : α) (l m : Language α) : Prop := ∀ w ∈ l, c ∉ w → w ∈ m

theorem Without.refl (l : Language α) : Without c l l := fun _ hw _ => hw

theorem Without.add {l' m' : Language α} (h : Without c l m) (h' : Without c l' m') :
    Without c (l + l') (m + m') := by
  intro w hw hc
  rw [Language.mem_add] at hw ⊢
  exact hw.imp (h w · hc) (h' w · hc)

theorem Without.mul {l' m' : Language α} (h : Without c l m) (h' : Without c l' m') :
    Without c (l * l') (m * m') := by
  intro w hw hc
  obtain ⟨u, hu, v, hv, rfl⟩ := Language.mem_mul.1 hw
  rw [List.mem_append, not_or] at hc
  exact Language.append_mem_mul (h u hu hc.1) (h' v hv hc.2)

theorem without_lit : Without c (lit c) m := by
  rintro w rfl hc
  exact absurd (List.mem_singleton_self c) hc

/-- **An optional last letter** is seen where no other letter is the same. -/
theorem mem_mul_optional_iff : w ∈ l * (1 + lit c) ↔ w ∈ l ∨ ∃ v ∈ l, w = v ++ [c] := by
  rw [mul_add, mul_one, Language.mem_add, mem_mul_lit]

end Backplane.Grammar
