import Mathlib.Data.List.DropRight
import Mathlib.Tactic.Common

/-!
# Stripping and slicing lists

* `strip p l` : `l` without the elements at its two ends of which `p` holds.
* `Trimmed p l` : there are none at the ends of `l`; `strip_of_trimmed`, `trimmed_strip`.
* `slice l s e` : what `l` has at the positions from `s` up to `e`.
* `split sep l` : the parts of `l` between one `sep` and the next; nothing is lost when the
  separators are put back (`flatten_reattach_split`).
* `blocks n l` : `l` in blocks of `n` elements.
-/

namespace Backplane.Span

variable {α : Type} {p : α → Bool} {l l' pre post : List α} {s m e n k : ℕ}

/-! ### Stripping -/

/-- `l` without the elements at its two ends of which `p` holds. -/
def strip (p : α → Bool) (l : List α) : List α := (l.dropWhile p).rdropWhile p

/-- Neither end of `l` is an element of which `p` holds. -/
structure Trimmed (p : α → Bool) (l : List α) : Prop where
  head : ∀ x ∈ l.head?, p x = false
  last : ∀ x ∈ l.getLast?, p x = false

theorem strip_sublist : List.Sublist (strip p l) l :=
  (List.rdropWhile_prefix p _).sublist.trans (List.dropWhile_sublist p)

theorem length_strip_le : (strip p l).length ≤ l.length := strip_sublist.length_le

theorem dropWhile_eq_nil : l.dropWhile p = [] ↔ ∀ x ∈ l, p x = true := by
  simp [List.dropWhile_eq_nil_iff]

theorem strip_eq_nil : strip p l = [] ↔ ∀ x ∈ l, p x = true := by
  rw [strip, List.rdropWhile_eq_nil_iff]
  constructor
  · intro h
    have hd : l.dropWhile p = [] := by
      by_contra hne
      have h₁ := List.head_dropWhile_not p hne
      have h₂ := h _ (List.head_mem hne)
      simp_all
    exact dropWhile_eq_nil.mp hd
  · intro h x hx
    exact h x ((List.dropWhile_sublist p).subset hx)

/-- What is stripped off is a front and a back of which `p` holds throughout. -/
theorem exists_append_strip (p : α → Bool) (l : List α) :
    ∃ pre post, l = pre ++ (strip p l ++ post) ∧ (∀ x ∈ pre, p x = true) ∧
      ∀ x ∈ post, p x = true := by
  refine ⟨l.takeWhile p, (l.dropWhile p).rtakeWhile p, ?_, ?_, ?_⟩
  · rw [strip, List.rdropWhile_append_rtakeWhile, List.takeWhile_append_dropWhile]
  · intro x hx
    exact List.mem_takeWhile_imp hx
  · intro x hx
    exact List.mem_rtakeWhile_imp hx

theorem strip_append_left (h : ∀ x ∈ pre, p x = true) : strip p (pre ++ l) = strip p l := by
  rw [strip, strip, List.dropWhile_append_of_pos h]

theorem rdropWhile_append_right (h : ∀ x ∈ post, p x = true) :
    (l ++ post).rdropWhile p = l.rdropWhile p := by
  rw [List.rdropWhile, List.reverse_append, List.dropWhile_append_of_pos, List.rdropWhile]
  intro x hx
  exact h x (List.mem_reverse.mp hx)

theorem strip_append_right (h : ∀ x ∈ post, p x = true) : strip p (l ++ post) = strip p l := by
  by_cases hl : ∀ x ∈ l, p x = true
  · rw [strip_eq_nil.mpr hl, strip_eq_nil]
    intro x hx
    exact (List.mem_append.mp hx).elim (hl x) (h x)
  · have hd : ¬(l.dropWhile p).isEmpty = true := by
      rw [List.isEmpty_iff, dropWhile_eq_nil]
      exact hl
    rw [strip, List.dropWhile_append, if_neg hd, rdropWhile_append_right h, strip]

theorem dropWhile_of_head (h : ∀ x ∈ l.head?, p x = false) : l.dropWhile p = l := by
  cases l with
  | nil => rfl
  | cons x l => exact List.dropWhile_cons_of_neg (by simpa using h x rfl)

theorem strip_of_trimmed (h : Trimmed p l) : strip p l = l := by
  rw [strip, dropWhile_of_head h.head, List.rdropWhile_eq_self_iff]
  intro hl
  simp [h.last _ (List.getLast?_eq_some_getLast hl)]

theorem trimmed_strip (p : α → Bool) (l : List α) : Trimmed p (strip p l) := by
  constructor
  · intro x hx
    have hd : (l.dropWhile p).head? = some x := by
      obtain ⟨t, ht⟩ := List.rdropWhile_prefix p (l.dropWhile p)
      rw [← ht]
      exact List.mem_head?_append_of_mem_head? hx
    simpa [Option.all] using List.head?_dropWhile_not p l |> fun h => by rw [hd] at h; exact h
  · intro x hx
    have hne : strip p l ≠ [] := by
      rintro h
      rw [h] at hx
      cases hx
    have := List.rdropWhile_last_not p (l.dropWhile p) hne
    rw [List.getLast?_eq_some_getLast hne] at hx
    cases hx
    simpa [strip] using this

theorem strip_strip : strip p (strip p l) = strip p l := strip_of_trimmed (trimmed_strip p l)

theorem trimmed_append (h : Trimmed p l) (h' : ∀ x ∈ l'.getLast?, p x = false) (hl : l ≠ [])
    (hl' : l' ≠ []) : Trimmed p (l ++ l') := by
  constructor
  · rw [List.head?_append_of_ne_nil _ hl]
    exact h.head
  · rw [List.getLast?_append_of_ne_nil _ hl']
    exact h'

/-- Nothing is stripped off the back of a list that does not end with an element to strip. -/
theorem exists_append_strip_of_last (h : ∀ x ∈ l.getLast?, p x = false) :
    ∃ pre, l = pre ++ strip p l ∧ ∀ x ∈ pre, p x = true := by
  obtain ⟨pre, post, hl, hpre, hpost⟩ := exists_append_strip p l
  rcases List.eq_nil_or_concat post with rfl | ⟨post, x, rfl⟩
  · exact ⟨pre, by rw [List.append_nil] at hl; exact hl, hpre⟩
  · have hx : p x = true := hpost x (by simp)
    have hlast : l.getLast? = some x := by
      rw [hl, List.concat_eq_append, ← List.append_assoc, ← List.append_assoc, List.getLast?_concat]
    rw [h x hlast] at hx
    cases hx

/-! ### Slicing -/

/-- What `l` has at the positions from `s` up to `e`. -/
def slice (l : List α) (s e : ℕ) : List α := (l.take e).drop s

theorem length_slice (h : e ≤ l.length) : (slice l s e).length = e - s := by
  simp [slice, h]

theorem slice_append (h : s ≤ m) (h' : m ≤ e) : slice l s m ++ slice l m e = slice l s e := by
  have hm : l.take m = (l.take e).take m := by rw [List.take_take, min_eq_left h']
  rw [slice, slice, slice, hm]
  have hd : (l.take e).drop m = ((l.take e).drop s).drop (m - s) := by
    rw [List.drop_drop, Nat.add_sub_cancel' h]
  rw [hd, List.drop_take, List.take_append_drop]

theorem slice_to_end (h : l.length ≤ e) : slice l s e = l.drop s := by
  rw [slice, List.take_of_length_le h]

theorem slice_append_drop (h : s ≤ m) (h' : m ≤ l.length) : slice l s m ++ l.drop m = l.drop s := by
  rw [← slice_to_end le_rfl, ← slice_to_end le_rfl, slice_append h h']

theorem slice_take (h : s + k ≤ e) : (slice l s e).take k = slice l s (s + k) := by
  rw [slice, slice, List.take_drop, List.take_take, min_eq_left (by omega)]

theorem slice_drop : (slice l s e).drop k = slice l (s + k) e := by
  rw [slice, slice, List.drop_drop]

theorem mem_slice {x : α} : x ∈ slice l s e ↔ ∃ i, s ≤ i ∧ i < e ∧ l[i]? = some x := by
  rw [slice, List.mem_iff_getElem?]
  constructor
  · rintro ⟨i, hi⟩
    rw [List.getElem?_drop, List.getElem?_take] at hi
    split_ifs at hi with h
    exact ⟨s + i, by omega, h, hi⟩
  · rintro ⟨i, hs, he, hi⟩
    refine ⟨i - s, ?_⟩
    rw [List.getElem?_drop, List.getElem?_take, if_pos (by omega), ← hi]
    congr 1
    omega

/-! ### Splitting at a separator -/

section

variable [DecidableEq α]

/-- The parts of `l` between one `sep` and the next; the first `skip` elements belong to a `sep`
that was found, and `cur` is what came since. -/
def splitGo (sep : List α) : ℕ → List α → List α → List (List α)
  | _, cur, [] => [cur]
  | skip + 1, cur, _ :: l => splitGo sep skip cur l
  | 0, cur, x :: l =>
    if sep.isPrefixOf (x :: l) then cur :: splitGo sep (sep.length - 1) [] l
    else splitGo sep 0 (cur ++ [x]) l

/-- The parts of `l` between one `sep` that a scan from the left finds and the next. -/
def split (sep l : List α) : List (List α) := splitGo sep 0 [] l

end

/-- The parts, each of them but the first with `sep` before it again. -/
def reattach (sep : List α) : List (List α) → List (List α)
  | [] => []
  | part :: parts => part :: parts.map (sep ++ ·)

theorem flatten_map_append (sep : List α) {parts : List (List α)} (h : parts ≠ []) :
    (parts.map (sep ++ ·)).flatten = sep ++ (reattach sep parts).flatten := by
  cases parts with
  | nil => exact absurd rfl h
  | cons part parts => simp [reattach]

section

variable [DecidableEq α]

theorem splitGo_ne_nil (sep : List α) (skip : ℕ) (cur l : List α) :
    splitGo sep skip cur l ≠ [] := by
  fun_induction splitGo sep skip cur l with
  | case1 => simp
  | case2 skip cur x l ih => exact ih
  | case3 cur x l h ih => simp
  | case4 cur x l h ih => exact ih

theorem flatten_splitGo {sep : List α} (hsep : sep ≠ []) (skip : ℕ) (cur l : List α) :
    (reattach sep (splitGo sep skip cur l)).flatten = cur ++ l.drop skip := by
  fun_induction splitGo sep skip cur l with
  | case1 => simp [reattach]
  | case2 skip cur x l ih => rw [ih, List.drop_succ_cons]
  | case3 cur x l h ih =>
    have hpos : 0 < sep.length := List.length_pos_of_ne_nil hsep
    obtain ⟨rest, hrest⟩ := List.isPrefixOf_iff_prefix.mp h
    have hdrop : l.drop (sep.length - 1) = rest := by
      rw [← List.drop_succ_cons (a := x), Nat.sub_add_cancel hpos, ← hrest, List.drop_left]
    rw [reattach, List.flatten_cons, flatten_map_append sep (splitGo_ne_nil _ _ _ _), ih, hdrop,
      List.nil_append, hrest, List.drop_zero]
  | case4 cur x l h ih => rw [ih, List.drop_zero, List.drop_zero, List.append_assoc]; rfl

/-- Nothing of a list is lost when it is split and the separators are put back. -/
theorem flatten_reattach_split {sep : List α} (hsep : sep ≠ []) (l : List α) :
    (reattach sep (split sep l)).flatten = l :=
  flatten_splitGo hsep 0 [] l

end

/-! ### Blocks -/

/-- `l` in blocks of `n` elements, the last one with what is left. -/
def blocks (n : ℕ) (l : List α) : List (List α) :=
  (List.range ((l.length + n - 1) / n)).map fun i => (l.drop (i * n)).take n

theorem flatten_take_blocks (n k : ℕ) (l : List α) :
    ((List.range k).map fun i => (l.drop (i * n)).take n).flatten = l.take (k * n) := by
  induction k with
  | zero => simp
  | succ k ih =>
    rw [List.range_succ, List.map_append, List.flatten_append, ih, Nat.succ_mul, List.take_add]
    simp

theorem flatten_blocks (h : 0 < n) (l : List α) : (blocks n l).flatten = l := by
  rw [blocks, flatten_take_blocks, List.take_of_length_le]
  have h₁ := Nat.div_add_mod (l.length + n - 1) n
  have h₂ := Nat.mod_lt (l.length + n - 1) h
  rw [Nat.mul_comm]
  omega

end Backplane.Span
