import Mathlib.Algebra.BigOperators.Group.List.Basic
import Mathlib.Algebra.GroupWithZero.Nat
import Mathlib.Tactic.Common

/-!
# Strings and lists of strings in JSON

* `escaped`, `encode`, `encodeAll` : a character, a string and a list of strings as JSON.
* `size` : the bytes that a text has in UTF-8.
* `escapes` : the bytes that the escapes of a string add to it.
* `size_encodeAll` : what a list of strings has in JSON.
-/

namespace Backplane.JsonText

/-- A hexadecimal digit. -/
def hexDigit (n : ℕ) : Char := "0123456789abcdef".toList.getD n '0'

/-- A character in a JSON string. -/
def escaped (c : Char) : List Char :=
  if c = '"' ∨ c = '\\' then ['\\', c]
  else if c.toNat = 8 then ['\\', 'b']
  else if c.toNat = 9 then ['\\', 't']
  else if c.toNat = 10 then ['\\', 'n']
  else if c.toNat = 12 then ['\\', 'f']
  else if c.toNat = 13 then ['\\', 'r']
  else if c.toNat < 32 then
    ['\\', 'u', '0', '0', hexDigit (c.toNat / 16), hexDigit (c.toNat % 16)]
  else [c]

/-- A JSON string. -/
def encode (text : List Char) : List Char := '"' :: (text.flatMap escaped ++ ['"'])

/-- The items of an array, with commas between them. -/
def items : List (List Char) → List Char
  | [] => []
  | [text] => encode text
  | text :: texts => encode text ++ ',' :: items texts

/-- A JSON array of strings. -/
def encodeAll (texts : List (List Char)) : List Char := '[' :: (items texts ++ [']'])

/-- The bytes of a text in UTF-8. -/
def size (text : List Char) : ℕ := (text.map Char.utf8Size).sum

/-- The bytes that the escape of a character adds to it. -/
def escape (c : Char) : ℕ :=
  if c = '"' ∨ c = '\\' ∨ c.toNat ∈ [8, 9, 10, 12, 13] then 1
  else if c.toNat < 32 then 5
  else 0

/-- The bytes that the escapes of a string add to it. -/
def escapes (text : List Char) : ℕ := (text.map escape).sum

variable {c : Char} {text text' : List Char} {texts : List (List Char)}

@[simp] theorem size_nil : size [] = 0 := rfl

@[simp] theorem size_cons : size (c :: text) = c.utf8Size + size text := rfl

@[simp] theorem size_append : size (text ++ text') = size text + size text' := by
  simp [size]

theorem utf8Size_of_lt (h : c.toNat < 128) : c.utf8Size = 1 := by
  have hval : c.val.toNat ≤ 127 := Nat.le_of_lt_succ h
  rw [Char.utf8Size, if_pos (UInt32.le_iff_toNat_le.mpr hval)]

theorem utf8Size_hexDigit {n : ℕ} (h : n < 16) : (hexDigit n).utf8Size = 1 := by
  revert n
  decide

/-- What an escape adds to a character. -/
theorem size_escaped (c : Char) : size (escaped c) = c.utf8Size + escape c := by
  have hback : ('\\' : Char).utf8Size = 1 := by decide
  have hletter : ∀ d ∈ ['b', 't', 'n', 'f', 'r', 'u', '0'], Char.utf8Size d = 1 := by
    intro d hd
    simp only [List.mem_cons, List.not_mem_nil, or_false] at hd
    rcases hd with rfl | rfl | rfl | rfl | rfl | rfl | rfl <;> rfl
  have hb := hletter 'b' (by simp)
  have ht := hletter 't' (by simp)
  have hn := hletter 'n' (by simp)
  have hf := hletter 'f' (by simp)
  have hr := hletter 'r' (by simp)
  have hu := hletter 'u' (by simp)
  have h0 := hletter '0' (by simp)
  by_cases hq : c = '"' ∨ c = '\\'
  · have hq' : c = '"' ∨ c = '\\' ∨ c.toNat ∈ [8, 9, 10, 12, 13] := by
      rcases hq with h | h
      · exact .inl h
      · exact .inr (.inl h)
    simp only [escaped, escape, if_pos hq, if_pos hq', size_cons, size_nil, hback]
    omega
  · by_cases hlt : c.toNat < 32
    · have h1 : c.utf8Size = 1 := utf8Size_of_lt (by omega)
      have hd₁ := utf8Size_hexDigit (n := c.toNat / 16) (by omega)
      have hd₂ := utf8Size_hexDigit (n := c.toNat % 16) (Nat.mod_lt _ (by decide))
      have hesc : escape c = if c.toNat ∈ [8, 9, 10, 12, 13] then 1 else 5 := by
        simp only [escape, ← or_assoc, hq, false_or, if_pos hlt]
      rw [hesc, escaped, if_neg hq, if_pos hlt, h1]
      simp only [List.mem_cons, List.not_mem_nil, or_false]
      split_ifs <;> simp_all
    · have h₁ : c.toNat ∉ [8, 9, 10, 12, 13] := by
        simp only [List.mem_cons, List.not_mem_nil, or_false]
        omega
      have hesc : escape c = 0 := by
        simp only [escape, hq, h₁, or_false, if_neg hlt, if_false]
      simp only [List.mem_cons, List.not_mem_nil, or_false, not_or] at h₁
      rw [hesc, escaped, if_neg hq, if_neg h₁.1, if_neg h₁.2.1, if_neg h₁.2.2.1, if_neg h₁.2.2.2.1,
        if_neg h₁.2.2.2.2, if_neg hlt]
      rfl

theorem size_flatMap_escaped (text : List Char) :
    size (text.flatMap escaped) = size text + escapes text := by
  induction text with
  | nil => rfl
  | cons c text ih =>
    rw [List.flatMap_cons, size_append, ih, size_escaped, size_cons, escapes, escapes,
      List.map_cons, List.sum_cons]
    omega

theorem size_encode (text : List Char) : size (encode text) = size text + escapes text + 2 := by
  have hq : ('"' : Char).utf8Size = 1 := by decide
  rw [encode, size_cons, size_append, size_cons, size_flatMap_escaped, hq, size_nil]
  omega

theorem size_items (h : texts ≠ []) :
    size (items texts) + 1 = (texts.map fun text => size text + escapes text + 3).sum := by
  have hcomma : (',' : Char).utf8Size = 1 := by decide
  induction texts with
  | nil => exact absurd rfl h
  | cons text texts ih =>
    cases texts with
    | nil => simp [items, size_encode]
    | cons text' texts =>
      have hrest := ih (by simp)
      rw [items, size_append, size_cons, size_encode, hcomma, List.map_cons, List.sum_cons, ← hrest]
      · omega
      · simp

/-- **The bytes of a list of strings in JSON**: the bracket and, for each string, its bytes, those
of its escapes, the quotes and a comma or the other bracket. -/
theorem size_encodeAll (h : texts ≠ []) :
    size (encodeAll texts) =
      1 + (texts.map fun text => size text + escapes text + 3).sum := by
  have hopen : ('[' : Char).utf8Size = 1 := by decide
  have hclose : (']' : Char).utf8Size = 1 := by decide
  rw [encodeAll, size_cons, size_append, size_cons, size_nil, hopen, hclose, ← size_items h]

end Backplane.JsonText
