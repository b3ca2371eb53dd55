import Mathlib.Data.List.Basic
import Mathlib.Data.Nat.Notation
import Mathlib.Tactic.Common

/-!
# Decoding UTF-8 piece by piece

The bytes of a text arrive in pieces, and a piece may end inside a character.

* `encode cs` : the bytes of a text; `encode_append_inj` : they can be read in one way only.
* `front` : the characters at the front, and what is left.
* `isPartial` : the bytes may be the beginning of a character; `isPartial_take` : every beginning of
  a character is so.
* `decode` : one call of the incremental decoder; `decode_eq_some` : what it keeps;
  `ne_encode_of_decode` : when it fails.
-/

namespace Backplane.Utf8

variable {bytes rest rest' buffer chunk ext : List UInt8} {c c' : Char} {cs cs' : List Char}
  {fuel : ℕ} {final : Bool}

/-- The bytes of a text. -/
def encode (cs : List Char) : List UInt8 := cs.flatMap String.utf8EncodeChar

/-- The character at the front. -/
def decodeChar (bytes : List UInt8) : Option Char := ByteArray.utf8DecodeChar? bytes.toByteArray 0

/-! ### One character -/

theorem decodeChar_append (c : Char) (rest : List UInt8) :
    decodeChar (String.utf8EncodeChar c ++ rest) = some c := by
  rw [decodeChar, List.toByteArray_append]
  exact ByteArray.utf8DecodeChar?_utf8EncodeChar_append

theorem eq_append_of_decodeChar (h : decodeChar bytes = some c) :
    bytes = String.utf8EncodeChar c ++ bytes.drop c.utf8Size := by
  obtain ⟨l, hl⟩ := ByteArray.exists_of_utf8DecodeChar?_eq_some h
  have hbytes : bytes = String.utf8EncodeChar c ++ l.data.toList := by
    have hdata := congrArg (fun b : ByteArray => b.data.toList) hl
    simpa [List.toList_data_toByteArray] using hdata
  have hdrop : bytes.drop c.utf8Size = l.data.toList := by
    rw [hbytes, ← String.length_utf8EncodeChar, List.drop_left]
  rw [hdrop]
  exact hbytes

theorem decodeChar_nil : decodeChar [] = none := rfl

theorem length_drop_lt (h : decodeChar bytes = some c) :
    (bytes.drop c.utf8Size).length < bytes.length := by
  have hlen := congrArg List.length (eq_append_of_decodeChar h)
  have hpos := Char.utf8Size_pos c
  rw [List.length_append, String.length_utf8EncodeChar] at hlen
  omega

/-! ### All characters at the front -/

theorem encode_cons (c : Char) (cs : List Char) :
    encode (c :: cs) = String.utf8EncodeChar c ++ encode cs := List.flatMap_cons

theorem encode_append (cs cs' : List Char) : encode (cs ++ cs') = encode cs ++ encode cs' :=
  List.flatMap_append

/-- A text and what follows it can be told apart in one way only. -/
theorem encode_append_inj (h : encode cs ++ rest = encode cs' ++ rest')
    (hrest : decodeChar rest = none) (hrest' : decodeChar rest' = none) :
    cs = cs' ∧ rest = rest' := by
  induction cs generalizing cs' with
  | nil =>
    cases cs' with
    | nil => exact ⟨rfl, h⟩
    | cons c' cs' =>
      have hrest₂ : rest = encode (c' :: cs') ++ rest' := h
      rw [hrest₂, encode_cons, List.append_assoc, decodeChar_append] at hrest
      exact absurd hrest (by simp)
  | cons c cs ih =>
    cases cs' with
    | nil =>
      have hrest₂ : encode (c :: cs) ++ rest = rest' := h
      rw [← hrest₂, encode_cons, List.append_assoc, decodeChar_append] at hrest'
      exact absurd hrest' (by simp)
    | cons c' cs' =>
      rw [encode_cons, encode_cons, List.append_assoc, List.append_assoc] at h
      have hc := congrArg decodeChar h
      rw [decodeChar_append, decodeChar_append, Option.some.injEq] at hc
      subst hc
      obtain ⟨rfl, rfl⟩ := ih (List.append_cancel_left h)
      exact ⟨rfl, rfl⟩

/-- The characters at the front, and the bytes after them. -/
def front : ℕ → List UInt8 → List Char × List UInt8
  | 0, bytes => ([], bytes)
  | fuel + 1, bytes =>
    match decodeChar bytes with
    | none => ([], bytes)
    | some c =>
      (c :: (front fuel (bytes.drop c.utf8Size)).1, (front fuel (bytes.drop c.utf8Size)).2)

theorem front_none (h : decodeChar bytes = none) : front (fuel + 1) bytes = ([], bytes) := by
  rw [front, h]

theorem front_some (h : decodeChar bytes = some c) :
    front (fuel + 1) bytes = (c :: (front fuel (bytes.drop c.utf8Size)).1,
      (front fuel (bytes.drop c.utf8Size)).2) := by
  rw [front, h]

theorem front_spec (hfuel : bytes.length ≤ fuel) :
    bytes = encode (front fuel bytes).1 ++ (front fuel bytes).2 ∧
      decodeChar (front fuel bytes).2 = none := by
  induction fuel generalizing bytes with
  | zero =>
    obtain rfl := List.length_eq_zero_iff.1 (Nat.le_zero.1 hfuel)
    exact ⟨rfl, rfl⟩
  | succ fuel ih =>
    cases h : decodeChar bytes with
    | none =>
      rw [front_none h]
      exact ⟨rfl, h⟩
    | some c =>
      have hlt := length_drop_lt h
      obtain ⟨heq, hnone⟩ := @ih (bytes.drop c.utf8Size) (by omega)
      rw [front_some h, encode_cons, List.append_assoc, ← heq]
      exact ⟨eq_append_of_decodeChar h, hnone⟩

/-! ### The beginning of a character -/

/-- The byte goes on with a character. -/
def isContinuation (b : UInt8) : Bool := decide (0x80 ≤ b.toNat) && decide (b.toNat < 0xc0)

/-- The second byte may follow the first of three. -/
def isSecondOfThree (b b₂ : UInt8) : Bool :=
  isContinuation b₂ && (b.toNat != 0xe0 || decide (0xa0 ≤ b₂.toNat)) &&
    (b.toNat != 0xed || decide (b₂.toNat < 0xa0))

/-- The second byte may follow the first of four. -/
def isSecondOfFour (b b₂ : UInt8) : Bool :=
  isContinuation b₂ && (b.toNat != 0xf0 || decide (0x90 ≤ b₂.toNat)) &&
    (b.toNat != 0xf4 || decide (b₂.toNat < 0x90))

/-- The bytes are the beginning of a character that more bytes may complete. -/
def isPartial : List UInt8 → Bool
  | [b] => decide (0xc2 ≤ b.toNat) && decide (b.toNat < 0xf5)
  | [b, b₂] => decide (0xe0 ≤ b.toNat) && decide (b.toNat < 0xf0) && isSecondOfThree b b₂ ||
      decide (0xf0 ≤ b.toNat) && decide (b.toNat < 0xf5) && isSecondOfFour b b₂
  | [b, b₂, b₃] => decide (0xf0 ≤ b.toNat) && decide (b.toNat < 0xf5) && isSecondOfFour b b₂ &&
      isContinuation b₃
  | _ => false

theorem toNat_ofNat {n : ℕ} (h : n < 256) : (UInt8.ofNat n).toNat = n := by
  rw [UInt8.toNat_ofNat', Nat.mod_eq_of_lt h]

/-- The beginning of a character is partial. -/
theorem isPartial_take (c : Char) {n : ℕ} (hpos : 0 < n)
    (hlt : n < (String.utf8EncodeChar c).length) :
    isPartial ((String.utf8EncodeChar c).take n) = true := by
  have hvalid : c.val.toNat < 0xd800 ∨ 0xdfff < c.val.toNat ∧ c.val.toNat < 0x110000 := c.valid
  revert hlt
  unfold String.utf8EncodeChar
  generalize c.val.toNat = v at hvalid
  dsimp only
  split_ifs with h₁ h₂ h₃
  · intro hlt
    rw [List.length_singleton] at hlt
    omega
  · intro hlt
    simp only [List.length_cons, List.length_nil] at hlt
    obtain rfl : n = 1 := by omega
    simp (disch := omega) only [List.take_succ_cons, List.take_zero, isPartial, toNat_ofNat,
      Bool.and_eq_true, decide_eq_true_eq]
    omega
  · intro hlt
    simp only [List.length_cons, List.length_nil] at hlt
    obtain rfl | rfl : n = 1 ∨ n = 2 := by omega
    · simp (disch := omega) only [List.take_succ_cons, List.take_zero, isPartial, toNat_ofNat,
        Bool.and_eq_true, decide_eq_true_eq]
      omega
    · simp (disch := omega) only [List.take_succ_cons, List.take_zero, isPartial, toNat_ofNat,
        isSecondOfThree, isContinuation, Bool.and_eq_true, Bool.or_eq_true, decide_eq_true_eq,
        bne_iff_ne]
      omega
  · intro hlt
    simp only [List.length_cons, List.length_nil] at hlt
    obtain rfl | rfl | rfl : n = 1 ∨ n = 2 ∨ n = 3 := by omega
    · simp (disch := omega) only [List.take_succ_cons, List.take_zero, isPartial, toNat_ofNat,
        Bool.and_eq_true, decide_eq_true_eq]
      omega
    · simp (disch := omega) only [List.take_succ_cons, List.take_zero, isPartial, toNat_ofNat,
        isSecondOfFour, isContinuation, Bool.and_eq_true, Bool.or_eq_true, decide_eq_true_eq,
        bne_iff_ne]
      omega
    · simp (disch := omega) only [List.take_succ_cons, List.take_zero, isPartial, toNat_ofNat,
        isSecondOfFour, isContinuation, Bool.and_eq_true, Bool.or_eq_true, decide_eq_true_eq,
        bne_iff_ne]
      omega

/-- What is neither a character nor partial is the beginning of no text. -/
theorem decodeChar_append_eq_none (h : decodeChar rest = none) (hne : rest ≠ [])
    (hpart : isPartial rest = false) : decodeChar (rest ++ ext) = none := by
  by_contra hsome
  obtain ⟨c, hc⟩ := Option.ne_none_iff_exists'.1 hsome
  have heq := eq_append_of_decodeChar hc
  rcases List.append_eq_append_iff.1 heq with ⟨l, hl, -⟩ | ⟨l, hl, -⟩
  · -- the bytes end inside the character
    have htake : (String.utf8EncodeChar c).take rest.length = rest := by
      rw [hl, List.take_left]
    by_cases hnil : l = []
    · rw [hnil, List.append_nil] at hl
      rw [← hl, ← List.append_nil (String.utf8EncodeChar c), decodeChar_append] at h
      exact absurd h (by simp)
    · have hlt : rest.length < (String.utf8EncodeChar c).length := by
        rw [hl, List.length_append]
        exact Nat.lt_add_of_pos_right (List.length_pos_iff.2 hnil)
      have htrue := isPartial_take c (List.length_pos_iff.2 hne) hlt
      rw [htake, hpart] at htrue
      exact absurd htrue (by simp)
  · rw [hl, decodeChar_append] at h
    exact absurd h (by simp)

/-! ### The incremental decoder -/

/-- One call of the decoder: the characters that are complete, and the bytes that it keeps for the
next call.  It fails on bytes that begin no character, and after the last piece on any. -/
def decode (buffer chunk : List UInt8) (final : Bool) : Option (List Char × List UInt8) :=
  let bytes := buffer ++ chunk
  let rest := (front bytes.length bytes).2
  if rest = [] then some ((front bytes.length bytes).1, [])
  else if !final && isPartial rest then some ((front bytes.length bytes).1, rest)
  else none

theorem decode_eq_some (h : decode buffer chunk final = some (cs, rest)) :
    buffer ++ chunk = encode cs ++ rest ∧ decodeChar rest = none ∧ (final = true → rest = []) := by
  obtain ⟨heq, hnone⟩ := front_spec (Nat.le_refl (buffer ++ chunk).length)
  unfold decode at h
  dsimp only at h
  split_ifs at h with hnil hpart
  · obtain ⟨rfl, rfl⟩ := Prod.mk.inj (Option.some.inj h)
    rw [hnil] at heq
    exact ⟨heq, rfl, fun _ => rfl⟩
  · obtain ⟨rfl, rfl⟩ := Prod.mk.inj (Option.some.inj h)
    refine ⟨heq, hnone, fun hfinal => ?_⟩
    rw [hfinal] at hpart
    exact absurd hpart (by simp)

/-- Where the decoder fails the bytes are those of no text, whatever else may come. -/
theorem ne_encode_of_decode (h : decode buffer chunk final = none)
    (hext : final = true → ext = []) : buffer ++ chunk ++ ext ≠ encode cs := by
  obtain ⟨heq, hnone⟩ := front_spec (Nat.le_refl (buffer ++ chunk).length)
  unfold decode at h
  dsimp only at h
  split_ifs at h with hnil hpart
  have hstuck :
      decodeChar ((front (buffer ++ chunk).length (buffer ++ chunk)).2 ++ ext) = none := by
    cases final with
    | true => rwa [hext rfl, List.append_nil]
    | false =>
      refine decodeChar_append_eq_none hnone hnil ?_
      simpa using hpart
  intro htext
  rw [heq, List.append_assoc, ← List.append_nil (encode cs)] at htext
  have hempty := (encode_append_inj htext hstuck decodeChar_nil).2
  exact hnil (List.append_eq_nil_iff.1 hempty).1

/-- What is left of a text after some of its characters is a text. -/
theorem exists_encode_of_append (h : encode cs ++ bytes = encode cs') :
    ∃ left, bytes = encode left := by
  obtain ⟨heq, hnone⟩ := front_spec (Nat.le_refl bytes.length)
  rw [heq, ← List.append_assoc, ← encode_append, ← List.append_nil (encode cs')] at h
  have hnil := (encode_append_inj h hnone decodeChar_nil).2
  rw [hnil, List.append_nil] at heq
  exact ⟨_, heq⟩

theorem encode_injective (h : encode cs = encode cs') : cs = cs' := by
  rw [← List.append_nil (encode cs), ← List.append_nil (encode cs')] at h
  exact (encode_append_inj h decodeChar_nil decodeChar_nil).1

end Backplane.Utf8
