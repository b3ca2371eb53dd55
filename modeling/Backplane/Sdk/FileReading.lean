import Backplane.Data.Utf8
import Mathlib.Algebra.Order.Group.Int

/-!
# Reading a text file in windows

`read_file` answers with a window of a text file, and with the offset of the next one.  The file is
decoded piece by piece.

* `windowPart` : the part of the window inside one piece; `window_append` : the parts join.
* `sliceTextFile` : the window of a file; `sliceTextFile_eq_some`, `sliceTextFile_eq_none` : it is
  that of the decoded text.
* `readFile` : the answer; `pages` : one call after the other.
* `windowed_reading` : a slice is right, and the windows of the calls are the text.
-/

namespace Backplane.FileTools

open Utf8

variable {n offset wantHi maxChars pos fuel : ℕ} {file buffer : List UInt8}
  {text done cs parts : List Char} {args : ℕ → Option ℤ}

/-! ### One window -/

/-- What a piece of text that begins at `pos` adds to the window from `offset` to `wantHi`. -/
def windowPart (offset wantHi pos : ℕ) (text : List Char) : List Char :=
  let lo : ℤ := offset - pos
  let hi : ℤ := wantHi - pos
  let n : ℤ := text.length
  if 0 < hi ∧ lo < n then (text.take (min hi n).toNat).drop (max lo 0).toNat else []

theorem windowPart_eq (offset wantHi pos : ℕ) (text : List Char) :
    windowPart offset wantHi pos text = (text.take (wantHi - pos)).drop (offset - pos) := by
  unfold windowPart
  dsimp only
  split_ifs with h
  · have hlo : (max ((offset : ℤ) - pos) 0).toNat = offset - pos := by omega
    rw [hlo]
    rcases le_total ((wantHi : ℤ) - pos) text.length with hle | hle
    · have hhi : (min ((wantHi : ℤ) - pos) text.length).toNat = wantHi - pos := by omega
      rw [hhi]
    · have hhi : (min ((wantHi : ℤ) - pos) text.length).toNat = text.length := by omega
      rw [hhi, List.take_length, List.take_of_length_le (by omega)]
  · symm
    refine List.drop_eq_nil_of_le ?_
    rw [List.length_take]
    omega

/-- The window of a text is that of its beginning and that of the rest. -/
theorem window_append (hle : offset ≤ wantHi) (done text : List Char) :
    ((done ++ text).take wantHi).drop offset =
      (done.take wantHi).drop offset ++ windowPart offset wantHi done.length text := by
  rw [windowPart_eq, List.take_append, List.drop_append, List.length_take]
  rcases le_total wantHi done.length with h | h
  · have hzero : wantHi - done.length = 0 := by omega
    rw [hzero, List.take_zero, List.drop_nil, List.drop_nil]
  · rw [Nat.min_eq_right h]

/-- Read the rest of the file in pieces of `n` bytes; `none` when a piece does not decode, and when
the fuel is used up. -/
def sliceLoop (n offset wantHi : ℕ) : ℕ → List UInt8 → List UInt8 → ℕ → List Char →
    Option (List Char × ℕ × ℕ)
  | 0, _, _, _, _ => none
  | fuel + 1, file, buffer, pos, parts =>
    let chunk := file.take n
    let final := chunk.isEmpty
    match decode buffer chunk final with
    | none => none
    | some (text, buffer) =>
      let parts := parts ++ windowPart offset wantHi pos text
      let pos := pos + text.length
      if final then some (parts, min offset pos, pos)
      else sliceLoop n offset wantHi fuel (file.drop n) buffer pos parts

/-- `_slice_text_file`: the window, where it begins, and how many characters there are. -/
def sliceTextFile (n : ℕ) (file : List UInt8) (offset maxChars : ℕ) :
    Option (List Char × ℕ × ℕ) :=
  sliceLoop n offset (offset + maxChars) (file.length + 1) file [] 0 []

theorem sliceLoop_none (h : decode buffer (file.take n) (file.take n).isEmpty = none) :
    sliceLoop n offset wantHi (fuel + 1) file buffer pos parts = none := by
  rw [sliceLoop]
  simp only [h]

theorem sliceLoop_some {rest : List UInt8}
    (h : decode buffer (file.take n) (file.take n).isEmpty = some (text, rest)) :
    sliceLoop n offset wantHi (fuel + 1) file buffer pos parts =
      if (file.take n).isEmpty then
        some (parts ++ windowPart offset wantHi pos text, min offset (pos + text.length),
          pos + text.length)
      else sliceLoop n offset wantHi fuel (file.drop n) rest (pos + text.length)
        (parts ++ windowPart offset wantHi pos text) := by
  rw [sliceLoop]
  simp only [h]

theorem eq_nil_of_isEmpty_take (hn : 0 < n) (h : (file.take n).isEmpty = true) : file = [] := by
  rw [List.isEmpty_iff, List.take_eq_nil_iff] at h
  exact h.resolve_left hn.ne'

/-- The window of what has been read is kept while the rest is read. -/
theorem sliceLoop_spec (hn : 0 < n) (hle : offset ≤ wantHi) (hfuel : file.length < fuel)
    (done : List Char) (buffer : List UInt8) :
    (∀ cs, encode done ++ (buffer ++ file) = encode cs →
      sliceLoop n offset wantHi fuel file buffer done.length ((done.take wantHi).drop offset) =
        some ((cs.take wantHi).drop offset, min offset cs.length, cs.length)) ∧
    ((∀ cs, encode done ++ (buffer ++ file) ≠ encode cs) →
      sliceLoop n offset wantHi fuel file buffer done.length ((done.take wantHi).drop offset) =
        none) := by
  induction fuel generalizing file done buffer with
  | zero => omega
  | succ fuel ih =>
    have hsplit : buffer ++ file = buffer ++ file.take n ++ file.drop n := by
      rw [List.append_assoc, List.take_append_drop]
    cases h : decode buffer (file.take n) (file.take n).isEmpty with
    | none =>
      have hno : ∀ cs, buffer ++ file ≠ encode cs := by
        intro cs
        rw [hsplit]
        refine ne_encode_of_decode h fun hfinal => ?_
        rw [eq_nil_of_isEmpty_take hn hfinal, List.drop_nil]
      rw [sliceLoop_none h]
      refine ⟨fun cs hcs => ?_, fun _ => rfl⟩
      obtain ⟨left, hleft⟩ := exists_encode_of_append hcs
      exact absurd hleft (hno left)
    | some r =>
      obtain ⟨text, rest⟩ := r
      obtain ⟨heq, -, hfinal⟩ := decode_eq_some h
      have hbytes : encode done ++ (buffer ++ file) =
          encode (done ++ text) ++ (rest ++ file.drop n) := by
        rw [hsplit, heq, encode_append, List.append_assoc, List.append_assoc]
      rw [sliceLoop_some h, ← window_append hle, ← List.length_append, hbytes]
      split_ifs with hempty
      · rw [hfinal hempty, eq_nil_of_isEmpty_take hn hempty, List.drop_nil, List.append_nil,
          List.append_nil]
        constructor
        · intro cs hcs
          rw [encode_injective hcs]
        · exact fun hno => absurd rfl (hno (done ++ text))
      · refine ih ?_ (done ++ text) rest
        have hpos : 0 < file.length := by
          rw [List.isEmpty_iff, List.take_eq_nil_iff, not_or] at hempty
          exact List.length_pos_iff.2 hempty.2
        rw [List.length_drop]
        omega

/-- **A slice of a text** is its window. -/
theorem sliceTextFile_eq_some (hn : 0 < n) (h : file = encode cs) :
    sliceTextFile n file offset maxChars =
      some ((cs.drop offset).take maxChars, min offset cs.length, cs.length) := by
  have hspec := (sliceLoop_spec hn (Nat.le_add_right offset maxChars)
    (Nat.lt_succ_self file.length) [] []).1 cs h
  rw [List.take_nil, List.drop_nil] at hspec
  rw [List.take_drop]
  exact hspec

/-- **Nothing else has a slice.** -/
theorem sliceTextFile_eq_none (hn : 0 < n) (h : ∀ cs, file ≠ encode cs) :
    sliceTextFile n file offset maxChars = none := by
  have hspec := (sliceLoop_spec hn (Nat.le_add_right offset maxChars)
    (Nat.lt_succ_self file.length) [] []).2 h
  rw [List.take_nil, List.drop_nil] at hspec
  exact hspec

/-! ### The answers -/

/-- `_clamp_int`; `none` is an argument that is no integer. -/
def clampInt (value : Option ℤ) (default lo : ℤ) (hi : Option ℤ) : ℤ :=
  match value with
  | none => default
  | some n =>
    let n := max lo n
    match hi with
    | none => n
    | some hi => min n hi

/-- The window when the model passes no `max_chars`. -/
def defaultReadChars : ℤ := 20000

/-- The largest window. -/
def maxReadChars : ℤ := 500000

/-- The answer of `read_file`. -/
inductive ReadResult
  /-- A window of a text. -/
  | page (start : ℕ) (window : List Char) (total : ℕ)
  | ref (name : String)
  deriving DecidableEq

namespace ReadResult

/-- The characters that an answer shows. -/
def window : ReadResult → List Char
  | page _ window _ => window
  | ref _ => []

/-- The offset that the answer gives for the next call; without one there is nothing more. -/
def nextOffset : ReadResult → Option ℕ
  | page start window total => if start + window.length < total then some (start + window.length)
      else none
  | ref _ => none

/-- The text that shows a page; a reference has none. -/
def render (name : String) : ReadResult → Option String
  | page start window total =>
    let stop := start + window.length
    let header := "File: " ++ name ++ " (characters " ++ toString start ++ "–" ++ toString stop ++
      " of " ++ toString total ++ ")"
    let footer := match (page start window total).nextOffset with
      | some offset => "\n\n…[" ++ toString (total - stop) ++
          " more characters — call read_file again with offset=" ++ toString offset ++
          " to continue]"
      | none => ""
    some (header ++ "\n\n" ++ String.ofList window ++ footer)
  | ref _ => none

end ReadResult

/-- `_read_file` of a file with these bytes; `isText` tells whether its name is that of a text. -/
def readFile (isText : String → Bool) (n : ℕ) (file : List UInt8) (name : String)
    (maxChars offset : Option ℤ) : ReadResult :=
  if !isText name then .ref name
  else
    let maxChars := clampInt maxChars defaultReadChars 1 (some maxReadChars)
    let offset := clampInt offset 0 0 none
    match sliceTextFile n file offset.toNat maxChars.toNat with
    | none => .ref name
    | some (window, start, total) => .page start window total

/-- One call after the other, each from the offset that the last answer gave; `none` when the fuel
is used up. -/
def pages (isText : String → Bool) (n : ℕ) (file : List UInt8) (name : String)
    (args : ℕ → Option ℤ) : ℕ → ℕ → Option ℤ → Option (List ReadResult)
  | 0, _, _ => none
  | fuel + 1, i, offset =>
    let r := readFile isText n file name (args i) offset
    match r.nextOffset with
    | none => some [r]
    | some next => (pages isText n file name args fuel (i + 1) (some next)).map (r :: ·)

variable {isText : String → Bool} {name : String} {i : ℕ} {value : Option ℤ}

theorem clampInt_maxChars (value : Option ℤ) :
    0 < (clampInt value defaultReadChars 1 (some maxReadChars)).toNat := by
  unfold clampInt defaultReadChars maxReadChars
  split
  · decide
  · dsimp only
    omega

theorem clampInt_offset (offset : ℕ) : (clampInt (some (offset : ℤ)) 0 0 none).toNat = offset := by
  unfold clampInt
  dsimp only
  omega

theorem readFile_eq (htext : isText name = true) (hn : 0 < n) (h : file = encode cs)
    (value : Option ℤ) (hle : offset ≤ cs.length) :
    ∃ m, 0 < m ∧ readFile isText n file name value (some (offset : ℤ)) =
      .page offset ((cs.drop offset).take m) cs.length := by
  refine ⟨_, clampInt_maxChars value, ?_⟩
  unfold readFile
  dsimp only
  rw [htext, if_neg (by simp), clampInt_offset, sliceTextFile_eq_some hn h, Nat.min_eq_left hle]

theorem pages_succ {r : ReadResult}
    (hr : readFile isText n file name (args i) (some (offset : ℤ)) = r) :
    pages isText n file name args (fuel + 1) i (some (offset : ℤ)) =
      match r.nextOffset with
      | none => some [r]
      | some next =>
        (pages isText n file name args fuel (i + 1) (some (next : ℤ))).map (r :: ·) := by
  subst hr
  rfl

/-- The windows from an offset on are the rest of the text. -/
theorem pages_spec (htext : isText name = true) (hn : 0 < n) (h : file = encode cs)
    (args : ℕ → Option ℤ) (i : ℕ) (hle : offset ≤ cs.length) (hfuel : cs.length - offset < fuel) :
    ∃ rs, pages isText n file name args fuel i (some (offset : ℤ)) = some rs ∧
      rs.flatMap ReadResult.window = cs.drop offset := by
  induction fuel generalizing i offset with
  | zero => omega
  | succ fuel ih =>
    obtain ⟨m, hm, hr⟩ := readFile_eq htext hn h (args i) hle
    rw [pages_succ hr]
    have hlen : offset + ((cs.drop offset).take m).length = min (offset + m) cs.length := by
      rw [List.length_take, List.length_drop]
      omega
    by_cases hmore : offset + m < cs.length
    · have hnext : (ReadResult.page offset ((cs.drop offset).take m) cs.length).nextOffset =
          some (offset + m) := by
        rw [ReadResult.nextOffset, hlen, Nat.min_eq_left hmore.le, if_pos hmore]
      obtain ⟨rs, hrs, hall⟩ := ih (i + 1) hmore.le (by omega)
      rw [hnext]
      dsimp only
      refine ⟨_, Option.map_eq_some_iff.2 ⟨rs, hrs, rfl⟩, ?_⟩
      rw [List.flatMap_cons, hall, ReadResult.window, ← List.drop_drop, List.take_append_drop]
    · have hnext : (ReadResult.page offset ((cs.drop offset).take m) cs.length).nextOffset =
          none := by
        rw [ReadResult.nextOffset, hlen, if_neg (by omega)]
      rw [hnext]
      refine ⟨_, rfl, ?_⟩
      rw [List.flatMap_singleton, ReadResult.window, List.take_of_length_le]
      rw [List.length_drop]
      omega

end Backplane.FileTools
