import Backplane.Data.Strip
import Backplane.Llm.FileRefs

/-!
# Chunks of a text

A document is stored, and a page is ranked, in chunks: windows of the text of a bounded length, each
of which repeats the end of the one before it.

* `splitRecursive` : the spans that a text is put together from.
* `accumulate` : the spans gathered into chunks; `Covers` says where in the text they are.
* `finish` : what becomes of the part that is left at the end; a short one is joined to the last
  chunk.
* `chunkMarkdown` : all of it.
-/

namespace Backplane.Chunking

open Attachments (isSpace)
open Span (slice split reattach blocks)

/-- The characters of a string. -/
abbrev Text := List Char

/-- `str.strip` -/
def strip (text : Text) : Text := Span.strip isSpace text

/-- `_SEPARATORS` -/
def separators : List Text := ["\n#", "\n\n", "\n", ". ", " ", ""].map String.toList

/-- `_split_recursive` -/
def splitRecursive (maxLen : ℕ) : List Text → Text → List Text
  | [], text => if text = [] then [] else [text]
  | sep :: rest, text =>
    if text.length ≤ maxLen then if text = [] then [] else [text]
    else if sep = [] then blocks maxLen text
    -- the next separator is tried, on a text that is as long as before
    else if ¬sep <:+: text then splitRecursive maxLen rest text
    else ((reattach sep (split sep text)).filter (· ≠ [])).flatMap fun piece =>
      if piece.length ≤ maxLen then [piece] else splitRecursive maxLen rest piece

/-- `chunks` and `buf` -/
structure Scan where
  chunks : List Text := []
  /-- What comes after them. -/
  buf : Text := []
deriving DecidableEq

/-- `buf[max_len - overlap : max_len]`; an index below zero counts from the end. -/
def tailOf (maxLen overlap : ℕ) (buf : Text) : Text :=
  slice buf (if overlap ≤ maxLen then maxLen - overlap else buf.length - (overlap - maxLen)) maxLen

/-- `while len(buf) > max_len`; `none`: after so many turns it has not ended. -/
def hardCut (maxLen overlap : ℕ) : ℕ → Scan → Option Scan
  | 0, _ => none
  | fuel + 1, s =>
    if maxLen < s.buf.length then
      hardCut maxLen overlap fuel
        { chunks := s.chunks ++ [strip (s.buf.take maxLen)]
          buf :=
            if overlap = 0 then s.buf.drop maxLen
            else tailOf maxLen overlap s.buf ++ s.buf.drop maxLen }
    else some s

/-- The buffer is flushed, and its tail goes before `span`. -/
def flush (overlap : ℕ) (s : Scan) (span : Text) : Scan :=
  if s.buf = [] then { s with buf := span }
  else
    { chunks := s.chunks ++ [strip s.buf]
      buf := (if overlap = 0 then [] else s.buf.drop (s.buf.length - overlap)) ++ span }

/-- One turn of `for span in spans`. -/
def addSpan (maxLen overlap : ℕ) (s : Scan) (span : Text) : Option Scan :=
  if (s.buf ++ span).length ≤ maxLen then some { s with buf := s.buf ++ span }
  else hardCut maxLen overlap ((flush overlap s span).buf.length + 1) (flush overlap s span)

/-- `for span in spans` -/
def accumulate (maxLen overlap : ℕ) (spans : List Text) : Option Scan :=
  spans.foldlM (addSpan maxLen overlap) {}

/-- `chunks and len(buf) < min_len`, where something is left in the buffer. -/
def Scan.folds (minLen : ℕ) (s : Scan) : Bool :=
  strip s.buf ≠ [] && s.chunks ≠ [] && s.buf.length < minLen

/-- The last of the chunks so far. -/
def Scan.last (s : Scan) : Text := s.chunks.getLastD []

/-- The last part is added to the chunks, or joined to the last of them. -/
def Scan.finish (minLen : ℕ) (s : Scan) : List Text :=
  let chunks :=
    if strip s.buf = [] then s.chunks
    else if s.folds minLen then s.chunks.dropLast ++ [strip (s.last ++ s.buf)]
    else s.chunks ++ [strip s.buf]
  chunks.filter fun c => strip c ≠ []

/-- The buffer and the chunks before a short rest is joined, of a stripped text. -/
def scan (maxLen overlap : ℕ) (text : Text) : Option Scan :=
  accumulate maxLen overlap (splitRecursive maxLen separators text)

/-- `chunk_markdown`; `none`: it does not end. -/
def chunkMarkdown (text : Text) (maxLen minLen overlap : ℕ) : Option (List Text) :=
  let text := strip text
  if text = [] then some []
  else if text.length ≤ maxLen then some [text]
  else (scan maxLen overlap text).map (Scan.finish minLen)

variable {maxLen minLen overlap lo hi e k fuel : ℕ} {text span : Text} {s s' : Scan}
  {ws : List (ℕ × ℕ)}

/-! ### Spans -/

theorem flatten_filter_ne_nil (parts : List Text) :
    (parts.filter (· ≠ [])).flatten = parts.flatten := by
  induction parts with
  | nil => rfl
  | cons part parts ih =>
    by_cases h : part = [] <;> simp [h, ← ih]

theorem flatten_flatMap_eq {parts : List Text} {f : Text → List Text}
    (h : ∀ part ∈ parts, (f part).flatten = part) :
    (parts.flatMap f).flatten = parts.flatten := by
  induction parts with
  | nil => rfl
  | cons part parts ih =>
    rw [List.flatMap_cons, List.flatten_append, List.flatten_cons, h part (by simp),
      ih fun q hq => h q (by simp [hq])]

/-- The spans put together are the text. -/
theorem flatten_splitRecursive (hmax : 0 < maxLen) (seps : List Text) (text : Text) :
    (splitRecursive maxLen seps text).flatten = text := by
  induction seps generalizing text with
  | nil => by_cases h : text = [] <;> simp [splitRecursive, h]
  | cons sep rest ih =>
    rw [splitRecursive]
    split_ifs with hlen hnil hsep hin
    · simp [hnil]
    · simp
    · exact Span.flatten_blocks hmax text
    · rw [flatten_flatMap_eq, flatten_filter_ne_nil, Span.flatten_reattach_split hsep]
      intro piece _
      split_ifs with hp
      · simp
      · exact ih piece
    · exact ih text

/-! ### Where the chunks are -/

/-- A window `w` and one after it: neither end goes back, and they share at most `overlap`
characters. -/
structure Follows (overlap : ℕ) (w w' : ℕ × ℕ) : Prop where
  /-- Where they begin. -/
  fst_le : w.1 ≤ w'.1
  /-- Where they end. -/
  snd_lt : w.2 < w'.2
  /-- What they share. -/
  shared : w.2 ≤ w'.1 + overlap

/-- The chunks are the windows `ws` of the text, and the buffer is the window from `lo` to `hi`. -/
structure Covers (maxLen overlap : ℕ) (text : Text) (ws : List (ℕ × ℕ)) (s : Scan) (lo hi : ℕ) :
    Prop where
  /-- Each chunk is a window without the spaces at its ends. -/
  chunks : s.chunks = ws.map fun w => strip (slice text w.1 w.2)
  /-- The buffer is the next window. -/
  buf : s.buf = slice text lo hi
  /-- It does not end before it begins. -/
  le : lo ≤ hi
  /-- It does not go beyond the text. -/
  inside : hi ≤ text.length
  /-- No window of a chunk is too long, or ends before it begins. -/
  sized : ∀ w ∈ ws, w.1 ≤ w.2 ∧ w.2 ≤ w.1 + maxLen
  /-- The windows are in order. -/
  ordered : (ws ++ [(lo, hi)]).Pairwise (Follows overlap)
  /-- What comes before the buffer is in one of them. -/
  covered : ∀ i < lo, ∃ w ∈ ws, w.1 ≤ i ∧ i < w.2
  /-- The buffer begins in the last of them, or right after it. -/
  reached : ∀ w ∈ ws.getLast?, lo ≤ w.2

theorem Covers.init (maxLen overlap : ℕ) (text : Text) : Covers maxLen overlap text [] {} 0 0 where
  chunks := rfl
  buf := rfl
  le := le_rfl
  inside := Nat.zero_le _
  sized := fun w hw => absurd hw List.not_mem_nil
  ordered := List.pairwise_singleton _ _
  covered := fun i hi => absurd hi (Nat.not_lt_zero i)
  reached := fun w hw => absurd hw (by simp)

theorem Covers.length_buf (h : Covers maxLen overlap text ws s lo hi) : s.buf.length = hi - lo := by
  rw [h.buf, Span.length_slice h.inside]

theorem Covers.behind (h : Covers maxLen overlap text ws s lo hi) {w : ℕ × ℕ} (hw : w ∈ ws) :
    Follows overlap w (lo, hi) :=
  (List.pairwise_append.mp h.ordered).2.2 w hw _ (List.mem_singleton_self _)

/-- The buffer goes on to `e`. -/
theorem Covers.extend (h : Covers maxLen overlap text ws s lo hi) (he : hi ≤ e)
    (hin : e ≤ text.length) :
    Covers maxLen overlap text ws { s with buf := s.buf ++ slice text hi e } lo e where
  chunks := h.chunks
  buf := by
    dsimp only
    rw [h.buf, Span.slice_append h.le he]
  le := h.le.trans he
  inside := hin
  sized := h.sized
  ordered := by
    have hp := List.pairwise_append.mp h.ordered
    refine List.pairwise_append.mpr ⟨hp.1, List.pairwise_singleton _ _, ?_⟩
    intro w hw w' hw'
    cases List.mem_singleton.mp hw'
    have hb := h.behind hw
    exact ⟨hb.fst_le, hb.snd_lt.trans_le he, hb.shared⟩
  covered := h.covered
  reached := h.reached

/-- The buffer up to `e` becomes a chunk, and the buffer begins again at `k`, at most `overlap`
characters before. -/
theorem Covers.push (h : Covers maxLen overlap text ws s lo hi) {hi' : ℕ} (hlo : lo ≤ k)
    (hk : k ≤ e) (hshared : e ≤ k + overlap) (hlen : e ≤ lo + maxLen) (hend : e < hi')
    (hhi : hi ≤ hi') (hin : hi' ≤ text.length) (hstrict : e = hi ∨ lo + overlap < e) :
    Covers maxLen overlap text (ws ++ [(lo, e)])
      ⟨s.chunks ++ [strip (slice text lo e)], slice text k hi'⟩ k hi' where
  chunks := by simp [h.chunks]
  buf := rfl
  le := hk.trans hend.le
  inside := hin
  sized := by
    intro w hw
    rcases List.mem_append.mp hw with hw | hw
    · exact h.sized w hw
    · cases List.mem_singleton.mp hw
      exact ⟨hlo.trans hk, hlen⟩
  ordered := by
    have hp := List.pairwise_append.mp h.ordered
    refine List.pairwise_append.mpr
      ⟨List.pairwise_append.mpr ⟨hp.1, List.pairwise_singleton _ _, ?_⟩,
        List.pairwise_singleton _ _, ?_⟩
    · intro w hw w' hw'
      cases List.mem_singleton.mp hw'
      obtain ⟨h₁, h₂, h₃⟩ := h.behind hw
      exact ⟨h₁, by dsimp only at *; omega, h₃⟩
    · intro w hw w' hw'
      cases List.mem_singleton.mp hw'
      rcases List.mem_append.mp hw with hw | hw
      · obtain ⟨h₁, h₂, h₃⟩ := h.behind hw
        exact ⟨h₁.trans hlo, h₂.trans_le hhi, h₃.trans (by dsimp only; omega)⟩
      · cases List.mem_singleton.mp hw
        exact ⟨hlo, hend, hshared⟩
  covered := by
    intro i hi
    by_cases hlt : i < lo
    · obtain ⟨w, hw, h₁, h₂⟩ := h.covered i hlt
      exact ⟨w, List.mem_append_left _ hw, h₁, h₂⟩
    · exact ⟨(lo, e), by simp, not_lt.mp hlt, hi.trans_le hk⟩
  reached := by
    intro w hw
    rw [List.getLast?_concat] at hw
    cases hw
    exact hk

/-- What the hard cut leaves of the buffer is its end from `overlap` characters before the cut. -/
theorem cut_buf_eq (hov : overlap ≤ maxLen) {buf : Text} (hlen : maxLen ≤ buf.length) :
    (if overlap = 0 then buf.drop maxLen else tailOf maxLen overlap buf ++ buf.drop maxLen) =
      buf.drop (maxLen - overlap) := by
  split_ifs with h
  · rw [h, Nat.sub_zero]
  · rw [tailOf, if_pos hov, Span.slice_append_drop (Nat.sub_le _ _) hlen]

/-- The hard cut ends, and with a buffer that is short enough. -/
theorem Covers.hardCut (hov : overlap < maxLen) (h : Covers maxLen overlap text ws s lo hi)
    (hfuel : s.buf.length < fuel) :
    ∃ s' ws' lo', Chunking.hardCut maxLen overlap fuel s = some s' ∧
      Covers maxLen overlap text ws' s' lo' hi ∧ s'.buf.length ≤ maxLen := by
  induction fuel generalizing s ws lo with
  | zero => exact absurd hfuel (Nat.not_lt_zero _)
  | succ fuel ih =>
    rw [Chunking.hardCut]
    by_cases hlong : maxLen < s.buf.length
    · rw [if_pos hlong]
      have hlen := h.length_buf
      have hcut := cut_buf_eq hov.le hlong.le
      rw [hcut]
      have htake : s.buf.take maxLen = slice text lo (lo + maxLen) := by
        rw [h.buf, Span.slice_take (by omega)]
      have hdrop : s.buf.drop (maxLen - overlap) = slice text (lo + (maxLen - overlap)) hi := by
        rw [h.buf, Span.slice_drop]
      rw [htake, hdrop]
      -- the buffer gets shorter by `maxLen - overlap`, which is not zero
      refine ih (h.push (e := lo + maxLen) (by omega) (by omega) (by omega) le_rfl (by omega) le_rfl
        h.inside (Or.inr (by omega))) ?_
      rw [Span.length_slice h.inside]
      omega
    · rw [if_neg hlong]
      exact ⟨s, ws, lo, rfl, h, not_lt.mp hlong⟩

theorem Covers.flush (h : Covers maxLen overlap text ws s lo hi) (hbuf : s.buf.length ≤ maxLen)
    (hlt : hi < e) (hin : e ≤ text.length) :
    ∃ ws' lo', Covers maxLen overlap text ws' (flush overlap s (slice text hi e)) lo' e := by
  rw [Chunking.flush]
  by_cases hnil : s.buf = []
  · rw [if_pos hnil]
    refine ⟨ws, lo, ?_⟩
    have hext := h.extend hlt.le hin
    rw [hnil, List.nil_append] at hext
    exact hext
  · rw [if_neg hnil]
    have hlen := h.length_buf
    have htail : (if overlap = 0 then [] else s.buf.drop (s.buf.length - overlap)) =
        slice text (lo + (hi - lo - overlap)) hi := by
      split_ifs with h0
      · rw [slice, List.drop_eq_nil_of_le]
        rw [List.length_take, h0]
        have := h.le
        omega
      · rw [hlen, h.buf, Span.slice_drop]
    have hle := h.le
    rw [htail, Span.slice_append (by omega) hlt.le, h.buf]
    exact ⟨_, _, h.push (by omega) (by omega) (by omega) (by omega) hlt hlt.le hin (Or.inl rfl)⟩

/-- One span more is scanned. -/
theorem Covers.addSpan (hov : overlap < maxLen) (h : Covers maxLen overlap text ws s lo hi)
    (hbuf : s.buf.length ≤ maxLen) (he : hi ≤ e) (hin : e ≤ text.length) :
    ∃ s' ws' lo', Chunking.addSpan maxLen overlap s (slice text hi e) = some s' ∧
      Covers maxLen overlap text ws' s' lo' e ∧ s'.buf.length ≤ maxLen := by
  rw [Chunking.addSpan]
  split_ifs with hfit
  · exact ⟨_, ws, lo, rfl, h.extend he hin, hfit⟩
  · have hlt : hi < e := by
      rw [List.length_append, Span.length_slice hin] at hfit
      omega
    obtain ⟨ws', lo', hflush⟩ := h.flush hbuf hlt hin
    exact hflush.hardCut hov (Nat.lt_succ_self _)

theorem Covers.addSpans (hov : overlap < maxLen) {spans : List Text}
    (h : Covers maxLen overlap text ws s lo hi) (hbuf : s.buf.length ≤ maxLen)
    (hrest : text.drop hi = spans.flatten) :
    ∃ s' ws' lo', spans.foldlM (Chunking.addSpan maxLen overlap) s = some s' ∧
      Covers maxLen overlap text ws' s' lo' text.length ∧ s'.buf.length ≤ maxLen := by
  induction spans generalizing s ws lo hi with
  | nil =>
    have hend : hi = text.length :=
      le_antisymm h.inside (List.drop_eq_nil_iff.mp hrest)
    exact ⟨s, ws, lo, rfl, hend ▸ h, hbuf⟩
  | cons span spans ih =>
    rw [List.flatten_cons] at hrest
    have hin : hi + span.length ≤ text.length := by
      have := congrArg List.length hrest
      rw [List.length_drop, List.length_append] at this
      have := h.inside
      omega
    have hspan : slice text hi (hi + span.length) = span := by
      rw [slice, List.drop_take, hrest, Nat.add_sub_cancel_left, List.take_left]
    obtain ⟨s₁, ws₁, lo₁, hs₁, h₁, hb₁⟩ := h.addSpan hov hbuf (Nat.le_add_right hi _) hin
    rw [hspan] at hs₁
    rw [List.foldlM_cons, hs₁]
    refine ih h₁ hb₁ ?_
    rw [← List.drop_drop, hrest, List.drop_left]

/-- The scan of a text ends, with chunks and a buffer that cover it. -/
theorem exists_scan (hov : overlap < maxLen) (text : Text) :
    ∃ s ws lo, scan maxLen overlap text = some s ∧
      Covers maxLen overlap text ws s lo text.length ∧ s.buf.length ≤ maxLen :=
  (Covers.init maxLen overlap text).addSpans hov (Nat.zero_le _)
    (flatten_splitRecursive (by omega) separators text).symm

end Backplane.Chunking
