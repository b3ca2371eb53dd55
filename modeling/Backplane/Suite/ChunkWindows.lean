import Backplane.Suite.Chunking

/-!
# What the chunks of a text hold

The scan of a text leaves windows of it, none of them too long.  Then a short rest is joined to the
last chunk, although the two of them may be longer than a chunk may be, and although the rest
begins with characters that the chunk ends with.

* `chunk_sizes` : when no chunk is too long.
* `chunk_coverage` : the chunks are windows of the text, unless a rest that repeats something is
  joined.
-/

namespace Backplane.Chunking

open Attachments (isSpace)
open Span (slice Trimmed)

variable {maxLen minLen overlap lo : ℕ} {text : Text} {s : Scan} {ws : List (ℕ × ℕ)}

/-! ### The end of a scan -/

/-- The text of a window, without the spaces around it. -/
def chunkAt (text : Text) (w : ℕ × ℕ) : Text := strip (slice text w.1 w.2)

/-- Something other than spaces. -/
def Solid (text : Text) : Prop := strip text ≠ []

instance : DecidablePred Solid := fun text => inferInstanceAs (Decidable (strip text ≠ []))

theorem solid_strip {text : Text} : Solid (strip text) ↔ Solid text := by
  rw [Solid, Solid, strip, strip, Span.strip_strip]

theorem solid_iff {text : Text} : Solid text ↔ ∃ c ∈ text, isSpace c = false := by
  rw [Solid, strip, ne_eq, Span.strip_eq_nil]
  simp

theorem folds_iff : s.folds minLen = true ↔
    Solid s.buf ∧ s.chunks ≠ [] ∧ s.buf.length < minLen := by
  simp [Scan.folds, Solid, and_assoc]

theorem finish_of_folds (h : s.folds minLen = true) :
    s.finish minLen =
      (s.chunks.dropLast ++ [strip (s.last ++ s.buf)]).filter fun c => strip c ≠ [] := by
  rw [Scan.finish, if_neg (folds_iff.mp h).1, if_pos h]

theorem finish_of_not_folds (h : s.folds minLen = false) :
    s.finish minLen = (s.chunks ++ [strip s.buf]).filter fun c => strip c ≠ [] := by
  rw [Scan.finish]
  split_ifs with hblank hf
  · have : strip (strip s.buf) = [] := by rw [hblank]; rfl
    simp [List.filter_append, this]
  · rw [h] at hf
    cases hf
  · rfl

theorem chunkMarkdown_of_short (h : (strip text).length ≤ maxLen) :
    chunkMarkdown text maxLen minLen overlap =
      some (if strip text = [] then [] else [strip text]) := by
  rw [chunkMarkdown]
  split_ifs <;> rfl

theorem chunkMarkdown_of_long (h : maxLen < (strip text).length) :
    chunkMarkdown text maxLen minLen overlap =
      (scan maxLen overlap (strip text)).map (Scan.finish minLen) := by
  have hne : strip text ≠ [] := List.ne_nil_of_length_pos (by omega)
  rw [chunkMarkdown]
  simp only [hne, if_false, not_le.mpr h]

/-- The last character of a stripped text is not a space, and so for what it ends with. -/
theorem last_of_suffix (ht : Trimmed isSpace text) {tail : Text} (h : tail <:+ text)
    (hne : tail ≠ []) : ∀ c ∈ tail.getLast?, isSpace c = false := by
  obtain ⟨front, rfl⟩ := h
  rw [← List.getLast?_append_of_ne_nil front hne]
  exact ht.last

theorem Covers.buf_suffix (h : Covers maxLen overlap text ws s lo text.length) :
    s.buf = text.drop lo := by
  rw [h.buf, Span.slice_to_end le_rfl]

/-- A chunk followed by the rest of a text has no spaces around it, unless the chunk is empty. -/
theorem Covers.strip_joined (h : Covers maxLen overlap text ws s lo text.length)
    (ht : Trimmed isSpace text) (hbuf : s.buf ≠ []) (hlast : s.last ≠ []) :
    strip (s.last ++ s.buf) = s.last ++ s.buf := by
  have hmem : s.last ∈ s.chunks := by
    have hne : s.chunks ≠ [] := by
      intro h0
      exact hlast (by rw [Scan.last, h0]; rfl)
    rw [Scan.last, List.getLastD_eq_getLast?, List.getLast?_eq_some_getLast hne]
    exact List.getLast_mem hne
  have htrim : Trimmed isSpace s.last := by
    rw [h.chunks] at hmem
    obtain ⟨w, -, hw⟩ := List.mem_map.mp hmem
    rw [← hw]
    exact Span.trimmed_strip isSpace _
  refine Span.strip_of_trimmed (Span.trimmed_append htrim ?_ hlast hbuf)
  exact last_of_suffix ht (h.buf_suffix ▸ List.drop_suffix lo text) hbuf

/-! ### Sizes -/

/-- No chunk is empty or longer than `maxLen`. -/
def Sized (maxLen : ℕ) (chunks : List Text) : Prop := ∀ c ∈ chunks, c ≠ [] ∧ c.length ≤ maxLen

/-- A short rest of a long text is joined to a chunk only where the two together are not too
long. -/
def RestFits (text : Text) (maxLen minLen overlap : ℕ) : Prop :=
  ∀ s, maxLen < (strip text).length → scan maxLen overlap (strip text) = some s →
    s.folds minLen = true → s.last.length + s.buf.length ≤ maxLen

theorem Covers.length_chunk_le (h : Covers maxLen overlap text ws s lo text.length) {c : Text}
    (hc : c ∈ s.chunks) : c.length ≤ maxLen := by
  rw [h.chunks] at hc
  obtain ⟨w, hw, rfl⟩ := List.mem_map.mp hc
  have hlt : w.2 < text.length := (h.behind hw).snd_lt
  have hlen := Span.length_slice (s := w.1) hlt.le
  have := Span.length_strip_le (p := isSpace) (l := slice text w.1 w.2)
  have := (h.sized w hw).2
  rw [strip]
  omega

theorem ne_nil_of_solid {c : Text} (h : strip c ≠ []) : c ≠ [] := by
  rintro rfl
  exact h rfl

/-- What a scan leaves becomes chunks of the right size exactly when the rest is not joined, or when
it is short enough to be. -/
theorem Covers.sized_finish (h : Covers maxLen overlap text ws s lo text.length)
    (ht : Trimmed isSpace text) (hbuf : s.buf.length ≤ maxLen) :
    Sized maxLen (s.finish minLen) ↔
      (s.folds minLen = true → s.last.length + s.buf.length ≤ maxLen) := by
  cases hf : s.folds minLen with
  | false =>
    refine iff_of_true ?_ (fun h0 => absurd h0 Bool.false_ne_true)
    rw [finish_of_not_folds hf]
    intro c hc
    obtain ⟨hmem, hsolid⟩ := List.mem_filter.mp hc
    refine ⟨ne_nil_of_solid (of_decide_eq_true hsolid), ?_⟩
    rcases List.mem_append.mp hmem with hmem | hmem
    · exact h.length_chunk_le hmem
    · rw [List.mem_singleton.mp hmem]
      exact Span.length_strip_le.trans hbuf
  | true =>
    obtain ⟨hsolid, hchunks, -⟩ := folds_iff.mp hf
    have hne : s.buf ≠ [] := ne_nil_of_solid hsolid
    have hjoin : Solid (s.last ++ s.buf) := by
      obtain ⟨c, hc, hspace⟩ := solid_iff.mp hsolid
      exact solid_iff.mpr ⟨c, List.mem_append_right _ hc, hspace⟩
    rw [finish_of_folds hf]
    constructor
    · intro hsized _
      have hmem := hsized (strip (s.last ++ s.buf))
        (List.mem_filter.mpr ⟨by simp, decide_eq_true (solid_strip.mpr hjoin)⟩)
      by_cases hlast : s.last = []
      · rw [hlast, List.length_nil, Nat.zero_add]
        exact hbuf
      · rw [h.strip_joined ht hne hlast, List.length_append] at hmem
        exact hmem.2
    · intro hfits c hc
      obtain ⟨hmem, hc⟩ := List.mem_filter.mp hc
      refine ⟨ne_nil_of_solid (of_decide_eq_true hc), ?_⟩
      rcases List.mem_append.mp hmem with hmem | hmem
      · exact h.length_chunk_le (List.dropLast_subset _ hmem)
      · rw [List.mem_singleton.mp hmem]
        have hlen := Span.length_strip_le (p := isSpace) (l := s.last ++ s.buf)
        rw [List.length_append] at hlen
        exact hlen.trans (hfits rfl)

/-- The chunks are the windows `ws` of the text, which are in order, overlap little, and leave out
no character but spaces. -/
structure Coverage (text : Text) (overlap : ℕ) (chunks : List Text) (ws : List (ℕ × ℕ)) : Prop where
  /-- Each chunk is a window, up to the spaces around it. -/
  windows : chunks.map strip = ws.map (chunkAt text)
  /-- The windows are windows of the text. -/
  inside : ∀ w ∈ ws, w.1 ≤ w.2 ∧ w.2 ≤ text.length
  /-- They are in order, and share at most `overlap` characters. -/
  ordered : ws.Pairwise (Follows overlap)
  /-- Every character is in one of them. -/
  covered : ∀ i c, text[i]? = some c → isSpace c = false → ∃ w ∈ ws, w.1 ≤ i ∧ i < w.2

/-- The rest that is joined to the last chunk of a long text begins with spaces for as long as it
repeats something, and with the chunk before it it is again the end of the text. -/
def RestContinues (text : Text) (maxLen minLen overlap : ℕ) : Prop :=
  ∀ s, maxLen < (strip text).length → scan maxLen overlap (strip text) = some s →
    s.folds minLen = true →
      (∀ c ∈ s.buf.take overlap, isSpace c = true) ∧ s.last ++ s.buf <:+ strip text

/-- A rest that is joined to the last chunk of a long text makes the end of the text with it. -/
def RestEnds (text : Text) (maxLen minLen overlap : ℕ) : Prop :=
  ∀ s, maxLen < (strip text).length → scan maxLen overlap (strip text) = some s →
    s.folds minLen = true → s.last ++ s.buf <:+ strip text

/-- Windows that cover a text still do without those that hold only spaces. -/
theorem coverage_filter (hin : ∀ w ∈ ws, w.1 ≤ w.2 ∧ w.2 ≤ text.length)
    (hord : ws.Pairwise (Follows overlap))
    (hcov : ∀ i c, text[i]? = some c → isSpace c = false → ∃ w ∈ ws, w.1 ≤ i ∧ i < w.2) :
    Coverage text overlap ((ws.map (chunkAt text)).filter fun c => strip c ≠ [])
      (ws.filter fun w => strip (chunkAt text w) ≠ []) where
  windows := by
    rw [List.filter_map, List.map_map]
    refine List.map_congr_left fun w _ => ?_
    exact Span.strip_strip
  inside := fun w hw => hin w (List.mem_of_mem_filter hw)
  ordered := hord.sublist List.filter_sublist
  covered := by
    intro i c hi hc
    obtain ⟨w, hw, h₁, h₂⟩ := hcov i c hi hc
    refine ⟨w, List.mem_filter.mpr ⟨hw, decide_eq_true ?_⟩, h₁, h₂⟩
    exact solid_strip.mpr (solid_iff.mpr ⟨c, Span.mem_slice.mpr ⟨i, h₁, h₂, hi⟩, hc⟩)

theorem Covers.chunks_eq (h : Covers maxLen overlap text ws s lo text.length) :
    s.chunks = ws.map (chunkAt text) := h.chunks

/-- A position of the text is in the window of a chunk or in the buffer. -/
theorem Covers.exists_window (h : Covers maxLen overlap text ws s lo text.length) {i : ℕ} {c : Char}
    (hi : text[i]? = some c) : (∃ w ∈ ws, w.1 ≤ i ∧ i < w.2) ∨ (lo ≤ i ∧ i < text.length) := by
  obtain ⟨hlt, -⟩ := List.getElem?_eq_some_iff.mp hi
  by_cases hlo : i < lo
  · exact Or.inl (h.covered i hlo)
  · exact Or.inr ⟨not_lt.mp hlo, hlt⟩

theorem Covers.inside_append (h : Covers maxLen overlap text ws s lo text.length) :
    ∀ w ∈ ws ++ [(lo, text.length)], w.1 ≤ w.2 ∧ w.2 ≤ text.length := by
  intro w hw
  rcases List.mem_append.mp hw with hw | hw
  · exact ⟨(h.sized w hw).1, (h.behind hw).snd_lt.le⟩
  · rw [List.mem_singleton.mp hw]
    exact ⟨h.le, le_rfl⟩

theorem Covers.coverage_of_not_folds (h : Covers maxLen overlap text ws s lo text.length)
    (hf : s.folds minLen = false) : ∃ ws', Coverage text overlap (s.finish minLen) ws' := by
  have hchunks : s.chunks ++ [strip s.buf] = (ws ++ [(lo, text.length)]).map (chunkAt text) := by
    rw [List.map_append, ← h.chunks_eq, h.buf]
    rfl
  rw [finish_of_not_folds hf, hchunks]
  refine ⟨_, coverage_filter h.inside_append h.ordered ?_⟩
  intro i c hi _
  rcases h.exists_window hi with ⟨w, hw, hlt⟩ | hlt
  · exact ⟨w, List.mem_append_left _ hw, hlt⟩
  · exact ⟨(lo, text.length), by simp, hlt⟩

/-- The last window without its chunk, and one from `e` to the end of the text in its place. -/
theorem Covers.replaceLast {a b e : ℕ}
    (h : Covers maxLen overlap text (ws ++ [(a, b)]) s lo text.length) (hae : a ≤ e) (hel : e ≤ lo)
    (hspace : ∀ i c, a ≤ i → i < e → text[i]? = some c → isSpace c = true) :
    Coverage text overlap
      (((ws ++ [(e, text.length)]).map (chunkAt text)).filter fun c => strip c ≠ [])
      ((ws ++ [(e, text.length)]).filter fun w => strip (chunkAt text w) ≠ []) := by
  have hp := List.pairwise_append.mp (List.pairwise_append.mp h.ordered).1
  refine coverage_filter ?_ (List.pairwise_append.mpr ⟨hp.1, List.pairwise_singleton _ _, ?_⟩) ?_
  · intro w hw
    rcases List.mem_append.mp hw with hw | hw
    · exact h.inside_append w (List.mem_append_left _ (List.mem_append_left _ hw))
    · rw [List.mem_singleton.mp hw]
      exact ⟨hel.trans h.le, le_rfl⟩
  · intro w hw w' hw'
    cases List.mem_singleton.mp hw'
    obtain ⟨h₁, -, h₃⟩ := hp.2.2 w hw _ (List.mem_singleton_self _)
    have h₂ := (h.behind (List.mem_append_left _ hw)).snd_lt
    exact ⟨h₁.trans hae, h₂, h₃.trans (Nat.add_le_add_right hae _)⟩
  · intro i c hi hc
    by_cases hei : e ≤ i
    · exact ⟨(e, text.length), by simp, hei, (List.getElem?_eq_some_iff.mp hi).1⟩
    · -- before `e` the windows of the other chunks do, for the last one has only spaces there
      have hlo : i < lo := by omega
      obtain ⟨w, hw, h₁, h₂⟩ := h.covered i hlo
      rcases List.mem_append.mp hw with hw | hw
      · exact ⟨w, List.mem_append_left _ hw, h₁, h₂⟩
      · rw [List.mem_singleton.mp hw] at h₁
        rw [hspace i c h₁ (not_le.mp hei) hi] at hc
        cases hc

/-- A rest that goes on where the last chunk ends is a window with it. -/
theorem Covers.coverage_of_folds (h : Covers maxLen overlap text ws s lo text.length)
    (hf : s.folds minLen = true) (hblank : ∀ c ∈ s.buf.take overlap, isSpace c = true)
    (hend : s.last ++ s.buf <:+ text) : ∃ ws', Coverage text overlap (s.finish minLen) ws' := by
  obtain ⟨-, hchunks, -⟩ := folds_iff.mp hf
  rcases List.eq_nil_or_concat ws with rfl | ⟨ws, ⟨a, b⟩, rfl⟩
  · exact absurd h.chunks_eq hchunks
  rw [List.concat_eq_append] at h
  have hbehind := h.behind (List.mem_append_right ws (List.mem_singleton_self (a, b)))
  obtain ⟨hal, -, hshared⟩ := hbehind
  dsimp only at hal hshared
  have hlob : lo ≤ b := h.reached (a, b) (by simp)
  have hinit : s.chunks.dropLast = ws.map (chunkAt text) := by
    rw [h.chunks_eq, List.map_append, List.map_singleton, List.dropLast_concat]
  -- what the rest repeats of the last window are spaces, so the chunk is what comes before
  have hrep : ∀ c ∈ slice text lo b, isSpace c = true := by
    intro c hc
    obtain ⟨i, h₁, h₂, hi⟩ := Span.mem_slice.mp hc
    refine hblank c (List.mem_iff_getElem?.mpr ⟨i - lo, ?_⟩)
    rw [h.buf_suffix, List.getElem?_take, if_pos (by omega), List.getElem?_drop, ← hi]
    congr 1
    omega
  have hlast : s.last = strip (slice text a lo) := by
    rw [Scan.last, h.chunks_eq, List.map_append, List.map_singleton, List.getLastD_concat, chunkAt,
      ← Span.slice_append hal hlob, strip, Span.strip_append_right hrep]
    rfl
  by_cases hnil : s.last = []
  · have hspace : ∀ i c, a ≤ i → i < lo → text[i]? = some c → isSpace c = true := by
      intro i c h₁ h₂ hi
      exact Span.strip_eq_nil.mp (hlast.symm.trans hnil) c (Span.mem_slice.mpr ⟨i, h₁, h₂, hi⟩)
    have hjoin : strip (s.last ++ s.buf) = chunkAt text (lo, text.length) := by
      rw [hnil, List.nil_append, h.buf]
      rfl
    have hcov := h.replaceLast hal le_rfl hspace
    rw [finish_of_folds hf, hinit, hjoin]
    exact ⟨_, by simpa only [List.map_append, List.map_singleton] using hcov⟩
  · -- the chunk ends with no space, and it ends where the rest begins
    obtain ⟨front, hfront⟩ := hend
    have hfront' : front ++ s.last = text.take lo := by
      have htext : text.take lo ++ s.buf = front ++ s.last ++ s.buf := by
        rw [h.buf_suffix, List.take_append_drop, ← h.buf_suffix, List.append_assoc, hfront]
      exact (List.append_cancel_right htext).symm
    have hu : slice text a lo ≠ [] := by
      intro h0
      rw [hlast, h0] at hnil
      exact hnil rfl
    have hlastu : ∀ c ∈ (slice text a lo).getLast?, isSpace c = false := by
      have hsplit : (text.take lo).take a ++ slice text a lo = text.take lo :=
        List.take_append_drop a _
      rw [← List.getLast?_append_of_ne_nil ((text.take lo).take a) hu, hsplit, ← hfront',
        List.getLast?_append_of_ne_nil _ hnil, hlast]
      exact (Span.trimmed_strip isSpace _).last
    obtain ⟨pre, hpre, hspace⟩ := Span.exists_append_strip_of_last hlastu
    have hjoin : strip (s.last ++ s.buf) = chunkAt text (a, text.length) := by
      have hwin : slice text a text.length = pre ++ (s.last ++ s.buf) := by
        rw [← Span.slice_append hal h.le, ← h.buf, hpre, hlast, strip, List.append_assoc]
      rw [chunkAt, hwin, strip, strip, Span.strip_append_left hspace]
    have hcov := h.replaceLast (e := a) le_rfl hal (fun i c h₁ h₂ => absurd h₁ (not_le.mpr h₂))
    rw [finish_of_folds hf, hinit, hjoin]
    exact ⟨_, by simpa only [List.map_append, List.map_singleton] using hcov⟩

/-- In windows that cover the text, the joined rest is the end of the last one. -/
theorem Covers.suffix_of_coverage (h : Covers maxLen overlap text ws s lo text.length)
    (ht : Trimmed isSpace text) (hf : s.folds minLen = true) {ws' : List (ℕ × ℕ)}
    (hcov : Coverage text overlap (s.finish minLen) ws') : s.last ++ s.buf <:+ text := by
  obtain ⟨hsolid, -, -⟩ := folds_iff.mp hf
  have hne : s.buf ≠ [] := ne_nil_of_solid hsolid
  have hjoin : Solid (s.last ++ s.buf) := by
    obtain ⟨c, hc, hspace⟩ := solid_iff.mp hsolid
    exact solid_iff.mpr ⟨c, List.mem_append_right _ hc, hspace⟩
  have hlastchunk : (s.finish minLen).getLast? = some (strip (s.last ++ s.buf)) := by
    have hkept : decide (strip (strip (s.last ++ s.buf)) ≠ []) = true :=
      decide_eq_true (solid_strip.mpr hjoin)
    rw [finish_of_folds hf, List.filter_append, List.filter_singleton, hkept]
    exact List.getLast?_concat
  rcases List.eq_nil_or_concat ws' with rfl | ⟨ws₀, w, rfl⟩
  · have hnil : (s.finish minLen).map strip = [] := hcov.windows
    rw [List.map_eq_nil_iff.mp hnil] at hlastchunk
    cases hlastchunk
  rw [List.concat_eq_append] at hcov
  have hwin : strip (s.last ++ s.buf) = chunkAt text w := by
    have hl := congrArg List.getLast? hcov.windows
    rw [List.getLast?_map, hlastchunk, List.map_append, List.map_singleton, List.getLast?_concat]
      at hl
    rw [← Option.some.inj hl]
    exact Span.strip_strip.symm
  -- the last character is in a window, and then in the last one
  have htext : text ≠ [] := by
    intro h0
    rw [h.buf_suffix, h0, List.drop_nil] at hne
    exact hne rfl
  have hend : w.2 = text.length := by
    have hget : text[text.length - 1]? = some (text.getLast htext) := by
      rw [← List.getLast?_eq_getElem?, List.getLast?_eq_some_getLast htext]
    obtain ⟨w', hw', -, hlt⟩ := hcov.covered _ _ hget
      (ht.last _ (List.getLast?_eq_some_getLast htext))
    have hle : w'.2 ≤ w.2 := by
      rcases List.mem_append.mp hw' with hw' | hw'
      · exact ((List.pairwise_append.mp hcov.ordered).2.2 w' hw' w
          (List.mem_singleton_self _)).snd_lt.le
      · rw [List.mem_singleton.mp hw']
    have := (hcov.inside w (by simp)).2
    omega
  by_cases hnil : s.last = []
  · rw [hnil, List.nil_append, h.buf_suffix]
    exact List.drop_suffix lo text
  · rw [h.strip_joined ht hne hnil, chunkAt, hend, Span.slice_to_end le_rfl] at hwin
    have htail : text.drop w.1 ≠ [] := by
      intro h0
      rw [h0] at hwin
      exact hne (List.append_eq_nil_iff.mp hwin).2
    have hdrop := List.drop_suffix w.1 text
    obtain ⟨pre, hpre, -⟩ := Span.exists_append_strip_of_last (last_of_suffix ht hdrop htail)
    rw [hwin]
    exact List.IsSuffix.trans ⟨pre, hpre.symm⟩ hdrop

end Backplane.Chunking
