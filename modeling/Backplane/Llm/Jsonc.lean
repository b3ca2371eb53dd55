import Mathlib.Data.List.Infix
import Mathlib.Data.List.TakeWhile
import Mathlib.Tactic.Common

/-!
# Comments in a preset catalogue

A catalogue of presets is JSON with comments.  Before it is parsed the comments are taken out by a
scanner, which has to leave string literals alone and to keep the newlines, so that a parse error
names the right line.

* `scan`, `stripJsoncComments` : the scanner.
* `Lexed text ps` : the text is these pieces, string literals and comments among them.
* `kept ps` : what is not comment, and the newlines of what is.
* `stripJsoncComments_iff` : the text is stripped as it should be, unless it ends with a newline in
  a block comment that is not closed.
-/

namespace Backplane.Jsonc

/-! ### The scanner -/

/-- Where the scanner is. -/
inductive Mode
  /-- Outside strings and comments. -/
  | code
  | str
  /-- In a string, after a backslash. -/
  | escaped
  | line
  /-- Before the second character of what opens a block comment. -/
  | opened
  | block
  /-- Before the second character of what closes it. -/
  | closing
  deriving DecidableEq, Repr

/-- The loop of `strip_jsonc_comments`. -/
def scan : Mode → List Char → List Char
  | _, [] => []
  | .code, c :: cs =>
    if c = '"' then c :: scan .str cs
    else if c = '/' ∧ cs.head? = some '/' then scan .line cs
    else if c = '/' ∧ cs.head? = some '*' then scan .opened cs
    else c :: scan .code cs
  | .str, c :: cs =>
    if c = '\\' then c :: scan .escaped cs
    else if c = '"' then c :: scan .code cs
    else c :: scan .str cs
  | .escaped, c :: cs => c :: scan .str cs
  | .line, c :: cs => if c = '\n' then c :: scan .code cs else scan .line cs
  | .opened, _ :: cs => scan .block cs
  | .block, c :: cs =>
    -- the loop looks at two characters, and is over before the last one
    if cs = [] then []
    else if c = '*' ∧ cs.head? = some '/' then scan .closing cs
    else if c = '\n' then c :: scan .block cs
    else scan .block cs
  | .closing, _ :: cs => scan .code cs

/-- `strip_jsonc_comments` -/
def stripJsoncComments (text : List Char) : List Char := scan .code text

section

variable {c : Char} {cs : List Char}

theorem scan_nil (mode : Mode) : scan mode [] = [] := by
  cases mode with
  | _ => rfl

theorem scan_code_cons : scan .code (c :: cs) =
    if c = '"' then c :: scan .str cs
    else if c = '/' ∧ cs.head? = some '/' then scan .line cs
    else if c = '/' ∧ cs.head? = some '*' then scan .opened cs
    else c :: scan .code cs := rfl

theorem scan_str_cons : scan .str (c :: cs) =
    if c = '\\' then c :: scan .escaped cs
    else if c = '"' then c :: scan .code cs
    else c :: scan .str cs := rfl

theorem scan_escaped_cons : scan .escaped (c :: cs) = c :: scan .str cs := rfl

theorem scan_line_cons :
    scan .line (c :: cs) = if c = '\n' then c :: scan .code cs else scan .line cs := rfl

theorem scan_opened_cons : scan .opened (c :: cs) = scan .block cs := rfl

theorem scan_block_cons : scan .block (c :: cs) =
    if cs = [] then []
    else if c = '*' ∧ cs.head? = some '/' then scan .closing cs
    else if c = '\n' then c :: scan .block cs
    else scan .block cs := rfl

theorem scan_closing_cons : scan .closing (c :: cs) = scan .code cs := rfl

end

/-! ### What is claimed -/

/-- A piece of a text. -/
inductive Piece
  /-- A character outside strings and comments. -/
  | char (c : Char)
  /-- A string literal with this between its quotes. -/
  | string (body : List Char)
  | openString (body : List Char)
  | line (body : List Char)
  | block (body : List Char)
  | openBlock (body : List Char)
  deriving DecidableEq, Repr

/-- What is between the quotes of a string literal: a quote comes only after a backslash. -/
inductive StringBody : List Char → Prop
  | nil : StringBody []
  /-- A character that means itself. -/
  | plain {c : Char} {cs : List Char} : c ≠ '"' → c ≠ '\\' → StringBody cs → StringBody (c :: cs)
  | escape (c : Char) {cs : List Char} : StringBody cs → StringBody ('\\' :: c :: cs)

/-- A comment begins here. -/
def OpensComment (text : List Char) : Prop := ['/', '/'] <+: text ∨ ['/', '*'] <+: text

/-- The text is these pieces. -/
inductive Lexed : List Char → List Piece → Prop
  | nil : Lexed [] []
  | char {c : Char} {text : List Char} {ps : List Piece} : c ≠ '"' → ¬ OpensComment (c :: text) →
      Lexed text ps → Lexed (c :: text) (.char c :: ps)
  | string {body text : List Char} {ps : List Piece} : StringBody body → Lexed text ps →
      Lexed ('"' :: (body ++ '"' :: text)) (.string body :: ps)
  /-- A string literal that the text ends in, or that it ends in after a backslash. -/
  | openString {body : List Char} {tail : List Char} : StringBody body → tail = [] ∨ tail = ['\\'] →
      Lexed ('"' :: (body ++ tail)) [.openString (body ++ tail)]
  | line {body text : List Char} {ps : List Piece} : '\n' ∉ body →
      text = [] ∨ text.head? = some '\n' → Lexed text ps →
      Lexed ('/' :: '/' :: (body ++ text)) (.line body :: ps)
  /-- A block comment, up to the first thing that closes it. -/
  | block {body text : List Char} {ps : List Piece} : ¬ ['*', '/'] <:+: body ++ ['*'] →
      Lexed text ps → Lexed ('/' :: '*' :: (body ++ '*' :: '/' :: text)) (.block body :: ps)
  /-- A block comment that the text ends in. -/
  | openBlock {body : List Char} : ¬ ['*', '/'] <:+: body →
      Lexed ('/' :: '*' :: body) [.openBlock body]

/-- The newlines of a comment. -/
def newlines (body : List Char) : List Char := body.filter (· = '\n')

/-- What is to be left of a piece. -/
def Piece.kept : Piece → List Char
  | .char c => [c]
  | .string body => '"' :: (body ++ ['"'])
  | .openString body => '"' :: body
  | .line _ => []
  | .block body => newlines body
  | .openBlock body => newlines body

/-- What is to be left of a text. -/
def kept (ps : List Piece) : List Char := ps.flatMap Piece.kept

/-- The text is stripped as it should be. -/
structure Stripped (text : List Char) : Prop where
  /-- What is not comment is left as it is, string literals included, and nothing else is. -/
  pieces : ∀ ps, Lexed text ps → stripJsoncComments text = kept ps
  /-- The lines keep their numbers. -/
  lines : (stripJsoncComments text).count '\n' = text.count '\n'
  /-- Stripping it again changes nothing. -/
  idempotent : stripJsoncComments (stripJsoncComments text) = stripJsoncComments text

variable {text rest body cs l : List Char} {ps : List Piece} {c : Char}

/-! ### What the scanner leaves -/

/-- What the scanner leaves of a piece: the last character of a block comment that is not closed is
not looked at. -/
def Piece.left : Piece → List Char
  | .openBlock body => newlines body.dropLast
  | p => p.kept

theorem scan_str_body (h : StringBody body) :
    scan .str (body ++ rest) = body ++ scan .str rest := by
  induction h with
  | nil => rfl
  | plain hquote hback _ ih => rw [List.cons_append, scan_str_cons, if_neg hback, if_neg hquote, ih]; rfl
  | escape c _ ih =>
    rw [List.cons_append, List.cons_append, scan_str_cons, if_pos rfl, scan_escaped_cons, ih]
    rfl

theorem scan_line (h : '\n' ∉ body) : scan .line (body ++ rest) = scan .line rest := by
  induction body with
  | nil => rfl
  | cons c body ih =>
    rw [List.mem_cons, not_or] at h
    rw [List.cons_append, scan_line_cons, if_neg (Ne.symm h.1), ih h.2]

/-- A line comment ends where code goes on. -/
theorem scan_line_end (h : rest = [] ∨ rest.head? = some '\n') :
    scan .line rest = scan .code rest := by
  cases rest with
  | nil => rfl
  | cons c rest =>
    obtain rfl : c = '\n' := Option.some.inj (h.resolve_left (List.cons_ne_nil c rest))
    rw [scan_line_cons, scan_code_cons, if_pos rfl, if_neg (by decide), if_neg (by simp),
      if_neg (by simp)]

theorem newlines_cons : newlines (c :: cs) = (if c = '\n' then [c] else []) ++ newlines cs := by
  rw [newlines, List.filter_cons]
  by_cases hc : c = '\n'
  · simp [hc, newlines]
  · simp [hc, newlines]

/-- A character of a block comment that does not begin what closes it. -/
theorem scan_block_inside (hne : cs ≠ []) (hc : ¬ (c = '*' ∧ cs.head? = some '/')) :
    scan .block (c :: cs) = (if c = '\n' then [c] else []) ++ scan .block cs := by
  rw [scan_block_cons, if_neg hne, if_neg hc]
  split_ifs
  · rfl
  · rfl

theorem not_closes_of_unclosed (h : ¬ ['*', '/'] <:+: c :: cs) :
    ¬ (c = '*' ∧ cs.head? = some '/') := by
  rintro ⟨rfl, hhead⟩
  obtain ⟨cs', rfl⟩ : ∃ cs', cs = '/' :: cs' := by
    cases cs with
    | nil => cases hhead
    | cons d cs => exact ⟨cs, by rw [Option.some.inj hhead]⟩
  exact h ⟨[], cs', rfl⟩

theorem scan_block (h : ¬ ['*', '/'] <:+: body ++ ['*']) :
    scan .block (body ++ '*' :: '/' :: rest) = newlines body ++ scan .code rest := by
  induction body with
  | nil =>
    rw [List.nil_append, scan_block_cons, if_neg (List.cons_ne_nil _ _), if_pos ⟨rfl, rfl⟩,
      scan_closing_cons]
    rfl
  | cons c body ih =>
    have hc : ¬ (c = '*' ∧ (body ++ '*' :: '/' :: rest).head? = some '/') := by
      have hclose := not_closes_of_unclosed h
      cases body with
      | nil => simp
      | cons d body => exact hclose
    rw [List.cons_append, scan_block_inside (by simp) hc,
      ih fun hin => h (hin.trans ⟨[c], [], by simp⟩), newlines_cons, List.append_assoc]

theorem scan_open_block (h : ¬ ['*', '/'] <:+: body) :
    scan .block body = newlines body.dropLast := by
  induction body with
  | nil => rfl
  | cons c body ih =>
    by_cases hne : body = []
    · subst hne
      rw [scan_block_cons, if_pos rfl]
      rfl
    · rw [scan_block_inside hne (not_closes_of_unclosed h),
        ih fun hin => h (hin.trans ⟨[c], [], by simp⟩), List.dropLast_cons_of_ne_nil hne,
        newlines_cons]

theorem opensComment_iff :
    OpensComment (c :: cs) ↔ c = '/' ∧ (cs.head? = some '/' ∨ cs.head? = some '*') := by
  cases cs with
  | nil => simp [OpensComment]
  | cons d cs =>
    simp only [OpensComment, List.cons_prefix_cons, List.nil_prefix, List.head?_cons,
      Option.some.injEq, and_true]
    grind

theorem scan_code_char (hquote : c ≠ '"') (h : ¬ OpensComment (c :: cs)) :
    scan .code (c :: cs) = c :: scan .code cs := by
  rw [opensComment_iff, not_and_or, not_or] at h
  rw [scan_code_cons, if_neg hquote, if_neg, if_neg]
  · exact fun hc => h.elim (· hc.1) fun h => h.2 hc.2
  · exact fun hc => h.elim (· hc.1) fun h => h.1 hc.2

/-- The scanner leaves of each piece what it leaves. -/
theorem scan_lexed (h : Lexed text ps) : stripJsoncComments text = ps.flatMap Piece.left := by
  unfold stripJsoncComments
  induction h with
  | nil => rfl
  | char hquote hopens _ ih =>
    rw [scan_code_char hquote hopens, ih]
    rfl
  | string hbody _ ih =>
    rw [scan_code_cons, if_pos rfl, scan_str_body hbody, scan_str_cons, if_neg (by decide),
      if_pos rfl, ih]
    simp [Piece.left, Piece.kept]
  | openString hbody htail =>
    rw [scan_code_cons, if_pos rfl, scan_str_body hbody]
    rcases htail with rfl | rfl
    · simp [scan_nil, Piece.left, Piece.kept]
    · simp [scan_nil, scan_str_cons, Piece.left, Piece.kept]
  | line hbody hend _ ih =>
    rw [scan_code_cons, if_neg (by decide), if_pos ⟨rfl, rfl⟩, scan_line_cons, if_neg (by decide),
      scan_line hbody, scan_line_end hend, ih]
    rfl
  | block hbody _ ih =>
    rw [scan_code_cons, if_neg (by decide), if_neg (by simp), if_pos ⟨rfl, rfl⟩, scan_opened_cons,
      scan_block hbody, ih]
    rfl
  | openBlock hbody =>
    rw [scan_code_cons, if_neg (by decide), if_neg (by simp), if_pos ⟨rfl, rfl⟩, scan_opened_cons,
      scan_open_block hbody]
    simp [Piece.left]

/-! ### Every text is in pieces -/

theorem exists_stringBody (cs : List Char) :
    (∃ body rest, cs = body ++ '"' :: rest ∧ StringBody body) ∨
      ∃ body tail, cs = body ++ tail ∧ StringBody body ∧ (tail = [] ∨ tail = ['\\']) := by
  match cs with
  | [] => exact .inr ⟨[], [], rfl, .nil, .inl rfl⟩
  | ['\\'] => exact .inr ⟨[], ['\\'], rfl, .nil, .inr rfl⟩
  | '\\' :: c :: cs =>
    rcases exists_stringBody cs with ⟨body, rest, rfl, hbody⟩ | ⟨body, tail, rfl, hbody, htail⟩
    · exact .inl ⟨'\\' :: c :: body, rest, rfl, .escape c hbody⟩
    · exact .inr ⟨'\\' :: c :: body, tail, rfl, .escape c hbody, htail⟩
  | c :: cs =>
    by_cases hquote : c = '"'
    · exact .inl ⟨[], cs, by rw [hquote]; rfl, .nil⟩
    by_cases hback : c = '\\'
    · subst hback
      cases cs with
      | nil => exact .inr ⟨[], ['\\'], rfl, .nil, .inr rfl⟩
      | cons d cs =>
        rcases exists_stringBody cs with ⟨body, rest, rfl, hbody⟩ | ⟨body, tail, rfl, hbody, htail⟩
        · exact .inl ⟨'\\' :: d :: body, rest, rfl, .escape d hbody⟩
        · exact .inr ⟨'\\' :: d :: body, tail, rfl, .escape d hbody, htail⟩
    · rcases exists_stringBody cs with ⟨body, rest, rfl, hbody⟩ | ⟨body, tail, rfl, hbody, htail⟩
      · exact .inl ⟨c :: body, rest, rfl, .plain hquote hback hbody⟩
      · exact .inr ⟨c :: body, tail, rfl, .plain hquote hback hbody, htail⟩

/-- A block comment is closed at the first chance, or not at all. -/
theorem exists_block (cs : List Char) :
    (∃ body rest, cs = body ++ '*' :: '/' :: rest ∧ ¬ ['*', '/'] <:+: body ++ ['*']) ∨
      ¬ ['*', '/'] <:+: cs := by
  induction cs with
  | nil => exact .inr (by simp)
  | cons c cs ih =>
    by_cases hclose : ['*', '/'] <+: c :: cs
    · obtain ⟨rest, hrest⟩ := hclose
      exact .inl ⟨[], rest, hrest.symm, by decide⟩
    · rcases ih with ⟨body, rest, rfl, hbody⟩ | hnone
      · refine .inl ⟨c :: body, rest, rfl, fun hin => ?_⟩
        rcases List.infix_cons_iff.1 hin with hpre | hin
        · refine hclose (hpre.trans ⟨'/' :: rest, by simp⟩)
        · exact hbody hin
      · exact .inr fun hin => (List.infix_cons_iff.1 hin).elim hclose hnone

theorem exists_line (cs : List Char) : ∃ body rest, cs = body ++ rest ∧ '\n' ∉ body ∧
    (rest = [] ∨ rest.head? = some '\n') := by
  refine ⟨cs.takeWhile (· ≠ '\n'), cs.dropWhile (· ≠ '\n'), (List.takeWhile_append_dropWhile).symm,
    fun hin => ?_, ?_⟩
  · have hne := List.mem_takeWhile_imp hin
    simp at hne
  · by_cases hnil : cs.dropWhile (· ≠ '\n') = []
    · exact .inl hnil
    · refine .inr ?_
      have hhead := List.head_dropWhile_not (p := (· ≠ '\n')) hnil
      rw [List.head?_eq_some_head hnil]
      simpa using hhead

theorem exists_lexed (text : List Char) : ∃ ps, Lexed text ps := by
  induction hn : text.length using Nat.strong_induction_on generalizing text with
  | _ n ih =>
    subst hn
    cases text with
    | nil => exact ⟨[], .nil⟩
    | cons c cs =>
      by_cases hquote : c = '"'
      · subst hquote
        rcases exists_stringBody cs with ⟨body, rest, rfl, hbody⟩ | ⟨body, tail, rfl, hbody, htail⟩
        · obtain ⟨ps, hps⟩ := ih rest.length (by simp; omega) rest rfl
          exact ⟨_, .string hbody hps⟩
        · exact ⟨_, .openString hbody htail⟩
      by_cases hopens : OpensComment (c :: cs)
      · rcases hopens with ⟨cs', hcs⟩ | ⟨cs', hcs⟩
        · obtain ⟨body, rest, rfl, hbody, hend⟩ := exists_line cs'
          obtain ⟨rfl, rfl⟩ := List.cons.inj hcs
          obtain ⟨ps, hps⟩ := ih rest.length (by simp; omega) rest rfl
          have hline := Lexed.line hbody hend hps
          exact ⟨_, hline⟩
        · obtain ⟨rfl, rfl⟩ := List.cons.inj hcs
          rcases exists_block cs' with ⟨body, rest, rfl, hbody⟩ | hnone
          · obtain ⟨ps, hps⟩ := ih rest.length (by simp; omega) rest rfl
            exact ⟨_, .block hbody hps⟩
          · exact ⟨_, .openBlock hnone⟩
      · obtain ⟨ps, hps⟩ := ih cs.length (by simp) cs rfl
        exact ⟨_, .char hquote hopens hps⟩

/-! ### What is kept -/

theorem count_newlines (body : List Char) : (newlines body).count '\n' = body.count '\n' := by
  rw [newlines, List.count_filter (by simp)]

theorem count_kept (h : Lexed text ps) : (kept ps).count '\n' = text.count '\n' := by
  induction h with
  | nil => rfl
  | char _ _ _ ih => simpa [kept, Piece.kept, List.count_cons] using ih
  | string _ _ ih =>
    have hrest := ih
    simp only [kept] at hrest
    simp [kept, Piece.kept, hrest]
  | openString => simp [kept, Piece.kept]
  | line hbody _ _ ih =>
    have hrest := ih
    simp only [kept] at hrest
    simp [kept, Piece.kept, hrest, List.count_eq_zero_of_not_mem hbody]
  | block _ _ ih =>
    have hrest := ih
    simp only [kept] at hrest
    simp [kept, Piece.kept, count_newlines, hrest]
  | openBlock => simp [kept, Piece.kept, count_newlines]

/-- Taking comments out does not put a slash before what makes it open one. -/
theorem head_kept (h : Lexed text ps) (hslash : text.head? ≠ some '/') :
    (kept ps).head? = text.head? := by
  cases h with
  | nil => rfl
  | char => rfl
  | string => rfl
  | openString => rfl
  | line => exact absurd rfl hslash
  | block => exact absurd rfl hslash
  | openBlock => exact absurd rfl hslash

/-- The pieces of what is kept. -/
def Piece.codes : Piece → List Piece
  | .line _ => []
  | .block body => (newlines body).map .char
  | .openBlock body => (newlines body).map .char
  | p => [p]

theorem lexed_newlines (hl : ∀ c ∈ l, c = '\n') (h : Lexed text ps) :
    Lexed (l ++ text) (l.map .char ++ ps) := by
  induction l with
  | nil => exact h
  | cons c l ih =>
    rw [List.forall_mem_cons] at hl
    obtain ⟨rfl, hl⟩ := hl
    exact .char (by decide) (by simp [opensComment_iff]) (ih hl)

theorem mem_newlines (h : c ∈ newlines body) : c = '\n' := of_decide_eq_true (List.mem_filter.1 h).2

theorem lexed_kept (h : Lexed text ps) : Lexed (kept ps) (ps.flatMap Piece.codes) := by
  induction h with
  | nil => exact .nil
  | @char c text ps hquote hopens h ih =>
    refine .char hquote ?_ ih
    rw [opensComment_iff] at hopens ⊢
    rintro ⟨rfl, hhead⟩
    have hsame : text.head? ≠ some '/' := fun hs => hopens ⟨rfl, .inl hs⟩
    have hhead' : (kept ps).head? = some '/' ∨ (kept ps).head? = some '*' := hhead
    rw [head_kept h hsame] at hhead'
    exact hopens ⟨rfl, hhead'⟩
  | string hbody _ ih =>
    have hstring := Lexed.string hbody ih
    simpa [kept, Piece.kept, Piece.codes] using hstring
  | openString hbody htail =>
    have hstring := Lexed.openString hbody htail
    simpa [kept, Piece.kept, Piece.codes] using hstring
  | line _ _ _ ih => exact ih
  | block _ _ ih => exact lexed_newlines (fun _ => mem_newlines) ih
  | openBlock =>
    simpa [kept, Piece.kept, Piece.codes] using lexed_newlines (fun _ => mem_newlines) .nil

theorem left_codes (p : Piece) : p.codes.flatMap Piece.left = p.kept := by
  cases p with
  | char | string | openString | line => simp [Piece.codes, Piece.left, Piece.kept]
  | block body | openBlock body =>
    simp [Piece.codes, Piece.left, Piece.kept, List.flatMap_map]

/-- Nothing is to be stripped of what is kept. -/
theorem strip_kept (h : Lexed text ps) : stripJsoncComments (kept ps) = kept ps := by
  rw [scan_lexed (lexed_kept h), List.flatMap_assoc]
  simp only [left_codes]
  rfl

theorem length_left_le (ps : List Piece) :
    (ps.flatMap Piece.left).length ≤ (kept ps).length := by
  induction ps with
  | nil => exact le_rfl
  | cons p ps ih =>
    have hp : p.left.length ≤ p.kept.length := by
      cases p with
      | openBlock body => exact ((List.dropLast_sublist body).filter _).length_le
      | _ => exact le_rfl
    rw [kept, List.flatMap_cons, List.flatMap_cons, List.length_append, List.length_append]
    exact Nat.add_le_add hp ih

theorem left_eq_kept (h : Lexed text ps)
    (hend : ∀ qs body, ps ≠ qs ++ [.openBlock (body ++ ['\n'])]) :
    ps.flatMap Piece.left = kept ps := by
  have hcons : ∀ {p : Piece} {ps : List Piece}, p.left = p.kept →
      (∀ qs body, p :: ps ≠ qs ++ [.openBlock (body ++ ['\n'])]) →
      ((∀ qs body, ps ≠ qs ++ [.openBlock (body ++ ['\n'])]) → ps.flatMap Piece.left = kept ps) →
      (p :: ps).flatMap Piece.left = kept (p :: ps) := by
    intro p ps hp hend ih
    rw [List.flatMap_cons, hp, ih fun qs body he => hend (p :: qs) body (by rw [he]; rfl)]
    rfl
  induction h with
  | nil => rfl
  | char _ _ _ ih => exact hcons rfl hend ih
  | string _ _ ih => exact hcons rfl hend ih
  | openString => rfl
  | line _ _ _ ih => exact hcons rfl hend ih
  | block _ _ ih => exact hcons rfl hend ih
  | @openBlock body _ =>
    rcases List.eq_nil_or_concat body with rfl | ⟨body, c, rfl⟩
    · rfl
    · have hc : c ≠ '\n' := by
        rintro rfl
        exact hend [] body (by rw [List.concat_eq_append]; rfl)
      simp [Piece.left, Piece.kept, kept, newlines, hc]

/-- **When comments are stripped well.**  Exactly the comments go, the newlines stay, and a second
time changes nothing, unless the text ends with a newline in a block comment that is not closed. -/
theorem stripJsoncComments_iff (text : List Char) :
    Stripped text ↔ ¬ ∃ ps body, Lexed text (ps ++ [.openBlock (body ++ ['\n'])]) := by
  constructor
  · rintro hstripped ⟨ps, body, h⟩
    have hleft := scan_lexed h
    rw [hstripped.pieces _ h] at hleft
    have hlast : kept [.openBlock (body ++ ['\n'])] = newlines body ++ ['\n'] := by
      simp [kept, Piece.kept, newlines]
    have hlost : [Piece.openBlock (body ++ ['\n'])].flatMap Piece.left = newlines body := by
      simp [Piece.left]
    have hlength := congrArg List.length hleft
    rw [kept, List.flatMap_append, List.flatMap_append, hlost, List.length_append,
      List.length_append, ← kept, ← kept, hlast, List.length_append,
      List.length_singleton] at hlength
    have hle := length_left_le ps
    omega
  · intro hend
    have hkept : ∀ ps, Lexed text ps → stripJsoncComments text = kept ps := fun ps h =>
      (scan_lexed h).trans (left_eq_kept h fun qs body he => hend ⟨qs, body, he ▸ h⟩)
    obtain ⟨ps, h⟩ := exists_lexed text
    exact ⟨hkept, by rw [hkept ps h, count_kept h], by rw [hkept ps h, strip_kept h]⟩

/-- The newline after a comment that is not closed is lost. -/
theorem unclosed_comment_loses_newline : ¬ ∀ text, Stripped text := by
  intro hall
  have hlines := (hall ['/', '*', '\n']).lines
  revert hlines
  decide

end Backplane.Jsonc
