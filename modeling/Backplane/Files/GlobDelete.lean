import Backplane.Data.Glob

/-!
# Deleting by glob

The names to delete are given by a glob, which the query has to put as a `LIKE` pattern: what means
something there is escaped first, by three replacements one after the other, and then each asterisk
becomes a per cent sign.

* `replaceChar` : `str.replace` of a text of one character.
* `globLike` : the pattern of the query.
* `Glob p t` : what it is for a glob to match.
* `globLike_matches_iff` : the query matches the names that the glob matches.
-/

namespace Backplane

/-- `str.replace`, of a text of one character. -/
def replaceChar (old : Char) (new : List Char) (s : List Char) : List Char :=
  s.flatMap fun c => if c = old then new else [c]

/-- `_like_escape` -/
def likeEscaped (s : List Char) : List Char :=
  replaceChar '_' ['\\', '_'] (replaceChar '%' ['\\', '%'] (replaceChar '\\' ['\\', '\\'] s))

/-- The pattern of `delete_file_names_glob`. -/
def globLike (pattern : String) : List Char := replaceChar '*' ['%'] (likeEscaped pattern.toList)

/-- The text is one that the glob stands for: an asterisk stands for any text, and any other
character for itself. -/
inductive Glob : List Char → List Char → Prop
  /-- The end of the glob is the end of the text. -/
  | nil : Glob [] []
  | star (s : List Char) {p t : List Char} : Glob p t → Glob ('*' :: p) (s ++ t)
  | char {c : Char} {p t : List Char} : c ≠ '*' → Glob p t → Glob (c :: p) (c :: t)

variable {c old : Char} {new p s t : List Char}

/-! ### The translation -/

theorem replaceChar_append : replaceChar old new (s ++ t) =
    replaceChar old new s ++ replaceChar old new t := by
  rw [replaceChar, List.flatMap_append]
  rfl

/-- The escapes that one step adds are left alone by those after it. -/
theorem likeEscaped_cons : likeEscaped (c :: s) =
    (if c = '\\' ∨ c = '%' ∨ c = '_' then ['\\', c] else [c]) ++ likeEscaped s := by
  have hcons : likeEscaped (c :: s) = likeEscaped [c] ++ likeEscaped s := by
    rw [← List.singleton_append]
    simp only [likeEscaped, replaceChar_append]
  rw [hcons]
  congr 1
  split_ifs with h
  · rcases h with rfl | rfl | rfl
    · rfl
    · rfl
    · rfl
  · rw [not_or, not_or] at h
    simp [likeEscaped, replaceChar, h]

theorem likeEscaped_eq (s : List Char) : likeEscaped s = likeEscape s := by
  induction s with
  | nil => rfl
  | cons c s ih => rw [likeEscaped_cons, ih, likeEscape, likeEscape, List.flatMap_cons]

theorem replaceChar_singleton (new : Char) :
    replaceChar old [new] s = s.map fun c => if c = old then new else c := by
  induction s with
  | nil => rfl
  | cons c s ih =>
    rw [List.map_cons, ← ih, replaceChar, List.flatMap_cons]
    split_ifs
    · rfl
    · rfl

theorem globLike_eq (pattern : String) : globLike pattern = likePattern pattern.toList := by
  rw [globLike, replaceChar_singleton, likeEscaped_eq]
  rfl

/-! ### Globs -/

/-- An asterisk leaves some end of the text to the rest of the glob. -/
theorem glob_star_iff : Glob ('*' :: p) t ↔ ∃ r, r <:+ t ∧ Glob p r := by
  constructor
  · intro h
    cases h with
    | star s h => exact ⟨_, List.suffix_append s _, h⟩
    | char hc => exact absurd rfl hc
  · rintro ⟨r, ⟨s, rfl⟩, h⟩
    exact .star s h

theorem glob_cons_iff (hc : c ≠ '*') :
    Glob (c :: p) t ↔ t.head? = some c ∧ Glob p t.tail := by
  constructor
  · intro h
    cases h with
    | star => exact absurd rfl hc
    | char _ h => exact ⟨rfl, h⟩
  · rintro ⟨hhead, h⟩
    cases t with
    | nil => cases hhead
    | cons d t =>
      obtain rfl := Option.some.inj hhead
      exact .char hc h

theorem globMatch_iff (p t : List Char) : globMatch p t = true ↔ Glob p t := by
  induction p generalizing t with
  | nil =>
    rw [globMatch, decide_eq_true_eq]
    constructor
    · rintro rfl
      exact .nil
    · intro h
      cases h
      rfl
  | cons c p ih =>
    by_cases hc : c = '*'
    · subst hc
      rw [globMatch, List.any_eq_true, glob_star_iff]
      exact exists_congr fun r => by rw [List.mem_tails, ih]
    · rw [globMatch_cons hc, Bool.and_eq_true, decide_eq_true_eq, ih, glob_cons_iff hc]

/-- **The query deletes what the glob matches.**  The `LIKE` pattern matches a name if and only if
the glob does, whatever characters are in the glob and in the name. -/
theorem globLike_matches_iff (pattern name : String) :
    likeMatch (globLike pattern) name.toList = true ↔ Glob pattern.toList name.toList := by
  rw [globLike_eq, likeMatch_likePattern, globMatch_iff]

/-- Nothing but the asterisk is special in a glob. -/
example : globLike "50%_\\*" = "50\\%\\_\\\\%".toList := by decide

end Backplane
