import Mathlib.Data.List.Infix

/-!
# Globs and LIKE patterns

A glob is a text in which an asterisk stands for any text.  SQL knows `LIKE` patterns instead, in which
a per cent sign stands for any text, an underscore for any character, and a backslash escapes.

* `likeMatch p t` : the `LIKE` pattern matches.
* `globMatch p t` : the glob matches.
* `likePattern p` : the glob as a `LIKE` pattern.
* `likeMatch_likePattern` : the two match the same texts.
-/

namespace Backplane

/-- Whether a `LIKE` pattern with the escape character `\` matches. -/
def likeMatch : List Char → List Char → Bool
  | [], t => t = []
  | ['\\'], _ => false
  | '\\' :: c :: p, t => t.head? = some c && likeMatch p t.tail
  | '%' :: p, t => t.tails.any fun s => likeMatch p s
  | '_' :: p, t => t ≠ [] && likeMatch p t.tail
  | c :: p, t => t.head? = some c && likeMatch p t.tail

/-- Whether a glob matches. -/
def globMatch : List Char → List Char → Bool
  | [], t => t = []
  | '*' :: p, t => t.tails.any fun s => globMatch p s
  | c :: p, t => t.head? = some c && globMatch p t.tail

/-- Escape what means something in a `LIKE` pattern. -/
def likeEscape (p : List Char) : List Char :=
  p.flatMap fun c => if c = '\\' ∨ c = '%' ∨ c = '_' then ['\\', c] else [c]

/-- A glob as a `LIKE` pattern. -/
def likePattern (p : List Char) : List Char :=
  (likeEscape p).map fun c => if c = '*' then '%' else c

variable {c : Char} {p t : List Char}

theorem globMatch_cons (hc : c ≠ '*') :
    globMatch (c :: p) t = (t.head? = some c && globMatch p t.tail) := by
  rw [globMatch]
  exact fun h => hc h

theorem likeMatch_cons (hb : c ≠ '\\') (hp : c ≠ '%') (hu : c ≠ '_') :
    likeMatch (c :: p) t = (t.head? = some c && likeMatch p t.tail) := by
  rw [likeMatch]
  · exact fun h => absurd h hb
  · exact fun _ _ h => absurd h hb
  · exact hp
  · exact hu

theorem likePattern_cons : likePattern (c :: p) =
    (if c = '\\' ∨ c = '%' ∨ c = '_' then ['\\', c] else if c = '*' then ['%'] else [c]) ++
      likePattern p := by
  rw [likePattern, likeEscape, List.flatMap_cons, List.map_append]
  congr 1
  split_ifs with h hs
  · rcases h with rfl | rfl | rfl <;> rfl
  · simp [hs]
  · simp [hs]

/-- **A glob and its pattern match the same texts.** -/
theorem likeMatch_likePattern (p t : List Char) : likeMatch (likePattern p) t = globMatch p t := by
  induction p generalizing t with
  | nil => rfl
  | cons c p ih =>
    rw [likePattern_cons]
    split_ifs with h hs
    · have hc : c ≠ '*' := by rintro rfl; revert h; decide
      rw [globMatch_cons hc, ← ih]
      rfl
    · subst hs
      rw [globMatch, List.singleton_append, likeMatch]
      simp only [ih]
    · rw [not_or, not_or] at h
      rw [globMatch_cons hs, ← ih, List.singleton_append, likeMatch_cons h.1 h.2.1 h.2.2]

/-- A text matches itself. -/
theorem globMatch_self (p : List Char) : globMatch p p = true := by
  induction p with
  | nil => rfl
  | cons c p ih =>
    by_cases hc : c = '*'
    · subst hc
      rw [globMatch, List.any_eq_true]
      exact ⟨p, (List.mem_tails _ _).2 (List.suffix_cons _ _), ih⟩
    · rw [globMatch_cons hc, List.head?_cons, List.tail_cons, ih]
      simp

end Backplane
