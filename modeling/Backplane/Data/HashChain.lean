import Mathlib.Data.List.Chain
import Mathlib.Data.List.MinMax

/-!
# Hash chains

A log in which each entry names the hash of the one before it.

* `HashChain` : how an entry names its predecessor, and its own hash.
* `HashChain.Linear l` : the log is one chain that begins with an entry without predecessor.
* `linear_concat` : when a log may be continued.
* `Linear.sole` : no two entries name the same predecessor, unless the hash collides.
* `argmax_concat_of_lt` : the last entry of a log that is in order is the greatest.
-/

namespace Backplane

/-- How an entry names the one before it, and its own hash. -/
structure HashChain (E H : Type) where
  /-- The hash of the entry before; `none`: there is none. -/
  prev : E → Option H
  hash : E → H

namespace HashChain

variable {E H : Type} {L : HashChain E H} {l l' : List E} {e : E}

variable (L) in
/-- Each entry names the one before it, and the first names none. -/
structure Linear (l : List E) : Prop where
  /-- The first entry has no predecessor. -/
  genesis : ∀ e, l.head? = some e → L.prev e = none
  /-- Each other entry names the hash of the one before. -/
  linked : l.IsChain fun e e' => L.prev e' = some (L.hash e)

theorem linear_nil : L.Linear [] := ⟨by simp, .nil⟩

/-- **A log may be continued by an entry that names its last one.** -/
theorem linear_concat : L.Linear (l ++ [e]) ↔ L.Linear l ∧ L.prev e = l.getLast?.map L.hash := by
  rcases List.eq_nil_or_concat' l with rfl | ⟨l, x, rfl⟩
  · constructor
    · exact fun h => ⟨linear_nil, h.genesis e rfl⟩
    · rintro ⟨-, he⟩
      exact ⟨by simpa using he, by simp⟩
  · have hhead : (l ++ [x] ++ [e]).head? = (l ++ [x]).head? := by
      rw [List.head?_append_of_ne_nil _ (by simp)]
    constructor
    · rintro ⟨hg, hl⟩
      obtain ⟨hl, -, hlast⟩ := List.isChain_append.1 hl
      exact ⟨⟨by rwa [hhead] at hg, hl⟩, by simpa using hlast⟩
    · rintro ⟨⟨hg, hl⟩, he⟩
      exact ⟨by rwa [hhead], List.isChain_append.2 ⟨hl, by simp, by simpa using he⟩⟩

theorem Linear.of_append (h : L.Linear (l ++ l')) : L.Linear l := by
  induction l' using List.reverseRecOn with
  | nil => simpa using h
  | append_singleton l' e ih =>
    rw [← List.append_assoc] at h
    exact ih (linear_concat.1 h).1

/-- An entry after the first names the one before it. -/
theorem Linear.prev_succ (h : L.Linear l) {i : ℕ} (hi : l[i + 1]? = some e) :
    ∃ x, l[i]? = some x ∧ L.prev e = some (L.hash x) := by
  obtain ⟨hlt, rfl⟩ := List.getElem?_eq_some_iff.1 hi
  have hlt' : i < l.length := by omega
  exact ⟨l[i], List.getElem?_eq_getElem hlt', List.isChain_iff_getElem.1 h.linked i hlt⟩

theorem Linear.prev_zero (h : L.Linear l) (he : l[0]? = some e) : L.prev e = none :=
  h.genesis e (by rwa [List.head?_eq_getElem?])

/-- **No two entries name the same predecessor**, if a hash determines the predecessor that was
hashed with the entry. -/
theorem Linear.sole (h : L.Linear l)
    (hinj : ∀ x ∈ l, ∀ y ∈ l, L.hash x = L.hash y → L.prev x = L.prev y) {i j : ℕ} {x y : E}
    (hi : l[i]? = some x) (hj : l[j]? = some y) (hp : L.prev x = L.prev y) : i = j := by
  induction i generalizing j x y with
  | zero =>
    cases j with
    | zero => rfl
    | succ j =>
      obtain ⟨z, -, hz⟩ := h.prev_succ hj
      rw [h.prev_zero hi, hz] at hp
      exact absurd hp (by simp)
  | succ i ih =>
    obtain ⟨x', hx', hpx⟩ := h.prev_succ hi
    cases j with
    | zero =>
      rw [h.prev_zero hj, hpx] at hp
      exact absurd hp (by simp)
    | succ j =>
      obtain ⟨y', hy', hpy⟩ := h.prev_succ hj
      rw [hpx, hpy, Option.some.injEq] at hp
      -- the hashes agree, so the two before have the same predecessor too
      have hpp := hinj x' (List.mem_of_getElem? hx') y' (List.mem_of_getElem? hy') hp
      rw [ih hx' hy' hpp]

end HashChain

/-- The greatest entry of a log whose last one is greater than the others is the last. -/
theorem argmax_concat_of_lt {E : Type} {f : E → ℕ} {l : List E} {e : E}
    (h : ∀ x ∈ l, f x < f e) : (l ++ [e]).argmax f = some e := by
  rw [List.argmax_concat]
  cases hm : l.argmax f with
  | none => rfl
  | some x => simp [h x (List.argmax_mem hm)]

end Backplane
