import Backplane.Acl.Store
import Backplane.Data.Grammar

/-!
# The two grammars of a pattern

A pattern of a rule is checked by the application, half by half, and once more by the database, with
one regular expression.

* `aclPatternRegex` : the constraint of the table.
* `agentIdPattern`, `groupNamePattern`, `capabilityPattern`, `capabilityPrefixPattern` : what the
  application matches the parts against.
* `patterns ending` : the patterns whose names may have an ending.
* `patternGrammar_iff` : a check of the parts accepts such patterns.
* `isValidPattern_iff_database` : exactly when the two agree.
-/

namespace Backplane

open Computability Grammar

/-! ### The regular expressions -/

/-- `[A-Za-z_]` -/
def isAgentStart (c : Char) : Bool := c.isAlpha || c == '_'

/-- `[A-Za-z0-9_-]` -/
def isAgentChar (c : Char) : Bool := c.isAlphanum || c == '_' || c == '-'

/-- `[a-z0-9_:.-]` -/
def isGroupChar (c : Char) : Bool :=
  c.isLower || c.isDigit || c == '_' || c == ':' || c == '.' || c == '-'

/-- `_ACL_PATTERN_REGEX` -/
def aclPatternRegex : Language Char :=
  lit '@' * letter isAgentStart * upTo (letter isAgentChar) 63 +
    (lit '*' + letter Char.isLower * upTo (letter isGroupChar) 63) *
    lit '/' * (lit '*' +
      letter Char.isLower * (letter isSegmentChar)∗ * plus (lit '.' * plus (letter isSegmentChar)) +
      letter Char.isLower * (letter isSegmentChar)∗ * (lit '.' * plus (letter isSegmentChar))∗ *
        lit '.' * lit '*')

/-- `AGENT_ID_PATTERN` -/
def agentIdPattern : Language Char := letter isAgentStart * upTo (letter isAgentChar) 63

/-- `GROUP_NAME_PATTERN` -/
def groupNamePattern : Language Char := letter Char.isLower * upTo (letter isGroupChar) 63

/-- `CAPABILITY_PATTERN` -/
def capabilityPattern : Language Char :=
  letter Char.isLower * (letter isSegmentChar)∗ * plus (lit '.' * plus (letter isSegmentChar))

/-- `_CAPABILITY_PREFIX_PATTERN` -/
def capabilityPrefixPattern : Language Char :=
  letter Char.isLower * (letter isSegmentChar)∗ * (lit '.' * plus (letter isSegmentChar))∗

/-- The group half of a pattern whose names may have an ending. -/
def groupHalf (ending : Language Char) : Language Char := lit '*' + groupNamePattern * ending

/-- The capability half. -/
def capabilityHalf (ending : Language Char) : Language Char :=
  lit '*' + capabilityPattern * ending + capabilityPrefixPattern * ending * lit '.' * lit '*'

/-- The patterns in which each agent id, group, capability and prefix may have an ending. -/
def patterns (ending : Language Char) : Language Char :=
  lit '@' * (agentIdPattern * ending) + groupHalf ending * (lit '/' * capabilityHalf ending)

/-- A name may be followed by a newline. -/
def newline : Language Char := 1 + lit '\n'

variable {cs : List Char} {ending : Language Char} {n : ℕ}

/-- The constraint knows no ending. -/
theorem patterns_one : patterns 1 = aclPatternRegex := by
  simp only [patterns, groupHalf, capabilityHalf, agentIdPattern, groupNamePattern,
    capabilityPattern, capabilityPrefixPattern, aclPatternRegex, mul_one, mul_assoc]

/-! ### The parts -/

theorem isAgentName_iff : isAgentName cs = true ↔ cs ∈ agentIdPattern := by
  rw [agentIdPattern, mem_letter_mul_upTo]
  cases cs with
  | nil => exact iff_of_false Bool.false_ne_true fun ⟨_, _, h, _⟩ => nomatch h
  | cons c cs =>
    simp only [isAgentName, Bool.and_eq_true, decide_eq_true_eq, List.all_eq_true, and_assoc,
      List.cons.injEq, exists_and_left, exists_eq_left', exists_eq_left]
    rfl

theorem isGroupName_iff : isGroupName cs = true ↔ cs ∈ groupNamePattern := by
  rw [groupNamePattern, mem_letter_mul_upTo]
  cases cs with
  | nil => exact iff_of_false Bool.false_ne_true fun ⟨_, _, h, _⟩ => nomatch h
  | cons c cs =>
    simp only [isGroupName, Bool.and_eq_true, decide_eq_true_eq, List.all_eq_true, and_assoc,
      List.cons.injEq, exists_and_left, exists_eq_left', exists_eq_left]
    rfl

theorem intercalate_cons_eq (x : Char) (a : List Char) (l : List (List Char)) :
    [x].intercalate (a :: l) = a ++ l.flatMap (x :: ·) := by
  induction l generalizing a with
  | nil => simp
  | cons b l ih => rw [List.intercalate_cons_cons, ih]; simp

/-- A segment of a capability. -/
theorem mem_segment : cs ∈ plus (letter isSegmentChar) ↔ cs ≠ [] ∧ ∀ c ∈ cs, isSegmentChar c :=
  mem_letter_plus

/-- The first letter, the rest of the first segment, and the other segments. -/
theorem isDotted_iff : isDotted n cs = true ↔
    ∃ (c : Char) (seg : List Char) (segs : List (List Char)),
      c.isLower = true ∧ (∀ d ∈ seg, isSegmentChar d = true) ∧ n ≤ segs.length ∧
      (∀ s ∈ segs, s ∈ plus (letter isSegmentChar)) ∧
      cs = c :: (seg ++ segs.flatMap ('.' :: ·)) := by
  have hdot : ∀ s ∈ plus (letter isSegmentChar), '.' ∉ s := by
    intro s hs hmem
    exact absurd ((mem_segment.1 hs).2 '.' hmem) (by decide)
  constructor
  · intro h
    unfold isDotted at h
    split at h
    · rename_i c seg segs hsplit
      simp only [Bool.and_eq_true, List.all_eq_true, decide_eq_true_eq, Bool.not_eq_true',
        List.isEmpty_eq_false_iff] at h
      obtain ⟨⟨⟨hc, hseg⟩, hn⟩, hsegs⟩ := h
      refine ⟨c, seg, segs, hc, hseg, hn, fun s hs => mem_segment.2 (hsegs s hs), ?_⟩
      have hjoin : ['.'].intercalate (cs.splitOn '.') = cs := List.intercalate_splitOn '.'
      rw [hsplit, intercalate_cons_eq] at hjoin
      exact hjoin.symm
    · exact absurd h (by simp)
  · rintro ⟨c, seg, segs, hc, hseg, hn, hsegs, rfl⟩
    have hsplit : (c :: (seg ++ segs.flatMap ('.' :: ·))).splitOn '.' = (c :: seg) :: segs := by
      rw [← List.cons_append, ← intercalate_cons_eq, List.splitOn_intercalate]
      · intro s hs hmem
        rcases List.mem_cons.1 hs with rfl | hs
        · rcases List.mem_cons.1 hmem with rfl | hmem
          · exact absurd hc (by decide)
          · exact absurd (hseg '.' hmem) (by decide)
        · exact hdot s (hsegs s hs) hmem
      · exact List.cons_ne_nil _ _
    unfold isDotted
    rw [hsplit]
    simp only [Bool.and_eq_true, List.all_eq_true, decide_eq_true_eq, Bool.not_eq_true',
      List.isEmpty_eq_false_iff]
    exact ⟨⟨⟨hc, hseg⟩, hn⟩, fun s hs => mem_segment.1 (hsegs s hs)⟩

theorem mem_first : cs ∈ letter Char.isLower * (letter isSegmentChar)∗ ↔
    ∃ c seg, Char.isLower c = true ∧ (∀ d ∈ seg, isSegmentChar d = true) ∧ cs = c :: seg := by
  simp only [mem_letter_mul, mem_letter_kstar]

theorem isCapability_iff : isDotted 1 cs = true ↔ cs ∈ capabilityPattern := by
  rw [isDotted_iff, capabilityPattern, Language.mem_mul]
  simp only [mem_first, mem_lit_mul_plus]
  constructor
  · rintro ⟨c, seg, segs, hc, hseg, hn, hsegs, rfl⟩
    exact ⟨_, ⟨c, seg, hc, hseg, rfl⟩, _, ⟨segs, hn, hsegs, rfl⟩, rfl⟩
  · rintro ⟨_, ⟨c, seg, hc, hseg, rfl⟩, _, ⟨segs, hn, hsegs, rfl⟩, rfl⟩
    exact ⟨c, seg, segs, hc, hseg, hn, hsegs, rfl⟩

theorem isCapabilityPrefix_iff : isDotted 0 cs = true ↔ cs ∈ capabilityPrefixPattern := by
  rw [isDotted_iff, capabilityPrefixPattern, Language.mem_mul]
  simp only [mem_first, mem_lit_mul_kstar]
  constructor
  · rintro ⟨c, seg, segs, hc, hseg, -, hsegs, rfl⟩
    exact ⟨_, ⟨c, seg, hc, hseg, rfl⟩, _, ⟨segs, hsegs, rfl⟩, rfl⟩
  · rintro ⟨_, ⟨c, seg, hc, hseg, rfl⟩, _, ⟨segs, hsegs, rfl⟩, rfl⟩
    exact ⟨c, seg, segs, hc, hseg, Nat.zero_le _, hsegs, rfl⟩

/-- `re.match` of a pattern that ends in `$` allows a newline after what is matched. -/
theorem pyMatch_iff {m : List Char → Bool} {l : Language Char} (hm : ∀ cs, m cs = true ↔ cs ∈ l) :
    pyMatch m cs = true ↔ cs ∈ l * newline := by
  rw [newline, mem_mul_optional_iff, pyMatch, Bool.or_eq_true, hm, Bool.and_eq_true, beq_iff_eq, hm]
  refine or_congr_right ⟨fun h => ⟨_, h.2, ?_⟩, ?_⟩
  · exact (List.dropLast_append_getLast? '\n' h.1).symm
  · rintro ⟨v, hv, rfl⟩
    rw [List.getLast?_concat, List.dropLast_concat]
    exact ⟨rfl, hv⟩

/-! ### The halves -/

theorem avoids_agentIdPattern {c : Char} (hstart : isAgentStart c = false)
    (hrest : isAgentChar c = false) : Avoids c agentIdPattern :=
  (avoids_letter hstart).mul ((avoids_letter hrest).upTo 63)

theorem avoids_groupNamePattern {c : Char} (hstart : c.isLower = false)
    (hrest : isGroupChar c = false) : Avoids c groupNamePattern :=
  (avoids_letter hstart).mul ((avoids_letter hrest).upTo 63)

theorem avoids_segments {c : Char} (hdot : c ≠ '.') (hrest : isSegmentChar c = false) :
    Avoids c (lit '.' * plus (letter isSegmentChar)) :=
  (avoids_lit hdot).mul (avoids_letter hrest).plus

theorem avoids_capabilityPattern {c : Char} (hstart : c.isLower = false) (hdot : c ≠ '.')
    (hrest : isSegmentChar c = false) : Avoids c capabilityPattern :=
  ((avoids_letter hstart).mul (avoids_letter hrest).kstar).mul (avoids_segments hdot hrest).plus

theorem avoids_capabilityPrefixPattern {c : Char} (hstart : c.isLower = false) (hdot : c ≠ '.')
    (hrest : isSegmentChar c = false) : Avoids c capabilityPrefixPattern :=
  ((avoids_letter hstart).mul (avoids_letter hrest).kstar).mul (avoids_segments hdot hrest).kstar

theorem avoids_groupHalf (h : Avoids '/' ending) : Avoids '/' (groupHalf ending) :=
  (avoids_lit (by decide)).add ((avoids_groupNamePattern (by decide) (by decide)).mul h)

theorem avoids_capabilityHalf {c : Char} (hstart : c.isLower = false) (hdot : c ≠ '.')
    (hstar : c ≠ '*') (hrest : isSegmentChar c = false) (h : Avoids c ending) :
    Avoids c (capabilityHalf ending) :=
  ((avoids_lit hstar).add ((avoids_capabilityPattern hstart hdot hrest).mul h)).add
    ((((avoids_capabilityPrefixPattern hstart hdot hrest).mul h).mul (avoids_lit hdot)).mul
      (avoids_lit hstar))

/-- A glob after a prefix. -/
theorem endsWith_glob_iff {m : List Char → Bool} {l : Language Char}
    (hm : ∀ cs, m cs = true ↔ cs ∈ l) :
    cs.reverse.take 2 = ['*', '.'] ∧ m (cs.take (cs.length - 2)) = true ↔
      cs ∈ l * lit '.' * lit '*' := by
  rw [mem_mul_lit, hm]
  simp only [mem_mul_lit]
  constructor
  · rintro ⟨hglob, hmem⟩
    refine ⟨_, ⟨_, hmem, rfl⟩, ?_⟩
    have hdrop : cs.drop (cs.length - 2) = ['.', '*'] := by
      have hreverse := congrArg List.reverse hglob
      rwa [List.reverse_take, List.reverse_reverse, List.length_reverse] at hreverse
    rw [List.append_assoc, List.singleton_append, ← hdrop, List.take_append_drop]
  · rintro ⟨_, ⟨v, hv, rfl⟩, rfl⟩
    refine ⟨by simp, ?_⟩
    rw [List.append_assoc, List.length_append]
    simpa using hv

/-- A pattern with a slash is taken apart at the first one. -/
theorem mem_slash_iff {g l : Language Char} (hg : Avoids '/' g) :
    cs ∈ g * (lit '/' * l) ↔ ∃ cap, cs.drop (cs.takeWhile (· ≠ '/')).length = '/' :: cap ∧
      cs.takeWhile (· ≠ '/') ∈ g ∧ cap ∈ l := by
  rw [Language.mem_mul]
  simp only [mem_lit_mul]
  constructor
  · rintro ⟨u, hu, _, ⟨cap, hcap, rfl⟩, rfl⟩
    have hu' : ∀ c ∈ u, decide (c ≠ '/') = true := fun c hc =>
      decide_eq_true fun h => hg u hu (h ▸ hc)
    have htake : (u ++ '/' :: cap).takeWhile (· ≠ '/') = u := by
      rw [List.takeWhile_append_of_pos hu', List.takeWhile_cons_of_neg (by simp), List.append_nil]
    rw [htake, List.drop_left]
    exact ⟨cap, rfl, hu, hcap⟩
  · rintro ⟨cap, hdrop, hu, hcap⟩
    refine ⟨_, hu, _, ⟨cap, hcap, rfl⟩, ?_⟩
    rw [← hdrop]
    exact List.prefix_iff_eq_append.1 (List.takeWhile_prefix _)

/-- What does not begin with an `@`. -/
theorem not_mem_of_head (v : List Char) {l : Language Char} :
    '@' :: v ∉ groupHalf ending * (lit '/' * l) := by
  intro h
  obtain ⟨u, hu, w, hw, heq⟩ := Language.mem_mul.1 h
  rcases (Language.mem_add _ _ u).1 hu with rfl | hu
  · exact absurd (List.cons.inj heq).1 (by decide)
  · obtain ⟨g, hg, e, -, rfl⟩ := Language.mem_mul.1 hu
    obtain ⟨c, g, hc, -, rfl⟩ := mem_letter_mul.1 hg
    obtain rfl := (List.cons.inj heq).1
    exact absurd hc (by decide)

/-- **A check of the parts** accepts the patterns whose names may have the ending that it
allows. -/
theorem patternGrammar_iff {full : (List Char → Bool) → List Char → Bool}
    (hending : Avoids '/' ending)
    (hfull : ∀ (m : List Char → Bool) (l : Language Char), (∀ cs, m cs = true ↔ cs ∈ l) →
      ∀ cs, full m cs = true ↔ cs ∈ l * ending) (p : String) :
    patternGrammar full p = true ↔ p.toList ∈ patterns ending := by
  have hagent := hfull _ _ fun cs => isAgentName_iff
  have hgroup := hfull _ _ fun cs => isGroupName_iff
  have hcap := hfull _ _ fun cs => isCapability_iff
  have hglob := hfull _ _ fun cs => isCapabilityPrefix_iff
  unfold patternGrammar
  generalize p.toList = cs
  rw [patterns, Language.mem_add, mem_lit_mul]
  split
  · rename_i name
    rw [hagent, or_iff_left (not_mem_of_head name)]
    exact ⟨fun h => ⟨name, h, rfl⟩, fun ⟨v, hv, heq⟩ => (List.cons.inj heq).2 ▸ hv⟩
  · rename_i hat
    rw [or_iff_right (fun ⟨v, _, heq⟩ => hat v heq), mem_slash_iff (avoids_groupHalf hending)]
    dsimp only
    split
    · rename_i hnil
      refine iff_of_false Bool.false_ne_true fun ⟨cap, hdrop, _⟩ => ?_
      exact List.cons_ne_nil _ _ (hdrop.symm.trans hnil)
    · rename_i c cap hdrop
      have hslash : c = '/' := by
        have hrest : cs.dropWhile (· ≠ '/') = c :: cap := by
          have happ := (List.takeWhile_append_dropWhile (p := fun c => decide (c ≠ '/')) (l := cs))
          rw [← hdrop]
          exact (List.drop_left' rfl).symm.trans (congrArg _ happ)
        have hhead := List.head?_dropWhile_not (fun c => decide (c ≠ '/')) cs
        rw [hrest] at hhead
        simpa using hhead
      subst hslash
      rw [hdrop]
      simp only [Bool.and_eq_true, Bool.or_eq_true, beq_iff_eq, hgroup, hcap,
        Bool.not_eq_true', List.cons.injEq, true_and, exists_eq_left']
      rw [endsWith_glob_iff hglob, capabilityHalf, Language.mem_add, Language.mem_add, mem_lit,
        groupHalf, Language.mem_add, mem_lit, and_assoc]
      refine and_iff_right_of_imp fun h => ?_
      have hhalf : cap ∈ capabilityHalf ending := h.2
      have hnone := avoids_capabilityHalf (by decide) (by decide) (by decide) (by decide) hending
        cap hhalf
      simpa using hnone

/-! ### Both checks -/

/-- What the application accepts. -/
theorem isValidPattern_iff (p : String) : isValidPattern p = true ↔ p.toList ∈ patterns newline :=
  patternGrammar_iff (avoids_one.add (avoids_lit (by decide)))
    (fun _ _ hm _ => pyMatch_iff hm) p

/-- What the table accepts; it is what every row was checked against. -/
theorem rowPattern_iff (p : String) : patternGrammar id p = true ↔ p.toList ∈ aclPatternRegex := by
  rw [← patterns_one]
  refine patternGrammar_iff avoids_one (fun m l hm cs => ?_) p
  rw [mul_one]
  exact hm cs

/-- A name has a newline only after it, so without a newline it is one that the table accepts. -/
theorem patterns_newline_without : Without '\n' (patterns newline) (patterns 1) := by
  have hending : Without '\n' newline 1 := by
    intro w hw hc
    rcases (Language.mem_add _ _ w).1 hw with hw | hw
    · exact hw
    · exact without_lit w hw hc
  have hname : ∀ l : Language Char, Without '\n' (l * newline) (l * 1) :=
    fun l => (Without.refl l).mul hending
  have hgroup : Without '\n' (groupHalf newline) (groupHalf 1) := (Without.refl _).add (hname _)
  have hcap : Without '\n' (capabilityHalf newline) (capabilityHalf 1) :=
    ((Without.refl _).add (hname _)).add (((hname _).mul (.refl _)).mul (.refl _))
  exact ((Without.refl _).mul (hname _)).add (hgroup.mul ((Without.refl _).mul hcap))

/-- The table holds no newline. -/
theorem avoids_aclPatternRegex : Avoids '\n' aclPatternRegex := by
  rw [← patterns_one]
  refine ((avoids_lit (by decide)).mul ((avoids_agentIdPattern (by decide) (by decide)).mul
    avoids_one)).add (Avoids.mul ?_ ((avoids_lit (by decide)).mul ?_))
  · exact (avoids_lit (by decide)).add
      ((avoids_groupNamePattern (by decide) (by decide)).mul avoids_one)
  · exact avoids_capabilityHalf (by decide) (by decide) (by decide) (by decide) avoids_one

/-- **When the application and the database agree** on a pattern: unless it is one in which a
newline follows an agent id, a group, a capability or a prefix.  These the application accepts, and
the database does not. -/
theorem isValidPattern_iff_database (p : String) :
    (isValidPattern p = true ↔ p.toList ∈ aclPatternRegex) ↔
      ¬ (p.toList ∈ patterns newline ∧ '\n' ∈ p.toList) := by
  rw [isValidPattern_iff]
  constructor
  · rintro h ⟨hmem, hnewline⟩
    exact avoids_aclPatternRegex _ (h.1 hmem) hnewline
  · intro h
    constructor
    · intro hmem
      rw [← patterns_one]
      exact patterns_newline_without _ hmem fun hnewline => h ⟨hmem, hnewline⟩
    · intro hmem
      exact (isValidPattern_iff p).1 (isValidPattern_of_check ((rowPattern_iff p).2 hmem))

/-- An agent id with a newline after it is accepted, and cannot be inserted. -/
theorem agent_newline_refused :
    ¬ ∀ p : String, isValidPattern p = true ↔ p.toList ∈ aclPatternRegex := by
  intro h
  have hvalid : isValidPattern "@router\n" = true := by decide
  have hrefused : patternGrammar id "@router\n" = false := by decide
  have hrow := (rowPattern_iff _).2 ((h "@router\n").1 hvalid)
  exact absurd (hrow.symm.trans hrefused) (by decide)

end Backplane
