import Backplane.Acl.Rules
import Backplane.Data.Table
import Mathlib.Data.List.Sort

/-!
# The rule table

The rows behind the access rules, the grammar they are checked against on their way in and on their
way out, and the transactions of the rule endpoints.

* `isValidPattern`, `isValidRuleUserLevel` : the grammar of a loaded rule; `rowCheck` : the stricter
  one the database enforces.
* `AclRuleRow` : a row, which passes the check by construction; `AclRule` : a loaded rule.
* `rowToRule` : loads a row; `rowToRule_isSome` : it fails on a negative `ord` and nowhere else.
* `RuleChange.tx` : the transaction of each endpoint.
-/

namespace Backplane

/-! ### The grammar -/

/-- `[A-Za-z_][A-Za-z0-9_-]{0,63}` -/
def isAgentName : List Char → Bool
  | [] => false
  | c :: cs => (c.isAlpha || c == '_') && decide (cs.length ≤ 63) &&
      cs.all fun c => c.isAlphanum || c == '_' || c == '-'

/-- `[a-z][a-z0-9_:.-]{0,63}` -/
def isGroupName : List Char → Bool
  | [] => false
  | c :: cs => c.isLower && decide (cs.length ≤ 63) &&
      cs.all fun c => c.isLower || c.isDigit || c == '_' || c == ':' || c == '.' || c == '-'

/-- `[a-z0-9_]` -/
def isSegmentChar (c : Char) : Bool := c.isLower || c.isDigit || c == '_'

/-- `[a-z][a-z0-9_]*` followed by at least `n` segments `\.[a-z0-9_]+` -/
def isDotted (n : ℕ) (cs : List Char) : Bool :=
  match cs.splitOn '.' with
  | (c :: seg) :: segs => c.isLower && seg.all isSegmentChar && decide (n ≤ segs.length) &&
      segs.all fun s => !s.isEmpty && s.all isSegmentChar
  | _ => false

/-- `tier[0-9]+` -/
def isTier : List Char → Bool
  | 't' :: 'i' :: 'e' :: 'r' :: ds => !ds.isEmpty && ds.all Char.isDigit
  | _ => false

/-- `re.match` of a pattern that ends in `$`, which also matches before a trailing newline. -/
def pyMatch (m : List Char → Bool) (cs : List Char) : Bool :=
  m cs || (cs.getLast? == some '\n' && m cs.dropLast)

/-- `<group>/<cap>` or `@<agent_id>`, each part matched by `full`. -/
def patternGrammar (full : (List Char → Bool) → List Char → Bool) (pattern : String) : Bool :=
  match pattern.toList with
  | '@' :: name => full isAgentName name
  | cs =>
    let group := cs.takeWhile (· ≠ '/')
    match cs.drop group.length with
    | [] => false
    | _ :: cap => !cap.contains '/' && (group == ['*'] || full isGroupName group) &&
        (cap == ['*'] || full (isDotted 1) cap ||
          (cap.reverse.take 2 == ['*', '.'] && full (isDotted 0) (cap.take (cap.length - 2))))

/-- `*`, `admin`, `service` or `tierN`, matched by `full`. -/
def levelGrammar (full : (List Char → Bool) → List Char → Bool) (level : String) : Bool :=
  full (fun cs => cs == "*".toList || cs == "admin".toList || cs == "service".toList || isTier cs)
    level.toList

/-- `is_valid_pattern` -/
def isValidPattern : String → Bool := patternGrammar pyMatch

/-- `is_valid_rule_user_level` -/
def isValidRuleUserLevel : String → Bool := levelGrammar pyMatch

/-- What the database checks of a row; its `$` matches at the end only. -/
def rowCheck (ord : ℤ) (userLevel callerPattern calleePattern : String) : Bool :=
  decide (-2147483648 ≤ ord) && decide (ord ≤ 2147483647) && levelGrammar id userLevel &&
    patternGrammar id callerPattern && patternGrammar id calleePattern

theorem pyMatch_of_full {m : List Char → Bool} {cs : List Char} (h : m cs = true) :
    pyMatch m cs = true := by
  rw [pyMatch, h, Bool.true_or]

theorem isValidPattern_of_check {p : String} (h : patternGrammar id p = true) :
    isValidPattern p = true := by
  unfold isValidPattern
  unfold patternGrammar at h ⊢
  split at h
  · exact pyMatch_of_full h
  · dsimp only at h ⊢
    split at h
    · exact absurd h (by simp)
    · simp only [id, Bool.and_eq_true, Bool.or_eq_true] at h ⊢
      obtain ⟨⟨hslash, hgroup⟩, hcap⟩ := h
      refine ⟨⟨hslash, hgroup.imp_right pyMatch_of_full⟩, ?_⟩
      exact hcap.imp (fun h => h.imp_right pyMatch_of_full) fun h => ⟨h.1, pyMatch_of_full h.2⟩

theorem isValidRuleUserLevel_of_check {l : String} (h : levelGrammar id l = true) :
    isValidRuleUserLevel l = true := pyMatch_of_full h

/-! ### Rows and loaded rules -/

/-- A level that a rule may name. -/
abbrev RuleLevel := { l : String // isValidRuleUserLevel l = true }

/-- A pattern that a rule may hold. -/
abbrev RulePattern := { p : String // isValidPattern p = true }

/-- A row of the table. -/
structure AclRuleRow where
  ruleId : String
  ord : ℤ
  name : Option String
  description : Option String
  /-- `true` for an allow rule, `false` for a deny rule. -/
  allow : Bool
  userLevel : String
  callerPattern : String
  calleePattern : String
  /-- The constraints of the table. -/
  checked : rowCheck ord userLevel callerPattern calleePattern = true
  deriving DecidableEq

/-- A loaded rule; its grammar is legal. -/
structure AclRule where
  ruleId : Option String
  /-- Evaluation order, lower wins. -/
  ord : ℕ
  name : Option String
  description : Option String
  /-- `true` for an allow rule, `false` for a deny rule. -/
  allow : Bool
  userLevel : RuleLevel
  callerPattern : RulePattern
  calleePattern : RulePattern
  deriving DecidableEq

/-- What the evaluator reads of a loaded rule. -/
def AclRule.toRule (r : AclRule) : Rule :=
  ⟨r.ruleId, r.name, r.allow, r.userLevel, r.callerPattern, r.calleePattern⟩

/-- Load a row; `none` when the rule model refuses it. -/
def rowToRule (row : AclRuleRow) : Option AclRule :=
  if 0 ≤ row.ord then
    if hl : isValidRuleUserLevel row.userLevel = true then
      if hr : isValidPattern row.callerPattern = true then
        if he : isValidPattern row.calleePattern = true then
          some ⟨some row.ruleId, row.ord.toNat, row.name, row.description, row.allow,
            ⟨row.userLevel, hl⟩, ⟨row.callerPattern, hr⟩, ⟨row.calleePattern, he⟩⟩
        else none
      else none
    else none
  else none

/-- A row can be loaded unless its `ord` is negative. -/
theorem rowToRule_isSome (row : AclRuleRow) : (rowToRule row).isSome = true ↔ 0 ≤ row.ord := by
  have hc := row.checked
  simp only [rowCheck, Bool.and_eq_true] at hc
  obtain ⟨⟨⟨-, hl⟩, hr⟩, he⟩ := hc
  unfold rowToRule
  rw [dif_pos (isValidRuleUserLevel_of_check hl), dif_pos (isValidPattern_of_check hr),
    dif_pos (isValidPattern_of_check he)]
  split_ifs with ho
  · simpa using ho
  · simpa using ho

theorem ord_rowToRule {row : AclRuleRow} {r : AclRule} (h : rowToRule row = some r) :
    (r.ord : ℤ) = row.ord := by
  unfold rowToRule at h
  split_ifs at h with ho
  obtain rfl := Option.some.inj h
  exact Int.toNat_of_nonneg ho

/-! ### The transactions -/

/-- The rule table. -/
abbrev RuleTable := Table String AclRuleRow

/-- How a request on the rules fails. -/
inductive RuleError
  | http (statusCode : ℕ) (detail : String)
  | raised
  deriving DecidableEq, Repr

/-- A request to add a rule. -/
structure CreateRule where
  ord : ℕ
  name : Option String := none
  description : Option String := none
  /-- `true` for an allow rule, `false` for a deny rule. -/
  allow : Bool
  userLevel : RuleLevel
  callerPattern : RulePattern
  calleePattern : RulePattern
  deriving DecidableEq

/-- A request to patch a rule: a field is absent, an explicit null, or a value. -/
structure PatchRule where
  ord : Option (Option ℕ) := none
  name : Option (Option String) := none
  description : Option (Option String) := none
  /-- `true` for an allow rule, `false` for a deny rule. -/
  allow : Option (Option Bool) := none
  userLevel : Option (Option RuleLevel) := none
  callerPattern : Option (Option RulePattern) := none
  calleePattern : Option (Option RulePattern) := none
  deriving DecidableEq

namespace RuleTable

variable (t : RuleTable)

/-- All rows. -/
def rows : List AclRuleRow := (t.select fun _ _ => true).map Prod.snd

/-- `list_acl_rules`: the rows in `ord` order. -/
def listAclRules : List AclRuleRow := t.rows.insertionSort fun r r' => r.ord ≤ r'.ord

/-- Another row has this `ord` already. -/
def ordTaken (id : String) (ord : ℤ) : Bool :=
  t.rows.any fun r => decide (r.ruleId ≠ id) && decide (r.ord = ord)

/-- `insert_acl_rule` under the id `id`. -/
def insertAclRule (id : String) (ord : ℤ) (r : CreateRule) : Except RuleError RuleTable :=
  if h : rowCheck ord r.userLevel r.callerPattern r.calleePattern = true then
    if t.ordTaken id ord then .error (.http 409 s!"ord {ord} already in use by another rule")
    else .ok (t.insert id ⟨id, ord, r.name, r.description, r.allow, r.userLevel, r.callerPattern,
      r.calleePattern, h⟩)
  else .error .raised

/-- The value of a patched column; the column must not become null. -/
def patched {α : Type} (column : String) (old : α) : Option (Option α) → Except RuleError α
  | none => .ok old
  | some none => .error (.http 400
      ("column '" ++ column ++ "' cannot be set to null; omit the field to leave it unchanged"))
  | some (some v) => .ok v

/-- `update_acl_rule`, with the errors the endpoint makes of it. -/
def updateAclRule (id : String) (p : PatchRule) : Except RuleError RuleTable :=
  match t.lookup id with
  | none => .error (.http 404 "rule not found")
  | some row => do
    let ord ← patched "ord" row.ord (p.ord.map fun o => o.map Int.ofNat)
    let allow ← patched "effect" row.allow p.allow
    let userLevel ← patched "user_level" row.userLevel (p.userLevel.map fun o => o.map Subtype.val)
    let caller ← patched "caller_pattern" row.callerPattern
      (p.callerPattern.map fun o => o.map Subtype.val)
    let callee ← patched "callee_pattern" row.calleePattern
      (p.calleePattern.map fun o => o.map Subtype.val)
    if h : rowCheck ord userLevel caller callee = true then
      if t.ordTaken id ord then .error (.http 409 s!"ord {ord} already in use by another rule")
      else .ok (t.insert id ⟨id, ord, p.name.getD row.name, p.description.getD row.description,
        allow, userLevel, caller, callee, h⟩)
    else .error .raised

/-- `replace_acl_rules`: the new rules sorted by `ord` and packed from `0` on. -/
def replaceAclRules (ids : List String) (rules : List CreateRule) : Except RuleError RuleTable :=
  ((ids.zip (rules.insertionSort fun r r' => r.ord ≤ r'.ord)).zipIdx).foldlM
    (fun t r => insertAclRule t r.1.1 (r.2 : ℕ) r.1.2) (∅ : RuleTable)

/-- `UPDATE acl_rules SET ord = $2 WHERE rule_id = $1` -/
def setOrd (id : String) (ord : ℤ) : Except RuleError RuleTable :=
  match t.lookup id with
  | none => .ok t
  | some row =>
    if h : rowCheck ord row.userLevel row.callerPattern row.calleePattern = true then
      if t.ordTaken id ord then .error .raised
      else .ok (t.insert id { row with ord, checked := h })
    else .error .raised

/-- Assign each of these rows its new `ord`, one after the other. -/
def setOrds (t : RuleTable) (ords : List (String × ℤ)) : Except RuleError RuleTable :=
  ords.foldlM (fun t p => t.setOrd p.1 p.2) t

/-- The first `ord` from `next` on that is not in use, after at most `fuel` others. -/
def nextFree (used : List ℤ) : ℕ → ℕ → ℕ
  | 0, next => next
  | fuel + 1, next => if (next : ℤ) ∈ used then nextFree used fuel (next + 1) else next

/-- The lowest unused `ord`s for these rows, in their order. -/
def repacked (used : List ℤ) (next : ℕ) : List AclRuleRow → List (String × ℤ)
  | [] => []
  | r :: rs =>
    let n := nextFree used used.length next
    (r.ruleId, (n : ℤ)) :: repacked (n :: used) (n + 1) rs

/-- `reorder_acl_rules`: park every row below zero, assign what was asked for, repack the rest. -/
def reorderAclRules (newOrds : Table String ℤ) : Except RuleError RuleTable :=
  let asked := newOrds.select fun _ _ => true
  let targets := asked.map Prod.snd
  if asked.isEmpty then .ok t
  else if ¬ targets.Nodup then .error .raised
  else if asked.any fun p => (t.lookup p.1).isNone then .error .raised
  -- `-ord` has no four bytes for the least one
  else if t.rows.any fun r => r.ord = -2147483648 then .error .raised
  else do
    let rows := t.listAclRules
    let t ← t.setOrds (rows.map fun r => (r.ruleId, -r.ord - 1))
    let t ← t.setOrds asked
    t.setOrds (repacked targets 0 (rows.filter fun r => (newOrds.lookup r.ruleId).isNone))

end RuleTable

/-- What a request does to the rules. -/
inductive RuleChange
  /-- `PUT /acl/rules` -/
  | replace (rules : List CreateRule)
  /-- `POST /acl/rules` -/
  | add (r : CreateRule)
  /-- `PATCH /acl/rules/{id}` -/
  | update (id : String) (p : PatchRule)
  /-- `DELETE /acl/rules/{id}` -/
  | delete (id : String)
  /-- `POST /acl/rules/reorder` -/
  | reorder (newOrds : Table String ℤ)

/-- The transaction of a request, which takes its new ids from `ids`. -/
def RuleChange.tx (t : RuleTable) (ids : List String) : RuleChange → Except RuleError RuleTable
  | replace rules => RuleTable.replaceAclRules ids rules
  | add r => t.insertAclRule (ids.headD "") r.ord r
  | update id p => t.updateAclRule id p
  | delete id => .ok (t.erase id)
  | reorder newOrds => t.reorderAclRules newOrds

/-- How many ids the transaction takes. -/
def RuleChange.fresh : RuleChange → ℕ
  | replace rules => rules.length
  | add _ => 1
  | _ => 0

/-! ### Tables that can be loaded -/

/-- What goes on after a statement goes on after its success. -/
theorem bind_eq_ok {ε α β : Type} {x : Except ε α} {f : α → Except ε β} {y : β} :
    (x >>= f) = .ok y ↔ ∃ a, x = .ok a ∧ f a = .ok y := by
  cases x with
  | error err => exact iff_of_false (fun h => nomatch h) fun ⟨_, h, _⟩ => nomatch h
  | ok a => exact ⟨fun h => ⟨a, rfl, h⟩, fun ⟨_, h, h'⟩ => Except.ok.inj h ▸ h'⟩

namespace RuleTable

variable {t t' : RuleTable} {id : String} {ord : ℤ}

/-- Every row sits under its id, and its `ord` is not negative unless the id is in `S`. -/
def LoadableBut (S : String → Prop) (t : RuleTable) : Prop :=
  ∀ k r, t.lookup k = some r → r.ruleId = k ∧ (0 ≤ r.ord ∨ S k)

/-- Every row sits under its id and can be loaded. -/
abbrev Loadable (t : RuleTable) : Prop := t.LoadableBut fun _ => False

theorem mem_rows {r : AclRuleRow} : r ∈ t.rows ↔ ∃ k, t.lookup k = some r := by
  simp only [rows, List.mem_map, Prod.exists, exists_eq_right]
  exact exists_congr fun k => by rw [Table.mem_select, and_iff_left rfl]

theorem mem_listAclRules {r : AclRuleRow} : r ∈ t.listAclRules ↔ ∃ k, t.lookup k = some r := by
  rw [listAclRules, List.mem_insertionSort, mem_rows]

theorem sorted_listAclRules (t : RuleTable) :
    t.listAclRules.Pairwise fun r r' => r.ord ≤ r'.ord := by
  have : Std.Total fun r r' : AclRuleRow => r.ord ≤ r'.ord := ⟨fun r r' => le_total r.ord r'.ord⟩
  have : IsTrans AclRuleRow fun r r' => r.ord ≤ r'.ord := ⟨fun _ _ _ => le_trans⟩
  exact List.pairwise_insertionSort _ _

theorem Loadable.insert {row : AclRuleRow} (h : t.Loadable) (hid : row.ruleId = id)
    (ho : 0 ≤ row.ord) : Loadable (t.insert id row) := by
  intro k r hr
  rw [Table.lookup_insert] at hr
  split_ifs at hr with hk
  · obtain rfl := Option.some.inj hr
    exact ⟨hid.trans hk.symm, .inl ho⟩
  · exact h k r hr

theorem Loadable.insertAclRule {n : ℕ} {r : CreateRule} (h : t.Loadable)
    (he : t.insertAclRule id n r = .ok t') : t'.Loadable := by
  unfold RuleTable.insertAclRule at he
  split_ifs at he
  obtain rfl := Except.ok.inj he
  exact h.insert rfl (Int.natCast_nonneg n)

theorem Loadable.replaceAclRules {ids : List String} {rules : List CreateRule}
    (he : replaceAclRules ids rules = .ok t') : t'.Loadable := by
  have hfold : ∀ (l : List ((String × CreateRule) × ℕ)) (t : RuleTable), t.Loadable →
      l.foldlM (fun t r => RuleTable.insertAclRule t r.1.1 (r.2 : ℕ) r.1.2) t = .ok t' →
      t'.Loadable := by
    intro l
    induction l with
    | nil =>
      intro t h he
      obtain rfl := Except.ok.inj he
      exact h
    | cons x l ih =>
      intro t h he
      rw [List.foldlM_cons] at he
      obtain ⟨t₁, ht, he⟩ := bind_eq_ok.1 he
      exact ih t₁ (h.insertAclRule ht) he
  exact hfold _ ∅ (fun k r hr => absurd hr (by simp)) he

/-- Reading a column that was not set to null. -/
theorem patched_ok {α : Type} {column : String} {old v : α} {p : Option (Option α)}
    (h : patched column old p = .ok v) : p = none ∧ v = old ∨ p = some (some v) := by
  match p, h with
  | none, h => exact .inl ⟨rfl, (Except.ok.inj h).symm⟩
  | some (some w), h => exact .inr (by rw [Except.ok.inj h])

theorem Loadable.updateAclRule {p : PatchRule} (h : t.Loadable)
    (he : t.updateAclRule id p = .ok t') : t'.Loadable := by
  unfold RuleTable.updateAclRule at he
  cases hr : t.lookup id with
  | none =>
    rw [hr] at he
    exact absurd he (by simp)
  | some row =>
    rw [hr] at he
    simp only [bind, Except.bind] at he
    split at he
    · exact absurd he (by simp)
    · rename_i ord hord
      have ho : 0 ≤ ord := by
        rcases patched_ok hord with ⟨-, rfl⟩ | hp
        · exact (h _ row hr).2.resolve_right not_false
        · obtain ⟨o, -, hn⟩ := Option.map_eq_some_iff.1 hp
          obtain ⟨n, -, rfl⟩ := Option.map_eq_some_iff.1 hn
          exact Int.natCast_nonneg n
      repeat' split at he
      all_goals first
        | obtain rfl := Except.ok.inj he
          exact h.insert rfl ho
        | exact absurd he (by simp)

theorem LoadableBut.mono {S S' : String → Prop} (h : t.LoadableBut S) (hs : ∀ k, S k → S' k) :
    t.LoadableBut S' := fun k r hr => ⟨(h k r hr).1, (h k r hr).2.imp_right (hs k)⟩

/-- An assignment takes its row off the exceptions, unless the new `ord` is negative. -/
theorem LoadableBut.setOrd {S : String → Prop} (h : t.LoadableBut S)
    (he : t.setOrd id ord = .ok t') :
    t'.LoadableBut (fun k => S k ∧ k ≠ id ∨ k = id ∧ ord < 0) ∧
      ∀ k, (t'.lookup k).isSome = (t.lookup k).isSome := by
  unfold RuleTable.setOrd at he
  cases hr : t.lookup id with
  | none =>
    rw [hr] at he
    obtain rfl := Except.ok.inj he
    refine ⟨fun k r hk => ⟨(h k r hk).1, (h k r hk).2.imp_right fun hs => .inl ⟨hs, ?_⟩⟩, fun _ => rfl⟩
    rintro rfl
    rw [hr] at hk
    exact absurd hk (by simp)
  | some row =>
    rw [hr] at he
    dsimp only at he
    split_ifs at he
    obtain rfl := Except.ok.inj he
    constructor
    · intro k r hk
      rw [Table.lookup_insert] at hk
      split_ifs at hk with hid
      · obtain rfl := Option.some.inj hk
        refine ⟨(h id row hr).1.trans hid.symm, ?_⟩
        rcases lt_or_ge ord 0 with ho | ho
        · exact .inr (.inr ⟨hid, ho⟩)
        · exact .inl ho
      · exact ⟨(h k r hk).1, (h k r hk).2.imp_right fun hs => .inl ⟨hs, hid⟩⟩
    · intro k
      rw [Table.lookup_insert]
      split_ifs with hid
      · rw [hid, hr]
        rfl
      · rfl

/-- Assignments take their rows off the exceptions, unless a new `ord` is negative. -/
theorem LoadableBut.setOrds {S : String → Prop} {ords : List (String × ℤ)} (h : t.LoadableBut S)
    (he : t.setOrds ords = .ok t') :
    t'.LoadableBut (fun k => S k ∧ k ∉ ords.map Prod.fst ∨ ∃ o < 0, (k, o) ∈ ords) ∧
      ∀ k, (t'.lookup k).isSome = (t.lookup k).isSome := by
  induction ords generalizing t S with
  | nil =>
    obtain rfl := Except.ok.inj he
    exact ⟨h.mono fun k hk => .inl ⟨hk, by simp⟩, fun _ => rfl⟩
  | cons p ords ih =>
    rw [RuleTable.setOrds, List.foldlM_cons] at he
    obtain ⟨t₁, ht, he⟩ := bind_eq_ok.1 he
    obtain ⟨h₁, hk₁⟩ := h.setOrd ht
    obtain ⟨h₂, hk₂⟩ := ih h₁ he
    refine ⟨h₂.mono fun k => ?_, fun k => (hk₂ k).trans (hk₁ k)⟩
    rintro (⟨⟨hs, hne⟩ | ⟨rfl, ho⟩, hnot⟩ | ⟨o, ho, hmem⟩)
    · exact .inl ⟨hs, by simpa [hne] using hnot⟩
    · exact .inr ⟨p.2, ho, List.mem_cons_self⟩
    · exact .inr ⟨o, ho, List.mem_cons_of_mem _ hmem⟩

theorem map_repacked (used : List ℤ) (next : ℕ) (rs : List AclRuleRow) :
    (repacked used next rs).map Prod.fst = rs.map AclRuleRow.ruleId := by
  induction rs generalizing used next with
  | nil => rfl
  | cons r rs ih => simp [repacked, ih]

theorem repacked_nonneg {used : List ℤ} {next : ℕ} {rs : List AclRuleRow} {p : String × ℤ}
    (h : p ∈ repacked used next rs) : 0 ≤ p.2 := by
  induction rs generalizing used next with
  | nil => exact absurd h (by simp [repacked])
  | cons r rs ih =>
    rcases List.mem_cons.1 h with rfl | h
    · exact Int.natCast_nonneg _
    · exact ih h

/-- Reordering assigns every row, so only a negative target leaves a row that cannot be loaded. -/
theorem Loadable.reorderAclRules {newOrds : Table String ℤ} (h : t.Loadable)
    (hnew : ∀ id ord, newOrds.lookup id = some ord → 0 ≤ ord)
    (he : t.reorderAclRules newOrds = .ok t') : t'.Loadable := by
  unfold RuleTable.reorderAclRules at he
  dsimp only at he
  split_ifs at he
  · obtain rfl := Except.ok.inj he
    exact h
  obtain ⟨t₁, ht₁, he⟩ := bind_eq_ok.1 he
  obtain ⟨t₂, ht₂, he⟩ := bind_eq_ok.1 he
  obtain ⟨h₁, hk₁⟩ := h.setOrds ht₁
  have hall : t₁.LoadableBut fun k => (t.lookup k).isSome = true := by
    intro k r hr
    refine ⟨(h₁ k r hr).1, .inr ?_⟩
    have hk : (t₁.lookup k).isSome = true := by rw [hr]; rfl
    exact (hk₁ k).symm.trans hk
  obtain ⟨h₂, -⟩ := hall.setOrds ht₂
  obtain ⟨h₃, -⟩ := h₂.setOrds he
  refine h₃.mono fun k => ?_
  have hasked : ∀ o, (k, o) ∈ newOrds.select (fun _ _ => true) ↔ newOrds.lookup k = some o :=
    fun o => Table.mem_select.trans (and_iff_left rfl)
  rintro (⟨⟨hk, hnot⟩ | ⟨o, ho, hmem⟩, hrest⟩ | ⟨o, ho, hmem⟩)
  · -- a row that was not asked for is repacked
    obtain ⟨r, hr⟩ := Option.isSome_iff_exists.1 hk
    refine hrest ?_
    rw [map_repacked, List.mem_map]
    refine ⟨r, List.mem_filter.2 ⟨mem_listAclRules.2 ⟨k, hr⟩, ?_⟩, (h k r hr).1⟩
    rw [(h k r hr).1, Option.isNone_iff_eq_none, Option.eq_none_iff_forall_ne_some]
    intro o ho
    exact hnot (List.mem_map.2 ⟨(k, o), (hasked o).2 ho, rfl⟩)
  · exact absurd (hnew k o ((hasked o).1 hmem)) (by omega)
  · exact absurd (repacked_nonneg hmem) (by simpa using ho)

/-- **A request leaves a table that can be loaded**, unless it reorders to a negative `ord`. -/
theorem Loadable.tx {c : RuleChange} {ids : List String} (h : t.Loadable)
    (hc : ∀ newOrds, c = .reorder newOrds → ∀ id ord, newOrds.lookup id = some ord → 0 ≤ ord)
    (he : c.tx t ids = .ok t') : t'.Loadable := by
  cases c with
  | replace rules => exact Loadable.replaceAclRules he
  | add r => exact h.insertAclRule he
  | update id p => exact h.updateAclRule he
  | delete id =>
    obtain rfl := Except.ok.inj he
    intro k r hr
    by_cases hk : k = id
    · subst hk
      rw [AList.lookup_erase] at hr
      exact absurd hr (by simp)
    · exact h k r ((AList.lookup_erase_ne hk).symm.trans hr)
  | reorder newOrds => exact h.reorderAclRules (hc newOrds rfl) he

end RuleTable

end Backplane
