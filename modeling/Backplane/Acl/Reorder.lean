import Backplane.Acl.Store
import Backplane.Data.Vacant

/-!
# Reordering the rules

`reorder_acl_rules` parks every rule below zero, assigns the `ord`s that were asked for one after
the other, and packs the rest.  The `ord`s are unique after each of its statements, or the
transaction fails.

* `Reordered` : what a reorder is for.
* `Clear` : assignments that meet no `ord` in use; `setOrds_of_clear`, `clear_of_setOrds`.
* `repacked_eq` : the rest takes the numbers that were not asked for, from the lowest on.
* `Reorderable` : no assignment meets a rule that is still parked.
* `reorderAclRules_iff` : a reorder does what it is for on these and on no others.
-/

namespace Backplane

/-- A row but for its place. -/
def AclRuleRow.content (r : AclRuleRow) :
    String × Option String × Option String × Bool × String × String × String :=
  (r.ruleId, r.name, r.description, r.allow, r.userLevel, r.callerPattern, r.calleePattern)

/-- The column has four bytes. -/
def IsInt4 (ord : ℤ) : Prop := -2147483648 ≤ ord ∧ ord ≤ 2147483647

instance : DecidablePred IsInt4 := fun _ => inferInstanceAs (Decidable (_ ∧ _))

theorem AclRuleRow.isInt4 (r : AclRuleRow) : IsInt4 r.ord := by
  have hc := r.checked
  simp only [rowCheck, Bool.and_eq_true, decide_eq_true_eq] at hc
  exact hc.1.1.1

theorem AclRuleRow.rowCheck_iff (r : AclRuleRow) (ord : ℤ) :
    rowCheck ord r.userLevel r.callerPattern r.calleePattern = true ↔ IsInt4 ord := by
  have hc := r.checked
  simp only [rowCheck, Bool.and_eq_true, decide_eq_true_eq] at hc ⊢
  exact ⟨fun h => h.1.1.1, fun h => ⟨⟨⟨h, hc.1.1.2⟩, hc.1.2⟩, hc.2⟩⟩

namespace RuleTable

variable {t t₁ t' : RuleTable} {newOrds : Table String ℤ} {id : String} {ord : ℤ}
  {ops : List (String × ℤ)}

/-! ### What a reorder is for -/

/-- The `ord` of a rule. -/
def ordOf (t : RuleTable) (id : String) : Option ℤ := (t.lookup id).map AclRuleRow.ord

/-- What a rule is, but for its place. -/
def contentOf (t : RuleTable) (id : String) :
    Option (String × Option String × Option String × Bool × String × String × String) :=
  (t.lookup id).map AclRuleRow.content

/-- Every row sits under its primary key. -/
def Keyed (t : RuleTable) : Prop := ∀ k r, t.lookup k = some r → r.ruleId = k

/-- No two rules have one `ord`. -/
def DistinctOrds (t : RuleTable) : Prop :=
  ∀ k k' o, t.ordOf k = some o → t.ordOf k' = some o → k = k'

/-- What is asked for, in the order of the request. -/
def asked (newOrds : Table String ℤ) : List (String × ℤ) := newOrds.select fun _ _ => true

/-- The `ord`s that are asked for. -/
def targets (newOrds : Table String ℤ) : List ℤ := (asked newOrds).map Prod.snd

/-- The rules that nothing is asked for, in their order. -/
def untouched (t : RuleTable) (newOrds : Table String ℤ) : List AclRuleRow :=
  t.listAclRules.filter fun r => (newOrds.lookup r.ruleId).isNone

/-- The request is about rules that are there, and gives no two of them one place. -/
structure ValidReorder (t : RuleTable) (newOrds : Table String ℤ) : Prop where
  /-- No two rules get one `ord`. -/
  nodup : (targets newOrds).Nodup
  /-- The rules are there. -/
  known : ∀ k o, newOrds.lookup k = some o → ∃ r, t.lookup k = some r

/-- The rules are the same, and in their new order. -/
structure Reordered (t : RuleTable) (newOrds : Table String ℤ) (t' : RuleTable) : Prop where
  /-- The same rules are there. -/
  content : ∀ k, t'.contentOf k = t.contentOf k
  /-- Each has the `ord` that was asked for it. -/
  requested : ∀ k o, newOrds.lookup k = some o → t'.ordOf k = some o
  /-- The others stand as they stood to each other. -/
  order : ∀ k k' o o' n n', newOrds.lookup k = none → newOrds.lookup k' = none →
    t.ordOf k = some o → t.ordOf k' = some o' → o < o' →
      t'.ordOf k = some n → t'.ordOf k' = some n' → n < n'
  /-- No two have one `ord`. -/
  distinct : t'.DistinctOrds

/-- A valid request is carried out, and every other is refused. -/
structure Reorders (t : RuleTable) (newOrds : Table String ℤ) : Prop where
  /-- No statement fails, and the order is the new one. -/
  valid : t.ValidReorder newOrds → ∃ t', t.reorderAclRules newOrds = .ok t' ∧ t.Reordered newOrds t'
  /-- The transaction fails, and leaves the table alone. -/
  invalid : ¬ t.ValidReorder newOrds → ∃ e, t.reorderAclRules newOrds = .error e

/-! ### One assignment -/

theorem ordTaken_eq_true (hkeyed : t.Keyed) :
    t.ordTaken id ord = true ↔ ∃ k, k ≠ id ∧ t.ordOf k = some ord := by
  simp only [ordTaken, List.any_eq_true, mem_rows, Bool.and_eq_true, decide_eq_true_eq]
  constructor
  · rintro ⟨r, ⟨k, hk⟩, hne, rfl⟩
    rw [hkeyed k r hk] at hne
    exact ⟨k, hne, by rw [ordOf, hk]; rfl⟩
  · rintro ⟨k, hne, ho⟩
    obtain ⟨r, hr, rfl⟩ := Option.map_eq_some_iff.1 ho
    exact ⟨r, ⟨k, hr⟩, (hkeyed k r hr).symm ▸ hne, rfl⟩

/-- What a table is after some assignments. -/
structure Assigned (t : RuleTable) (ops : List (String × ℤ)) (t' : RuleTable) : Prop where
  /-- Every row sits under its primary key. -/
  keyed : t'.Keyed
  /-- The same rules are there. -/
  content : ∀ k, t'.contentOf k = t.contentOf k
  /-- These have their new `ord`s. -/
  assigned : ∀ p ∈ ops, t'.ordOf p.1 = some p.2
  /-- The others have theirs. -/
  rest : ∀ k, k ∉ ops.map Prod.fst → t'.ordOf k = t.ordOf k

theorem Assigned.nil (hkeyed : t.Keyed) : t.Assigned [] t :=
  ⟨hkeyed, fun _ => rfl, fun _ h => absurd h List.not_mem_nil, fun _ _ => rfl⟩

theorem Assigned.cons {p : String × ℤ} (h : t.Assigned [p] t₁) (h' : t₁.Assigned ops t')
    (hp : p.1 ∉ ops.map Prod.fst) : t.Assigned (p :: ops) t' := by
  refine ⟨h'.keyed, fun k => (h'.content k).trans (h.content k), ?_, ?_⟩
  · rintro q hq
    rcases List.mem_cons.1 hq with rfl | hq
    · exact (h'.rest _ hp).trans (h.assigned _ (List.mem_singleton_self _))
    · exact h'.assigned q hq
  · intro k hk
    rw [List.map_cons, List.mem_cons, not_or] at hk
    exact (h'.rest k hk.2).trans (h.rest k (by simpa using hk.1))

theorem assigned_insert {row r : AclRuleRow} (hkeyed : t.Keyed) (hrow : t.lookup id = some row)
    (hr : r.content = row.content) : t.Assigned [(id, r.ord)] (t.insert id r) := by
  have hid : r.ruleId = row.ruleId := congrArg Prod.fst hr
  refine ⟨?_, ?_, ?_, ?_⟩
  · intro k r' hk
    rw [Table.lookup_insert] at hk
    split_ifs at hk with hkid
    · obtain rfl := Option.some.inj hk
      rw [hid, hkeyed id row hrow, hkid]
    · exact hkeyed k r' hk
  · intro k
    rw [contentOf, contentOf, Table.lookup_insert]
    split_ifs with hkid
    · rw [hkid, hrow, Option.map_some, Option.map_some, hr]
    · rfl
  · intro p hp
    obtain rfl := List.mem_singleton.1 hp
    rw [ordOf, Table.lookup_insert, if_pos rfl, Option.map_some]
  · intro k hk
    have hkid : k ≠ id := by simpa using hk
    rw [ordOf, ordOf, Table.lookup_insert, if_neg hkid]

theorem setOrd_of_free (hkeyed : t.Keyed) (hrow : (t.lookup id).isSome = true) (hint : IsInt4 ord)
    (hfree : ∀ k, k ≠ id → t.ordOf k ≠ some ord) :
    ∃ t', t.setOrd id ord = .ok t' ∧ t.Assigned [(id, ord)] t' := by
  obtain ⟨row, hrow⟩ := Option.isSome_iff_exists.1 hrow
  have htaken : ¬ t.ordTaken id ord = true := fun h => by
    obtain ⟨k, hne, hk⟩ := (ordTaken_eq_true hkeyed).1 h
    exact hfree k hne hk
  have hcheck := (row.rowCheck_iff ord).2 hint
  let row' : AclRuleRow := { row with ord, checked := hcheck }
  refine ⟨t.insert id row', ?_, assigned_insert (r := row') hkeyed hrow rfl⟩
  unfold setOrd
  rw [hrow]
  dsimp only
  rw [dif_pos hcheck, if_neg htaken]

theorem free_of_setOrd (hkeyed : t.Keyed) (hrow : (t.lookup id).isSome = true)
    (h : t.setOrd id ord = .ok t') : IsInt4 ord ∧ ∀ k, k ≠ id → t.ordOf k ≠ some ord := by
  obtain ⟨row, hrow⟩ := Option.isSome_iff_exists.1 hrow
  unfold setOrd at h
  rw [hrow] at h
  dsimp only at h
  split_ifs at h with hcheck htaken
  exact ⟨(row.rowCheck_iff ord).1 hcheck,
    fun k hne hk => htaken ((ordTaken_eq_true hkeyed).2 ⟨k, hne, hk⟩)⟩

/-! ### Several assignments -/

/-- No assignment meets an `ord` that is in use when its turn comes. -/
structure Clear (f : String → Option ℤ) (ops : List (String × ℤ)) : Prop where
  /-- The `ord`s fit into the column. -/
  int4 : ∀ p ∈ ops, IsInt4 p.2
  /-- A later one is neither where this one goes nor goes there. -/
  later : ops.Pairwise fun p q => p.2 ≠ q.2 ∧ f q.1 ≠ some p.2
  /-- A rule that does not move is not there. -/
  others : ∀ p ∈ ops, ∀ k, k ∉ ops.map Prod.fst → f k ≠ some p.2

theorem Clear.head {f : String → Option ℤ} {p : String × ℤ} {k : String}
    (h : Clear f (p :: ops)) (hk : k ≠ p.1) : f k ≠ some p.2 := by
  by_cases hmem : k ∈ ops.map Prod.fst
  · obtain ⟨q, hq, rfl⟩ := List.mem_map.1 hmem
    exact ((List.pairwise_cons.1 h.later).1 q hq).2
  · exact h.others p List.mem_cons_self k (by simpa [hk] using hmem)

theorem clear_cons {p : String × ℤ} (h : t.Assigned [p] t₁) (hp : p.1 ∉ ops.map Prod.fst) :
    Clear t.ordOf (p :: ops) ↔
      IsInt4 p.2 ∧ (∀ k, k ≠ p.1 → t.ordOf k ≠ some p.2) ∧ Clear t₁.ordOf ops := by
  have hrest : ∀ k, k ≠ p.1 → t₁.ordOf k = t.ordOf k := fun k hk => h.rest k (by simpa using hk)
  have hset : t₁.ordOf p.1 = some p.2 := h.assigned p (List.mem_singleton_self p)
  have hne : ∀ q ∈ ops, q.1 ≠ p.1 := fun q hq heq => hp (List.mem_map.2 ⟨q, hq, heq⟩)
  constructor
  · intro hclear
    obtain ⟨hlater, hpairs⟩ := List.pairwise_cons.1 hclear.later
    refine ⟨hclear.int4 p List.mem_cons_self, fun k hk => hclear.head hk, ?_⟩
    refine ⟨fun q hq => hclear.int4 q (List.mem_cons_of_mem _ hq), ?_, fun q hq k hk => ?_⟩
    · refine hpairs.imp_of_mem fun {q r} _ hr hqr => ?_
      rwa [hrest r.1 (hne r hr)]
    · by_cases hkp : k = p.1
      · rw [hkp, hset]
        exact fun heq => (hlater q hq).1 (Option.some.inj heq)
      · rw [hrest k hkp]
        exact hclear.others q (List.mem_cons_of_mem _ hq) k (by simpa [hkp] using hk)
  · rintro ⟨hint, hfree, hclear⟩
    refine ⟨?_, List.pairwise_cons.2 ⟨fun q hq => ⟨?_, hfree q.1 (hne q hq)⟩, ?_⟩, ?_⟩
    · exact List.forall_mem_cons.2 ⟨hint, hclear.int4⟩
    · exact fun heq => hclear.others q hq p.1 hp (heq ▸ hset)
    · refine hclear.later.imp_of_mem fun {q r} _ hr hqr => ?_
      rwa [hrest r.1 (hne r hr)] at hqr
    · intro q hq k hk
      rw [List.map_cons, List.mem_cons, not_or] at hk
      rcases List.mem_cons.1 hq with rfl | hq
      · exact hfree k hk.1
      · rw [← hrest k hk.1]
        exact hclear.others q hq k hk.2

theorem Assigned.isSome_lookup (h : t.Assigned ops t') (k : String) :
    (t'.lookup k).isSome = (t.lookup k).isSome := by
  have hc := congrArg Option.isSome (h.content k)
  rwa [contentOf, contentOf, Option.isSome_map, Option.isSome_map] at hc

theorem setOrds_cons (t : RuleTable) (p : String × ℤ) (ops : List (String × ℤ)) :
    t.setOrds (p :: ops) = t.setOrd p.1 p.2 >>= fun t' => t'.setOrds ops := rfl

/-- Assignments that meet no `ord` in use are carried out. -/
theorem setOrds_of_clear (hkeyed : t.Keyed) (hnodup : (ops.map Prod.fst).Nodup)
    (hrows : ∀ p ∈ ops, (t.lookup p.1).isSome = true) (hclear : Clear t.ordOf ops) :
    ∃ t', t.setOrds ops = .ok t' ∧ t.Assigned ops t' := by
  induction ops generalizing t with
  | nil => exact ⟨t, rfl, .nil hkeyed⟩
  | cons p ops ih =>
    rw [List.map_cons, List.nodup_cons] at hnodup
    obtain ⟨hp, hnodup⟩ := hnodup
    obtain ⟨hrow, hrows⟩ := List.forall_mem_cons.1 hrows
    have hint := hclear.int4 p List.mem_cons_self
    obtain ⟨t₁, hset, h₁⟩ := setOrd_of_free hkeyed hrow hint fun k hk => hclear.head hk
    obtain ⟨t', hsets, h'⟩ := ih h₁.keyed hnodup
      (fun q hq => (h₁.isSome_lookup q.1).trans (hrows q hq)) ((clear_cons h₁ hp).1 hclear).2.2
    refine ⟨t', ?_, h₁.cons h' hp⟩
    rw [setOrds_cons, bind_eq_ok]
    exact ⟨t₁, hset, hsets⟩

/-- Only these are. -/
theorem clear_of_setOrds (hkeyed : t.Keyed) (hnodup : (ops.map Prod.fst).Nodup)
    (hrows : ∀ p ∈ ops, (t.lookup p.1).isSome = true) (h : t.setOrds ops = .ok t') :
    Clear t.ordOf ops ∧ t.Assigned ops t' := by
  induction ops generalizing t with
  | nil =>
    obtain rfl := Except.ok.inj h
    exact ⟨⟨by simp, .nil, by simp⟩, .nil hkeyed⟩
  | cons p ops ih =>
    rw [List.map_cons, List.nodup_cons] at hnodup
    obtain ⟨hp, hnodup⟩ := hnodup
    obtain ⟨hrow, hrows⟩ := List.forall_mem_cons.1 hrows
    rw [setOrds_cons] at h
    obtain ⟨t₁, hset, hsets⟩ := bind_eq_ok.1 h
    obtain ⟨hint, hfree⟩ := free_of_setOrd hkeyed hrow hset
    obtain ⟨t₁', hset', h₁⟩ := setOrd_of_free hkeyed hrow hint hfree
    obtain rfl := Except.ok.inj (hset.symm.trans hset')
    obtain ⟨hclear, h'⟩ := ih h₁.keyed hnodup
      (fun q hq => (h₁.isSome_lookup q.1).trans (hrows q hq)) hsets
    exact ⟨(clear_cons h₁ hp).2 ⟨hint, hfree, hclear⟩, h₁.cons h' hp⟩

/-! ### The rows -/

theorem mem_asked {p : String × ℤ} : p ∈ asked newOrds ↔ newOrds.lookup p.1 = some p.2 :=
  Table.mem_select.trans (and_iff_left rfl)

theorem notMem_asked : id ∉ (asked newOrds).map Prod.fst ↔ newOrds.lookup id = none := by
  rw [Option.eq_none_iff_forall_ne_some]
  constructor
  · exact fun h o ho => h (List.mem_map.2 ⟨(id, o), mem_asked.2 ho, rfl⟩)
  · intro h hmem
    obtain ⟨p, hp, rfl⟩ := List.mem_map.1 hmem
    exact h p.2 (mem_asked.1 hp)

theorem ordOf_of_mem (hkeyed : t.Keyed) {r : AclRuleRow} (hr : r ∈ t.listAclRules) :
    t.ordOf r.ruleId = some r.ord := by
  obtain ⟨k, hk⟩ := mem_listAclRules.1 hr
  rw [hkeyed k r hk, ordOf, hk, Option.map_some]

theorem mem_of_ordOf (hkeyed : t.Keyed) (ho : t.ordOf id = some ord) :
    ∃ r ∈ t.listAclRules, r.ruleId = id ∧ r.ord = ord := by
  obtain ⟨r, hr, rfl⟩ := Option.map_eq_some_iff.1 ho
  exact ⟨r, mem_listAclRules.2 ⟨id, hr⟩, hkeyed id r hr, rfl⟩

theorem nodup_ruleIds (hkeyed : t.Keyed) : (t.listAclRules.map AclRuleRow.ruleId).Nodup := by
  have hperm : t.listAclRules.Perm t.rows := List.perm_insertionSort _ _
  have hids : t.rows.map AclRuleRow.ruleId = (t.select fun _ _ => true).map Prod.fst := by
    rw [rows, List.map_map]
    refine List.map_congr_left fun p hp => ?_
    exact hkeyed p.1 p.2 (Table.mem_select.1 hp).1
  rw [(hperm.map _).nodup_iff, hids]
  exact Table.nodup_select _ t

theorem nodup_listAclRules (hkeyed : t.Keyed) : t.listAclRules.Nodup :=
  (nodup_ruleIds hkeyed).of_map _

/-! ### Parking -/

/-- Every rule below zero. -/
def parking (t : RuleTable) : List (String × ℤ) :=
  t.listAclRules.map fun r => (r.ruleId, -r.ord - 1)

theorem map_parking (t : RuleTable) :
    t.parking.map Prod.fst = t.listAclRules.map AclRuleRow.ruleId := by
  rw [parking, List.map_map]
  rfl

/-- No rule is parked where another one is. -/
def Parks (t : RuleTable) : Prop :=
  ∀ k k' o o', t.ordOf k = some o → t.ordOf k' = some o' → o + o' ≠ -1

theorem clear_parking (hkeyed : t.Keyed) (hdistinct : t.DistinctOrds) :
    Clear t.ordOf t.parking ↔ t.Parks := by
  constructor
  · intro hclear k k' o o' hk hk' hsum
    obtain ⟨r, hr, -, rfl⟩ := mem_of_ordOf hkeyed hk
    obtain ⟨r', hr', -, rfl⟩ := mem_of_ordOf hkeyed hk'
    have hpairs : t.listAclRules.Pairwise fun r r' => r.ord + r'.ord ≠ -1 := by
      refine (List.pairwise_map.1 hclear.later).imp_of_mem fun {r r'} _ hr' h hsum => h.2 ?_
      rw [ordOf_of_mem hkeyed hr', Option.some.injEq]
      omega
    have : Std.Symm fun r r' : AclRuleRow => r.ord + r'.ord ≠ -1 :=
      ⟨fun r r' h hsum => h (by omega)⟩
    have hne : r ≠ r' := fun heq => by
      rw [heq] at hsum
      omega
    exact hpairs.forall hr hr' hne hsum
  · intro hparks
    refine ⟨?_, ?_, ?_⟩
    · intro p hp
      obtain ⟨r, hr, rfl⟩ := List.mem_map.1 hp
      have hint := r.isInt4
      unfold IsInt4 at hint ⊢
      omega
    · refine List.pairwise_map.2 ((nodup_listAclRules hkeyed).pairwise_of_forall_ne ?_)
      intro r hr r' hr' hne
      have ho := ordOf_of_mem hkeyed hr
      have ho' := ordOf_of_mem hkeyed hr'
      constructor
      · intro heq
        have hord : r.ord = r'.ord := by
          dsimp only at heq
          omega
        have hid := hdistinct _ _ _ ho (hord ▸ ho')
        exact hne (List.inj_on_of_nodup_map (nodup_ruleIds hkeyed) hr hr' hid)
      · intro heq
        rw [ho', Option.some.injEq] at heq
        exact hparks _ _ _ _ ho ho' (by omega)
    · intro p _ k hk hok
      rw [map_parking] at hk
      obtain ⟨r, hr, rfl, -⟩ := mem_of_ordOf hkeyed hok
      exact hk (List.mem_map_of_mem hr)

theorem Assigned.ordOf_parking (hkeyed : t.Keyed) (h : t.Assigned t.parking t₁) (k : String) :
    t₁.ordOf k = (t.ordOf k).map fun o => -o - 1 := by
  cases ho : t.ordOf k with
  | none =>
    rw [h.rest k, ho, Option.map_none]
    rw [map_parking]
    intro hmem
    obtain ⟨r, hr, rfl⟩ := List.mem_map.1 hmem
    rw [ordOf_of_mem hkeyed hr] at ho
    exact absurd ho (by simp)
  | some o =>
    obtain ⟨r, hr, rfl, rfl⟩ := mem_of_ordOf hkeyed ho
    exact h.assigned (r.ruleId, -r.ord - 1) (List.mem_map.2 ⟨r, hr, rfl⟩)

/-! ### Packing -/

section

variable {p : ℕ → Prop} [DecidablePred p] {used : List ℤ} {fuel next : ℕ}

theorem nextFree_eq (hused : ∀ n, next ≤ n → ((n : ℤ) ∈ used ↔ ¬ p n))
    (hmeets : ∃ n, next ≤ n ∧ n ≤ next + fuel ∧ p n) :
    nextFree used fuel next = Nat.nth p (Nat.count p next) := by
  obtain ⟨n, hlo, hhi, hn⟩ := hmeets
  induction fuel generalizing next with
  | zero =>
    obtain rfl : n = next := by omega
    exact (Nat.nth_count hn).symm
  | succ fuel ih =>
    rw [nextFree]
    by_cases hp : p next
    · rw [if_neg fun hmem => (hused next le_rfl).1 hmem hp, Nat.nth_count hp]
    · rw [if_pos ((hused next le_rfl).2 hp)]
      have hne : n ≠ next := fun heq => hp (heq ▸ hn)
      rw [ih (fun m hm => hused m (by omega)) (by omega) (by omega), Nat.count_succ, if_neg hp,
        Nat.add_zero]

end

theorem repacked_eq (given used : List ℤ) (next : ℕ) (rs : List AclRuleRow)
    (hused : ∀ n, next ≤ n → (Vacant used n ↔ Vacant given n)) :
    repacked used next rs = (rs.zipIdx (Nat.count (Vacant given) next)).map fun x =>
      (x.1.ruleId, (Nat.nth (Vacant given) x.2 : ℤ)) := by
  induction rs generalizing used next with
  | nil => rfl
  | cons r rs ih =>
    have hmem : ∀ n, next ≤ n → ((n : ℤ) ∈ used ↔ ¬ Vacant given n) := fun n hn =>
      not_iff_not.1 ((hused n hn).trans not_not.symm)
    have hmeets : ∃ n, next ≤ n ∧ n ≤ next + used.length ∧ Vacant given n := by
      obtain ⟨n, hlo, hhi, hn⟩ := exists_vacant used next
      exact ⟨n, hlo, hhi, (hused n hlo).1 hn⟩
    have hfree := nextFree_eq hmem hmeets
    have hcount : Nat.count (Vacant given) (nextFree used used.length next + 1) =
        Nat.count (Vacant given) next + 1 := by
      rw [hfree, Nat.count_succ, Nat.count_nth_of_infinite (infinite_vacant given),
        if_pos (vacant_nth given _)]
    have hle : next ≤ nextFree used used.length next := by
      by_contra hlt
      have hmono := Nat.count_monotone (Vacant given)
        (show nextFree used used.length next + 1 ≤ next by omega)
      omega
    rw [repacked, List.zipIdx_cons, List.map_cons, ih, hcount, hfree]
    intro n hn
    have hne : n ≠ nextFree used used.length next := by omega
    unfold Vacant
    rw [List.mem_cons, not_or, Int.natCast_inj, and_iff_right hne]
    exact hused n (by omega)

/-! ### When no assignment meets a parked rule -/

/-- No assignment meets a rule that is still parked; the rule with the `ord` `o` is parked at
`-o - 1`. -/
structure Reorderable (t : RuleTable) (newOrds : Table String ℤ) : Prop where
  /-- The least `ord` has no negative. -/
  least : ∀ k, t.ordOf k ≠ some (-2147483648)
  /-- No rule is parked where another one is. -/
  parks : t.Parks
  /-- What is asked for fits into the column. -/
  int4 : ∀ k o, newOrds.lookup k = some o → IsInt4 o
  /-- A rule that is asked for later is not parked there. -/
  later : (asked newOrds).Pairwise fun p q => t.ordOf q.1 ≠ some (-p.2 - 1)
  /-- Nor is a rule that nothing is asked for. -/
  others : ∀ k o, newOrds.lookup k = some o →
    ∀ k', newOrds.lookup k' = none → t.ordOf k' ≠ some (-o - 1)
  /-- Nor is a later one of them where an earlier one goes. -/
  packs : (t.untouched newOrds).zipIdx.Pairwise fun x y =>
    y.1.ord ≠ -(Nat.nth (Vacant (targets newOrds)) x.2 : ℤ) - 1

/-- A rule is parked where its own `ord` tells. -/
theorem parked_ne {f : String → Option ℤ} {k : String} {o : ℤ}
    (h : f k = (t.ordOf k).map fun o => -o - 1) : f k ≠ some o ↔ t.ordOf k ≠ some (-o - 1) := by
  rw [h, not_iff_not, Option.map_eq_some_iff]
  constructor
  · rintro ⟨o', ho', rfl⟩
    rw [ho', Option.some.injEq]
    omega
  · exact fun ho => ⟨_, ho, by omega⟩

theorem clear_asked {f : String → Option ℤ} (hf : ∀ k, f k = (t.ordOf k).map fun o => -o - 1)
    (hnodup : (targets newOrds).Nodup) :
    Clear f (asked newOrds) ↔ (∀ k o, newOrds.lookup k = some o → IsInt4 o) ∧
      (asked newOrds).Pairwise (fun p q => t.ordOf q.1 ≠ some (-p.2 - 1)) ∧
      ∀ k o, newOrds.lookup k = some o →
        ∀ k', newOrds.lookup k' = none → t.ordOf k' ≠ some (-o - 1) := by
  constructor
  · intro h
    refine ⟨fun k o ho => h.int4 (k, o) (mem_asked.2 ho), ?_, fun k o ho k' hk' => ?_⟩
    · exact h.later.imp fun {p q} hpq => (parked_ne (hf q.1)).1 hpq.2
    · exact (parked_ne (hf k')).1 (h.others (k, o) (mem_asked.2 ho) k' (notMem_asked.2 hk'))
  · rintro ⟨hint, hlater, hothers⟩
    refine ⟨fun p hp => hint p.1 p.2 (mem_asked.1 hp), ?_, fun p hp k hk => ?_⟩
    · refine (List.Pairwise.and (List.pairwise_map.1 hnodup) hlater).imp fun {p q} hpq => ?_
      exact ⟨hpq.1, (parked_ne (hf q.1)).2 hpq.2⟩
    · exact (parked_ne (hf k)).2 (hothers p.1 p.2 (mem_asked.1 hp) k (notMem_asked.1 hk))

/-- Where the rest goes. -/
def packing (t : RuleTable) (newOrds : Table String ℤ) : List (String × ℤ) :=
  repacked (targets newOrds) 0 (t.untouched newOrds)

theorem packing_eq (t : RuleTable) (newOrds : Table String ℤ) :
    t.packing newOrds = (t.untouched newOrds).zipIdx.map fun x =>
      (x.1.ruleId, (Nat.nth (Vacant (targets newOrds)) x.2 : ℤ)) := by
  rw [packing, repacked_eq (targets newOrds) (targets newOrds) 0 _ fun _ _ => Iff.rfl,
    Nat.count_zero]

theorem map_packing (t : RuleTable) (newOrds : Table String ℤ) :
    (t.packing newOrds).map Prod.fst = (t.untouched newOrds).map AclRuleRow.ruleId :=
  map_repacked _ _ _

theorem mem_untouched {r : AclRuleRow} :
    r ∈ t.untouched newOrds ↔ r ∈ t.listAclRules ∧ newOrds.lookup r.ruleId = none := by
  rw [untouched, List.mem_filter, Option.isNone_iff_eq_none]

theorem notMem_packing (hkeyed : t.Keyed) :
    id ∉ (t.packing newOrds).map Prod.fst ↔ newOrds.lookup id ≠ none ∨ t.ordOf id = none := by
  rw [map_packing, List.mem_map, ← not_iff_not, not_not, not_or, not_not, ← Ne,
    Option.ne_none_iff_exists']
  constructor
  · rintro ⟨r, hr, rfl⟩
    obtain ⟨hmem, hnone⟩ := mem_untouched.1 hr
    exact ⟨hnone, r.ord, ordOf_of_mem hkeyed hmem⟩
  · rintro ⟨hnone, o, ho⟩
    obtain ⟨r, hmem, rfl, -⟩ := mem_of_ordOf hkeyed ho
    exact ⟨r, mem_untouched.2 ⟨hmem, hnone⟩, rfl⟩

/-! ### There are not too many rules -/

theorem length_le_of_lt {l : List ℕ} {n : ℕ} (hnodup : l.Nodup) (hlt : ∀ x ∈ l, x < n) :
    l.length ≤ n := by
  rw [← List.toFinset_card_of_nodup hnodup, ← Finset.card_range n]
  exact Finset.card_le_card fun x hx => Finset.mem_range.2 (hlt x (List.mem_toFinset.1 hx))

/-- Of two `ord`s that park at each other only one is in use. -/
theorem length_listAclRules_le (hkeyed : t.Keyed) (hdistinct : t.DistinctOrds) (hparks : t.Parks) :
    t.listAclRules.length ≤ 2147483648 := by
  let place : AclRuleRow → ℕ := fun r => (max r.ord (-r.ord - 1)).toNat
  have hplace : ∀ r : AclRuleRow, ((place r : ℕ) : ℤ) = max r.ord (-r.ord - 1) :=
    fun r => Int.toNat_of_nonneg (by omega)
  have hnodup : (t.listAclRules.map place).Nodup := by
    refine (nodup_listAclRules hkeyed).map_on fun r hr r' hr' heq => ?_
    have ho := ordOf_of_mem hkeyed hr
    have ho' := ordOf_of_mem hkeyed hr'
    have hsum := hparks _ _ _ _ ho ho'
    have hmax : max r.ord (-r.ord - 1) = max r'.ord (-r'.ord - 1) := by
      rw [← hplace, ← hplace, heq]
    have hord : r.ord = r'.ord := by omega
    exact List.inj_on_of_nodup_map (nodup_ruleIds hkeyed) hr hr'
      (hdistinct _ _ _ ho (hord ▸ ho'))
  rw [← List.length_map (f := place)]
  refine length_le_of_lt hnodup fun x hx => ?_
  obtain ⟨r, -, rfl⟩ := List.mem_map.1 hx
  have hint := r.isInt4
  unfold IsInt4 at hint
  have hp := hplace r
  omega

/-- What is asked for and the rest are rules. -/
theorem length_asked_add_untouched_le (hkeyed : t.Keyed) (hvalid : t.ValidReorder newOrds) :
    (asked newOrds).length + (t.untouched newOrds).length ≤ t.listAclRules.length := by
  have hsub : (asked newOrds).map Prod.fst ⊆
      (t.listAclRules.filter fun r => !(newOrds.lookup r.ruleId).isNone).map AclRuleRow.ruleId := by
    intro k hk
    obtain ⟨p, hp, rfl⟩ := List.mem_map.1 hk
    have hlookup := mem_asked.1 hp
    obtain ⟨r, hr⟩ := hvalid.known p.1 p.2 hlookup
    refine List.mem_map.2 ⟨r, List.mem_filter.2 ⟨mem_listAclRules.2 ⟨p.1, hr⟩, ?_⟩, ?_⟩
    · rw [hkeyed _ r hr, hlookup]
      rfl
    · exact hkeyed _ r hr
  have hle := (List.subperm_of_subset (Table.nodup_select _ newOrds) hsub).length_le
  rw [List.length_map, List.length_map] at hle
  have hsplit := List.length_eq_length_filter_add (l := t.listAclRules)
    fun r => (newOrds.lookup r.ruleId).isNone
  unfold untouched
  rw [hsplit]
  exact (Nat.add_comm _ _).trans_le (Nat.add_le_add_left hle _)

theorem nth_ne_asked {i : ℕ} (ho : newOrds.lookup id = some ord) :
    (Nat.nth (Vacant (targets newOrds)) i : ℤ) ≠ ord := by
  rintro rfl
  exact vacant_nth (targets newOrds) i (List.mem_map.2 ⟨(id, _), mem_asked.2 ho, rfl⟩)

theorem clear_packing {f : String → Option ℤ} (hkeyed : t.Keyed) (hdistinct : t.DistinctOrds)
    (hparks : t.Parks) (hvalid : t.ValidReorder newOrds)
    (hasked : ∀ k o, newOrds.lookup k = some o → f k = some o)
    (hrest : ∀ k, newOrds.lookup k = none → f k = (t.ordOf k).map fun o => -o - 1) :
    Clear f (t.packing newOrds) ↔ (t.untouched newOrds).zipIdx.Pairwise fun x y =>
      y.1.ord ≠ -(Nat.nth (Vacant (targets newOrds)) x.2 : ℤ) - 1 := by
  have hmem : ∀ x ∈ (t.untouched newOrds).zipIdx, x.1 ∈ t.untouched newOrds := fun x hx =>
    List.fst_mem_of_mem_zipIdx hx
  have hord : ∀ x ∈ (t.untouched newOrds).zipIdx, ∀ o,
      f x.1.ruleId ≠ some o ↔ x.1.ord ≠ -o - 1 := by
    intro x hx o
    obtain ⟨hlist, hnone⟩ := mem_untouched.1 (hmem x hx)
    rw [parked_ne (hrest _ hnone), ordOf_of_mem hkeyed hlist, Ne, Option.some.injEq]
  rw [packing_eq]
  constructor
  · intro h
    refine (List.pairwise_map.1 h.later).imp_of_mem fun {x y} _ hy hxy => ?_
    exact (hord y hy _).1 hxy.2
  · intro h
    have hidx : (t.untouched newOrds).zipIdx.Pairwise fun x y => x.2 < y.2 := by
      refine List.pairwise_map.1 ?_
      rw [List.zipIdx_map_snd]
      exact List.pairwise_lt_range'
    refine ⟨fun p hp => ?_, List.pairwise_map.2 ?_, fun p hp k hk hok => ?_⟩
    · -- as many numbers as there are rules fit into the column
      obtain ⟨x, hx, rfl⟩ := List.mem_map.1 hp
      have hlt := (List.mem_zipIdx' hx).1
      have hle := nth_vacant_le (targets newOrds) x.2
      rw [targets, List.length_map] at hle
      have hrules := length_asked_add_untouched_le hkeyed hvalid
      have hmany := length_listAclRules_le hkeyed hdistinct hparks
      unfold IsInt4
      dsimp only [targets] at hle ⊢
      omega
    · refine (hidx.and h).imp_of_mem fun {x y} _ hy hxy => ⟨fun heq => ?_, ?_⟩
      · have hlt := nth_vacant_strictMono (targets newOrds) hxy.1
        dsimp only at heq
        omega
      · exact (hord y hy _).2 hxy.2
    · rw [← packing_eq, notMem_packing hkeyed] at hk
      obtain ⟨x, -, rfl⟩ := List.mem_map.1 hp
      cases hlookup : newOrds.lookup k with
      | some o =>
        rw [hasked k o hlookup, Option.some.injEq] at hok
        exact nth_ne_asked hlookup hok.symm
      | none =>
        rw [hrest k hlookup, hk.resolve_left (absurd hlookup)] at hok
        exact absurd hok (by simp)

/-! ### The transaction -/

/-- The table after the three phases, but for the phases. -/
structure Settled (t : RuleTable) (newOrds : Table String ℤ) (t' : RuleTable) : Prop where
  /-- The same rules are there. -/
  content : ∀ k, t'.contentOf k = t.contentOf k
  /-- Each has what was asked for it. -/
  requested : ∀ k o, newOrds.lookup k = some o → t'.ordOf k = some o
  /-- The rest has the numbers that are left. -/
  rest : ∀ x ∈ (t.untouched newOrds).zipIdx,
    t'.ordOf x.1.ruleId = some (Nat.nth (Vacant (targets newOrds)) x.2 : ℤ)

theorem Settled.exists_of_untouched (h : t.Settled newOrds t') (hkeyed : t.Keyed)
    (hnone : newOrds.lookup id = none) (ho : t.ordOf id = some ord) :
    ∃ i r, (t.untouched newOrds)[i]? = some r ∧ r.ruleId = id ∧ r.ord = ord ∧
      t'.ordOf id = some (Nat.nth (Vacant (targets newOrds)) i : ℤ) := by
  obtain ⟨r, hr, rfl, rfl⟩ := mem_of_ordOf hkeyed ho
  obtain ⟨i, hi⟩ := List.mem_iff_getElem?.1 (mem_untouched.2 ⟨hr, hnone⟩)
  exact ⟨i, r, hi, rfl, rfl, h.rest (r, i) (List.mem_zipIdx_iff_getElem?.2 hi)⟩

theorem Settled.ordOf_isSome (h : t.Settled newOrds t') (k : String) :
    (t'.ordOf k).isSome = (t.ordOf k).isSome := by
  have hc := congrArg Option.isSome (h.content k)
  rw [contentOf, contentOf, Option.isSome_map, Option.isSome_map] at hc
  rw [ordOf, ordOf, Option.isSome_map, Option.isSome_map, hc]

/-- What is left is given out in the old order. -/
theorem Settled.order (h : t.Settled newOrds t') (hkeyed : t.Keyed) {k k' : String}
    {o o' n n' : ℤ} (hk : newOrds.lookup k = none) (hk' : newOrds.lookup k' = none)
    (ho : t.ordOf k = some o) (ho' : t.ordOf k' = some o') (hlt : o < o')
    (hn : t'.ordOf k = some n) (hn' : t'.ordOf k' = some n') : n < n' := by
  obtain ⟨i, r, hi, -, rfl, hni⟩ := h.exists_of_untouched hkeyed hk ho
  obtain ⟨j, r', hj, -, rfl, hnj⟩ := h.exists_of_untouched hkeyed hk' ho'
  obtain rfl := Option.some.inj (hn.symm.trans hni)
  obtain rfl := Option.some.inj (hn'.symm.trans hnj)
  have hij : i < j := by
    by_contra hle
    have hsorted := (sorted_listAclRules t).sublist
      (List.filter_sublist (p := fun r => (newOrds.lookup r.ruleId).isNone))
    rcases (not_lt.1 hle).eq_or_lt with rfl | hji
    · obtain rfl := Option.some.inj (hi.symm.trans hj)
      exact lt_irrefl _ hlt
    · obtain ⟨hilt, hri⟩ := List.getElem?_eq_some_iff.1 hi
      obtain ⟨hjlt, hrj⟩ := List.getElem?_eq_some_iff.1 hj
      have hle := List.pairwise_iff_getElem.1 hsorted j i hjlt hilt hji
      exact absurd hlt (not_lt.2 (hri ▸ hrj ▸ hle))
  exact_mod_cast nth_vacant_strictMono (targets newOrds) hij

theorem Settled.distinct (h : t.Settled newOrds t') (hkeyed : t.Keyed)
    (hnodup : (targets newOrds).Nodup) : t'.DistinctOrds := by
  have hsome : ∀ k n, t'.ordOf k = some n → ∃ o, t.ordOf k = some o := fun k n hn => by
    rw [← Option.isSome_iff_exists, ← h.ordOf_isSome, hn]
    rfl
  intro k k' n hn hn'
  obtain ⟨o, ho⟩ := hsome k n hn
  obtain ⟨o', ho'⟩ := hsome k' n hn'
  cases hk : newOrds.lookup k with
  | some a =>
    obtain rfl := Option.some.inj ((h.requested k a hk).symm.trans hn)
    cases hk' : newOrds.lookup k' with
    | some a' =>
      obtain rfl := Option.some.inj ((h.requested k' a' hk').symm.trans hn')
      have hp : (k, a') ∈ asked newOrds := mem_asked.2 hk
      have hp' : (k', a') ∈ asked newOrds := mem_asked.2 hk'
      exact congrArg Prod.fst (List.inj_on_of_nodup_map hnodup hp hp' rfl)
    | none =>
      obtain ⟨j, -, -, -, -, hnj⟩ := h.exists_of_untouched hkeyed hk' ho'
      exact absurd (Option.some.inj (hnj.symm.trans hn')) (nth_ne_asked hk)
  | none =>
    obtain ⟨i, r, hi, rfl, -, hni⟩ := h.exists_of_untouched hkeyed hk ho
    obtain rfl := Option.some.inj (hn.symm.trans hni)
    cases hk' : newOrds.lookup k' with
    | some a' =>
      have heq := Option.some.inj (hn'.symm.trans (h.requested k' a' hk'))
      exact absurd heq (nth_ne_asked hk')
    | none =>
      obtain ⟨j, r', hj, rfl, -, hnj⟩ := h.exists_of_untouched hkeyed hk' ho'
      have heq := Int.natCast_inj.1 (Option.some.inj (hn'.symm.trans hnj))
      obtain rfl := (nth_vacant_strictMono (targets newOrds)).injective heq
      rw [Option.some.inj (hi.symm.trans hj)]

/-- A settled table is in its new order. -/
theorem Settled.reordered (h : t.Settled newOrds t') (hkeyed : t.Keyed)
    (hnodup : (targets newOrds).Nodup) : t.Reordered newOrds t' :=
  ⟨h.content, h.requested, fun _ _ _ _ _ _ hk hk' ho ho' hlt hn hn' =>
    h.order hkeyed hk hk' ho ho' hlt hn hn', h.distinct hkeyed hnodup⟩

theorem reorderAclRules_eq (t : RuleTable) (newOrds : Table String ℤ) :
    t.reorderAclRules newOrds =
      if (asked newOrds).isEmpty = true then .ok t
      else if ¬ (targets newOrds).Nodup then .error .raised
      else if ((asked newOrds).any fun p => (t.lookup p.1).isNone) = true then .error .raised
      else if (t.rows.any fun r => r.ord = -2147483648) = true then .error .raised
      else t.setOrds t.parking >>= fun t₁ => t₁.setOrds (asked newOrds) >>= fun t₂ =>
        t₂.setOrds (t.packing newOrds) := rfl

theorem any_isNone_iff :
    ((asked newOrds).any fun p => (t.lookup p.1).isNone) = true ↔
      ∃ k o, newOrds.lookup k = some o ∧ t.lookup k = none := by
  simp only [List.any_eq_true, mem_asked, Option.isNone_iff_eq_none, Prod.exists]

theorem any_least_iff :
    (t.rows.any fun r => r.ord = -2147483648) = true ↔ ∃ k, t.ordOf k = some (-2147483648) := by
  simp only [List.any_eq_true, mem_rows, decide_eq_true_eq, ordOf, Option.map_eq_some_iff]
  exact ⟨fun ⟨r, ⟨k, hk⟩, ho⟩ => ⟨k, r, hk, ho⟩, fun ⟨k, r, hk, ho⟩ => ⟨r, ⟨k, hk⟩, ho⟩⟩

/-- The transaction of a valid request is its three phases. -/
theorem reorderAclRules_eq_ok (hvalid : t.ValidReorder newOrds) (hasked : asked newOrds ≠ []) :
    t.reorderAclRules newOrds = .ok t' ↔ (∀ k, t.ordOf k ≠ some (-2147483648)) ∧
      ∃ t₁, t.setOrds t.parking = .ok t₁ ∧
        ∃ t₂, t₁.setOrds (asked newOrds) = .ok t₂ ∧ t₂.setOrds (t.packing newOrds) = .ok t' := by
  have hempty : ¬ (asked newOrds).isEmpty = true := fun h => hasked (List.isEmpty_iff.1 h)
  have hknown : ¬ ((asked newOrds).any fun p => (t.lookup p.1).isNone) = true := fun h => by
    obtain ⟨k, o, ho, hnone⟩ := any_isNone_iff.1 h
    obtain ⟨r, hr⟩ := hvalid.known k o ho
    rw [hr] at hnone
    exact absurd hnone (by simp)
  rw [reorderAclRules_eq, if_neg hempty, if_neg (not_not.2 hvalid.nodup), if_neg hknown]
  split_ifs with hleast
  · obtain ⟨k, hk⟩ := any_least_iff.1 hleast
    exact iff_of_false (fun h => nomatch h) fun h => h.1 k hk
  · rw [bind_eq_ok, and_iff_right fun k hk => hleast (any_least_iff.2 ⟨k, hk⟩)]
    exact exists_congr fun t₁ => and_congr_right fun _ => bind_eq_ok

theorem reorderAclRules_nil (h : asked newOrds = []) : t.reorderAclRules newOrds = .ok t := by
  rw [reorderAclRules_eq, if_pos (List.isEmpty_iff.2 h)]

theorem validReorder_nil (h : asked newOrds = []) : t.ValidReorder newOrds := by
  refine ⟨?_, fun k o ho => ?_⟩
  · rw [targets, h]
    exact .nil
  · have hmem : (k, o) ∈ asked newOrds := mem_asked.2 ho
    rw [h] at hmem
    exact absurd hmem List.not_mem_nil

theorem reorderAclRules_invalid (h : ¬ t.ValidReorder newOrds) :
    ∃ e, t.reorderAclRules newOrds = .error e := by
  have hempty : ¬ (asked newOrds).isEmpty = true := fun hnil =>
    h (validReorder_nil (List.isEmpty_iff.1 hnil))
  rw [reorderAclRules_eq, if_neg hempty]
  by_cases hnodup : (targets newOrds).Nodup
  · have hunknown : ((asked newOrds).any fun p => (t.lookup p.1).isNone) = true := by
      by_contra hknown
      refine h ⟨hnodup, fun k o ho => Option.ne_none_iff_exists'.1 fun hnone => ?_⟩
      exact hknown (any_isNone_iff.2 ⟨k, o, ho, hnone⟩)
    rw [if_neg (not_not.2 hnodup), if_pos hunknown]
    exact ⟨_, rfl⟩
  · rw [if_pos hnodup]
    exact ⟨_, rfl⟩

/-! ### The phases, one after the other -/

theorem parking_spec (hkeyed : t.Keyed) :
    (t.parking.map Prod.fst).Nodup ∧ ∀ p ∈ t.parking, (t.lookup p.1).isSome = true := by
  refine ⟨map_parking t ▸ nodup_ruleIds hkeyed, fun p hp => ?_⟩
  obtain ⟨r, hr, rfl⟩ := List.mem_map.1 hp
  obtain ⟨k, hk⟩ := mem_listAclRules.1 hr
  rw [hkeyed k r hk, hk]
  rfl

theorem packing_spec (newOrds : Table String ℤ) (hkeyed : t.Keyed) :
    ((t.packing newOrds).map Prod.fst).Nodup ∧
      ∀ p ∈ t.packing newOrds, (t.lookup p.1).isSome = true := by
  rw [map_packing]
  refine ⟨(nodup_ruleIds hkeyed).sublist (List.filter_sublist.map _), fun p hp => ?_⟩
  have hmem : p.1 ∈ (t.untouched newOrds).map AclRuleRow.ruleId :=
    map_packing t newOrds ▸ List.mem_map_of_mem hp
  obtain ⟨r, hr, heq⟩ := List.mem_map.1 hmem
  obtain ⟨k, hk⟩ := mem_listAclRules.1 (mem_untouched.1 hr).1
  rw [← heq, hkeyed k r hk, hk]
  rfl

theorem asked_spec (hvalid : t.ValidReorder newOrds) :
    ((asked newOrds).map Prod.fst).Nodup ∧ ∀ p ∈ asked newOrds, (t.lookup p.1).isSome = true :=
  ⟨Table.nodup_select _ newOrds, fun p hp =>
    Option.isSome_iff_exists.2 (hvalid.known p.1 p.2 (mem_asked.1 hp))⟩

/-- Where the rules are before they are packed. -/
theorem ordOf_asked {t₂ : RuleTable} (hkeyed : t.Keyed) (h₁ : t.Assigned t.parking t₁)
    (h₂ : t₁.Assigned (asked newOrds) t₂) :
    (∀ k o, newOrds.lookup k = some o → t₂.ordOf k = some o) ∧
      ∀ k, newOrds.lookup k = none → t₂.ordOf k = (t.ordOf k).map fun o => -o - 1 := by
  refine ⟨fun k o ho => h₂.assigned (k, o) (mem_asked.2 ho), fun k hk => ?_⟩
  rw [h₂.rest k (notMem_asked.2 hk), h₁.ordOf_parking hkeyed]

theorem Assigned.settled {t₂ : RuleTable} (hkeyed : t.Keyed) (h₁ : t.Assigned t.parking t₁)
    (h₂ : t₁.Assigned (asked newOrds) t₂) (h₃ : t₂.Assigned (t.packing newOrds) t') :
    t.Settled newOrds t' := by
  refine ⟨fun k => (h₃.content k).trans ((h₂.content k).trans (h₁.content k)), ?_, fun x hx => ?_⟩
  · intro k o ho
    have hk : k ∉ (t.packing newOrds).map Prod.fst :=
      (notMem_packing hkeyed).2 (.inl (by rw [ho]; simp))
    rw [h₃.rest k hk]
    exact (ordOf_asked hkeyed h₁ h₂).1 k o ho
  · refine h₃.assigned (x.1.ruleId, (Nat.nth (Vacant (targets newOrds)) x.2 : ℤ)) ?_
    rw [packing_eq]
    exact List.mem_map.2 ⟨x, hx, rfl⟩

/-- Without a rule in the way the three phases go through. -/
theorem exists_settled (hkeyed : t.Keyed) (hdistinct : t.DistinctOrds)
    (hvalid : t.ValidReorder newOrds) (hasked : asked newOrds ≠ []) (h : t.Reorderable newOrds) :
    ∃ t', t.reorderAclRules newOrds = .ok t' ∧ t.Settled newOrds t' := by
  obtain ⟨hnodup₁, hrows₁⟩ := parking_spec hkeyed
  obtain ⟨t₁, hset₁, h₁⟩ := setOrds_of_clear hkeyed hnodup₁ hrows₁
    ((clear_parking hkeyed hdistinct).2 h.parks)
  obtain ⟨hnodup₂, hrows₂⟩ := asked_spec hvalid
  obtain ⟨t₂, hset₂, h₂⟩ := setOrds_of_clear h₁.keyed hnodup₂
    (fun p hp => (h₁.isSome_lookup p.1).trans (hrows₂ p hp))
    ((clear_asked (h₁.ordOf_parking hkeyed) hvalid.nodup).2 ⟨h.int4, h.later, h.others⟩)
  obtain ⟨hreq, hrest⟩ := ordOf_asked hkeyed h₁ h₂
  obtain ⟨hnodup₃, hrows₃⟩ := packing_spec newOrds hkeyed
  obtain ⟨t', hset₃, h₃⟩ := setOrds_of_clear h₂.keyed hnodup₃
    (fun p hp => ((h₂.isSome_lookup p.1).trans (h₁.isSome_lookup p.1)).trans (hrows₃ p hp))
    ((clear_packing hkeyed hdistinct h.parks hvalid hreq hrest).2 h.packs)
  refine ⟨t', ?_, h₁.settled hkeyed h₂ h₃⟩
  exact (reorderAclRules_eq_ok hvalid hasked).2 ⟨h.least, t₁, hset₁, t₂, hset₂, hset₃⟩

/-- With one in the way they do not. -/
theorem reorderable_of_ok (hkeyed : t.Keyed) (hdistinct : t.DistinctOrds)
    (hvalid : t.ValidReorder newOrds) (hasked : asked newOrds ≠ [])
    (h : t.reorderAclRules newOrds = .ok t') : t.Reorderable newOrds := by
  obtain ⟨hleast, t₁, hset₁, t₂, hset₂, hset₃⟩ := (reorderAclRules_eq_ok hvalid hasked).1 h
  obtain ⟨hnodup₁, hrows₁⟩ := parking_spec hkeyed
  obtain ⟨hclear₁, h₁⟩ := clear_of_setOrds hkeyed hnodup₁ hrows₁ hset₁
  have hparks := (clear_parking hkeyed hdistinct).1 hclear₁
  obtain ⟨hnodup₂, hrows₂⟩ := asked_spec hvalid
  obtain ⟨hclear₂, h₂⟩ := clear_of_setOrds h₁.keyed hnodup₂
    (fun p hp => (h₁.isSome_lookup p.1).trans (hrows₂ p hp)) hset₂
  obtain ⟨hint, hlater, hothers⟩ :=
    (clear_asked (h₁.ordOf_parking hkeyed) hvalid.nodup).1 hclear₂
  obtain ⟨hreq, hrest⟩ := ordOf_asked hkeyed h₁ h₂
  obtain ⟨hnodup₃, hrows₃⟩ := packing_spec newOrds hkeyed
  obtain ⟨hclear₃, -⟩ := clear_of_setOrds h₂.keyed hnodup₃
    (fun p hp => ((h₂.isSome_lookup p.1).trans (h₁.isSome_lookup p.1)).trans (hrows₃ p hp)) hset₃
  have hpacks := (clear_packing hkeyed hdistinct hparks hvalid hreq hrest).1 hclear₃
  exact ⟨hleast, hparks, hint, hlater, hothers, hpacks⟩

/-- Without negative `ord`s no rule is in the way. -/
theorem reorderable_of_nonneg (hkeyed : t.Keyed) (ht : ∀ k o, t.ordOf k = some o → 0 ≤ o)
    (hnew : ∀ k o, newOrds.lookup k = some o → 0 ≤ o ∧ IsInt4 o) : t.Reorderable newOrds := by
  have hneg : ∀ k o, 0 ≤ o → t.ordOf k ≠ some (-o - 1) := fun k o ho heq => by
    have hle := ht k _ heq
    omega
  refine ⟨fun k => hneg k 2147483647 (by omega), ?_, fun k o ho => (hnew k o ho).2, ?_, ?_, ?_⟩
  · intro k k' o o' ho ho' hsum
    have hle := ht k o ho
    have hle' := ht k' o' ho'
    omega
  · refine List.Pairwise.imp_of_mem (R := fun _ _ => True) (fun {p q} hp _ _ => ?_) ?_
    · exact hneg q.1 p.2 (hnew p.1 p.2 (mem_asked.1 hp)).1
    · exact List.pairwise_of_forall fun _ _ => trivial
  · exact fun k o ho k' _ => hneg k' o (hnew k o ho).1
  · refine List.Pairwise.imp_of_mem (R := fun _ _ => True) (fun {x y} _ hy _ heq => ?_) ?_
    · have hmem := (mem_untouched.1 (List.fst_mem_of_mem_zipIdx hy)).1
      have hle := ht _ _ (ordOf_of_mem hkeyed hmem)
      omega
    · exact List.pairwise_of_forall fun _ _ => trivial

/-- **A reorder does what it is for** when it is refused, asks for nothing, or meets no rule that
is still parked. -/
theorem reorderAclRules_iff (hkeyed : t.Keyed) (hdistinct : t.DistinctOrds) :
    t.Reorders newOrds ↔
      (t.ValidReorder newOrds → asked newOrds ≠ [] → t.Reorderable newOrds) := by
  constructor
  · intro h hvalid hasked
    obtain ⟨t', hok, -⟩ := h.valid hvalid
    exact reorderable_of_ok hkeyed hdistinct hvalid hasked hok
  · refine fun h => ⟨fun hvalid => ?_, reorderAclRules_invalid⟩
    by_cases hasked : asked newOrds = []
    · refine ⟨t, reorderAclRules_nil hasked, fun _ => rfl, fun k o ho => ?_, ?_, hdistinct⟩
      · have hmem : (k, o) ∈ asked newOrds := mem_asked.2 ho
        rw [hasked] at hmem
        exact absurd hmem List.not_mem_nil
      · intro k k' o o' n n' _ _ ho ho' hlt hn hn'
        obtain rfl := Option.some.inj (ho.symm.trans hn)
        obtain rfl := Option.some.inj (ho'.symm.trans hn')
        exact hlt
    · obtain ⟨t', hok, hsettled⟩ := exists_settled hkeyed hdistinct hvalid hasked (h hvalid hasked)
      exact ⟨t', hok, hsettled.reordered hkeyed hvalid.nodup⟩

/-- A rule about everything. -/
def openRow (ruleId : String) (ord : ℤ) (h : IsInt4 ord) : AclRuleRow where
  ruleId
  ord
  name := none
  description := none
  allow := true
  userLevel := "*"
  callerPattern := "*/*"
  calleePattern := "*/*"
  checked := by
    have hrest : rowCheck 0 "*" "*/*" "*/*" = true := by decide +kernel
    simp only [rowCheck, Bool.and_eq_true, decide_eq_true_eq] at hrest ⊢
    exact ⟨⟨⟨h, hrest.1.1.2⟩, hrest.1.2⟩, hrest.2⟩

/-- Two rules in a row. -/
def twoRules : RuleTable :=
  (AList.singleton "b" (openRow "b" 1 (by decide))).insert "a" (openRow "a" 0 (by decide))

theorem twoRules_keyed : twoRules.Keyed := by
  have hall : ∀ p ∈ twoRules.select fun _ _ => true, p.2.ruleId = p.1 := by decide
  exact fun k r hk => hall (k, r) (Table.mem_select.2 ⟨hk, rfl⟩)

theorem twoRules_ord {k : String} {o : ℤ} (h : twoRules.ordOf k = some o) :
    k = "a" ∧ o = 0 ∨ k = "b" ∧ o = 1 := by
  have hall : ∀ r ∈ twoRules.listAclRules,
      r.ruleId = "a" ∧ r.ord = 0 ∨ r.ruleId = "b" ∧ r.ord = 1 := by decide
  obtain ⟨r, hr, rfl, rfl⟩ := mem_of_ordOf twoRules_keyed h
  exact hall r hr

theorem twoRules_distinct : twoRules.DistinctOrds := by
  intro k k' o hk hk'
  rcases twoRules_ord hk with ⟨rfl, rfl⟩ | ⟨rfl, rfl⟩
  · rcases twoRules_ord hk' with ⟨rfl, -⟩ | ⟨-, heq⟩
    · rfl
    · exact absurd heq (by decide)
  · rcases twoRules_ord hk' with ⟨-, heq⟩ | ⟨rfl, -⟩
    · exact absurd heq (by decide)
    · rfl

theorem lookup_singleton {k : String} {o o' : ℤ}
    (h : AList.lookup k (AList.singleton id o : Table String ℤ) = some o') : k = id ∧ o' = o := by
  have hmem : (k, o') ∈ asked (AList.singleton id o) := mem_asked.2 h
  exact Prod.mk.inj (List.mem_singleton.1 hmem)

theorem twoRules_valid (o : ℤ) : twoRules.ValidReorder (AList.singleton "b" o) := by
  refine ⟨List.nodup_singleton o, fun k o' ho => ?_⟩
  obtain ⟨rfl, -⟩ := lookup_singleton ho
  exact ⟨_, rfl⟩

/-- The second rule goes first. -/
theorem reorderAclRules_iff_two : twoRules.Reorders (AList.singleton "b" 0) := by
  refine (reorderAclRules_iff twoRules_keyed twoRules_distinct).2 fun _ _ => ?_
  refine reorderable_of_nonneg twoRules_keyed (fun k o ho => ?_) fun k o ho => ?_
  · rcases twoRules_ord ho with ⟨-, rfl⟩ | ⟨-, rfl⟩
    · decide
    · decide
  · obtain ⟨-, rfl⟩ := lookup_singleton ho
    decide

/-- The first rule is parked where the second one is to go. -/
theorem parked_rule_in_the_way :
    twoRules.Keyed ∧ twoRules.DistinctOrds ∧ twoRules.ValidReorder (AList.singleton "b" (-1)) ∧
      twoRules.reorderAclRules (AList.singleton "b" (-1)) = .error .raised ∧
      ¬ twoRules.Reorders (AList.singleton "b" (-1)) := by
  have herr : twoRules.reorderAclRules (AList.singleton "b" (-1)) = .error .raised := by
    decide +kernel
  refine ⟨twoRules_keyed, twoRules_distinct, twoRules_valid (-1), herr, fun h => ?_⟩
  obtain ⟨t', hok, -⟩ := h.valid (twoRules_valid (-1))
  rw [herr] at hok
  exact absurd hok (by simp)

end RuleTable

end Backplane
