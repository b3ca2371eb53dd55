import Mathlib.Data.List.AList

/-!
# Tables

A `Table K V` is a finite map with one row per key: a database table with its primary key, or an
in-memory dictionary.  It is Mathlib's association list; this file adds the operations of a
relational store.

* `Table.select p t` : the rows that satisfy `p`, with their keys.
* `Table.update k f t` : rewrite the row of `k`, if there is one.
* `Table.deleteWhere p t` : drop the rows that satisfy `p`.
* `Table.mapRows f t` : rewrite every row.
* `Table.Numbered t` : the keys are numbers below the size of the table, so its size is a new key.
-/

namespace Backplane

/-- A table with key `K` and rows `V`. -/
abbrev Table (K V : Type) := AList fun _ : K => V

namespace Table

variable {K V : Type} [DecidableEq K] {t : Table K V} {k k' : K} {v : V}

/-- The rows that satisfy `p`, with their keys. -/
def select (p : K → V → Bool) (t : Table K V) : List (K × V) :=
  t.entries.filterMap fun r => if p r.1 r.2 then some (r.1, r.2) else none

/-- Rewrite the row of `k`, if there is one. -/
def update (k : K) (f : V → V) (t : Table K V) : Table K V :=
  match t.lookup k with
  | some v => t.insert k (f v)
  | none => t

/-- Drop the rows that satisfy `p`. -/
def deleteWhere (p : K → V → Bool) (t : Table K V) : Table K V :=
  (t.select p).foldr (fun r t => AList.erase r.1 t) t

/-- Rewrite every row. -/
def mapRows (f : K → V → V) (t : Table K V) : Table K V where
  entries := t.entries.map fun r => ⟨r.1, f r.1 r.2⟩
  nodupKeys := by
    have hkeys : (t.entries.map fun r => (⟨r.1, f r.1 r.2⟩ : Sigma fun _ : K => V)).keys =
        t.entries.keys := by
      simp [List.keys, Function.comp_def]
    rw [List.NodupKeys, hkeys]
    exact t.nodupKeys

theorem lookup_mapRows (f : K → V → V) (t : Table K V) (k : K) :
    AList.lookup k (t.mapRows f) = (AList.lookup k t).map (f k) := by
  change List.dlookup k (t.entries.map fun r => (⟨r.1, f r.1 r.2⟩ : Sigma fun _ : K => V)) =
    (List.dlookup k t.entries).map (f k)
  induction t.entries with
  | nil => rfl
  | cons r l ih =>
    by_cases h : k = r.1
    · subst h
      rw [List.map_cons, List.dlookup_cons_eq, List.dlookup_cons_eq, Option.map_some]
    · rw [List.map_cons, List.dlookup_cons_ne _ r h, ← ih]
      exact List.dlookup_cons_ne _ (⟨r.1, f r.1 r.2⟩ : Sigma fun _ : K => V) h

theorem lookup_insert (t : Table K V) (k k' : K) (v : V) :
    AList.lookup k' (AList.insert k v t) = if k' = k then some v else AList.lookup k' t := by
  split_ifs with h
  · subst h; exact AList.lookup_insert t
  · exact AList.lookup_insert_ne h

theorem lookup_update (t : Table K V) (k k' : K) (f : V → V) :
    AList.lookup k' (t.update k f) =
      if k' = k then (AList.lookup k t).map f else AList.lookup k' t := by
  cases hk : t.lookup k with
  | none =>
    simp only [update, hk, Option.map_none]
    split_ifs with h
    · rw [h, hk]
    · rfl
  | some v => simp only [update, hk, lookup_insert, Option.map_some]

/-- A row has another key now. -/
theorem lookup_renamed (t : Table K V) (k k' x : K) (v : V) :
    AList.lookup x (AList.insert k' v (AList.erase k t)) =
      if x = k' then some v else if x = k then none else AList.lookup x t := by
  rw [lookup_insert]
  split_ifs with h h'
  · rfl
  · rw [h', AList.lookup_erase]
  · exact AList.lookup_erase_ne h'

/-- Rewriting one row is rewriting each in its own way. -/
theorem lookup_update_map (t : Table K V) (k k' : K) (f : V → V) :
    AList.lookup k' (t.update k f) = (AList.lookup k' t).map fun v => if k' = k then f v else v := by
  rw [lookup_update]
  split_ifs with h
  · rw [h]
  · exact Option.map_id'.symm

theorem mem_select {p : K → V → Bool} :
    (k, v) ∈ t.select p ↔ AList.lookup k t = some v ∧ p k v = true := by
  have hmem : (⟨k, v⟩ : Sigma fun _ : K => V) ∈ t.entries ↔ AList.lookup k t = some v :=
    AList.mem_lookup_iff.symm
  simp only [select, List.mem_filterMap, Option.ite_none_right_eq_some, Option.some.injEq,
    Prod.mk.injEq]
  constructor
  · rintro ⟨⟨k', v'⟩, hr, hp, rfl, rfl⟩
    exact ⟨hmem.1 hr, hp⟩
  · rintro ⟨hl, hp⟩
    exact ⟨⟨k, v⟩, hmem.2 hl, hp, rfl, rfl⟩

theorem lookup_of_erase {k' : K} (h : AList.lookup k' (AList.erase k t) = some v) :
    k' ≠ k ∧ AList.lookup k' t = some v := by
  by_cases hk : k' = k
  · rw [hk, AList.lookup_erase] at h
    exact absurd h (by simp)
  · rw [AList.lookup_erase_ne hk] at h
    exact ⟨hk, h⟩

theorem lookup_foldr_erase (rs : List (K × V)) (t : Table K V) (k : K) :
    AList.lookup k (rs.foldr (fun r t => AList.erase r.1 t) t) =
      if k ∈ rs.map Prod.fst then none else AList.lookup k t := by
  induction rs with
  | nil => simp
  | cons r rs ih =>
    rw [List.foldr_cons, List.map_cons]
    by_cases h : k = r.1
    · subst h
      rw [AList.lookup_erase, if_pos List.mem_cons_self]
    · rw [AList.lookup_erase_ne h, ih]
      simp only [List.mem_cons, h, false_or]

theorem lookup_deleteWhere {p : K → V → Bool} :
    AList.lookup k (t.deleteWhere p) = some v ↔ AList.lookup k t = some v ∧ p k v = false := by
  rw [deleteWhere, lookup_foldr_erase]
  split_ifs with h
  · obtain ⟨⟨_, v'⟩, hr, rfl⟩ := List.mem_map.1 h
    obtain ⟨hl, hp⟩ := mem_select.1 hr
    refine ⟨fun h => absurd h (by simp), fun ⟨hv, hpv⟩ => ?_⟩
    rw [hl, Option.some.injEq] at hv
    exact absurd (hv ▸ hp) (by simp [hpv])
  · refine ⟨fun hv => ⟨hv, ?_⟩, fun hv => hv.1⟩
    by_contra hp
    exact h (List.mem_map.2 ⟨(k, v), mem_select.2 ⟨hv, by simpa using hp⟩, rfl⟩)

theorem lookup_deleteWhere_eq (p : K → V → Bool) (t : Table K V) (k : K) :
    AList.lookup k (t.deleteWhere p) = (AList.lookup k t).filter fun v => !p k v := by
  ext v
  rw [lookup_deleteWhere, Option.filter_eq_some_iff, Bool.not_eq_true']

theorem deleteWhere_eq_self {p : K → V → Bool} (h : ∀ k v, AList.lookup k t = some v → p k v = false) :
    t.deleteWhere p = t := by
  have hnone : t.select p = [] := by
    refine List.eq_nil_iff_forall_not_mem.2 fun r hr => ?_
    obtain ⟨hl, hp⟩ := mem_select.1 hr
    exact absurd hp (by simp [h _ _ hl])
  rw [deleteWhere, hnone, List.foldr_nil]

omit [DecidableEq K] in
theorem nodup_select (p : K → V → Bool) (t : Table K V) : ((t.select p).map Prod.fst).Nodup := by
  have hkeys : (t.select p).map Prod.fst =
      (t.entries.filter fun r => p r.1 r.2).map Sigma.fst := by
    rw [select]
    induction t.entries with
    | nil => rfl
    | cons r l ih => by_cases hp : p r.1 r.2 = true <;> simp [hp, ih]
  rw [hkeys]
  exact List.Nodup.sublist (List.filter_sublist.map _) t.nodupKeys

/-- Two tables in the order of their keys are the same when they have the same rows. -/
theorem eq_of_sorted [PartialOrder K] {t' : Table K V}
    (h : ∀ k, AList.lookup k t = AList.lookup k t')
    (ht : t.entries.Pairwise fun x y => x.1 ≤ y.1) (ht' : t'.entries.Pairwise fun x y => x.1 ≤ y.1) :
    t = t' := by
  have hperm : t.entries.Perm t'.entries :=
    List.lookup_ext t.nodupKeys t'.nodupKeys fun k v => by
      change v ∈ AList.lookup k t ↔ v ∈ AList.lookup k t'
      rw [h]
  refine AList.ext (hperm.eq_of_pairwise (fun x y hx hy hxy hyx => ?_) ht ht')
  exact t.nodupKeys.eq_of_fst_eq hx (hperm.mem_iff.2 hy) (le_antisymm hxy hyx)

/-! ### Numbered rows -/

/-- The keys are below the size of the table. -/
def Numbered (t : Table ℕ V) : Prop := ∀ k, AList.lookup k t ≠ none → k < t.entries.length

section

variable {t : Table ℕ V} {k : ℕ}

theorem Numbered.empty : Numbered (∅ : Table ℕ V) := fun _ h => absurd (AList.lookup_empty _) h

theorem Numbered.lookup_length (h : t.Numbered) : AList.lookup t.entries.length t = none := by
  by_contra hne
  exact absurd (h _ hne) (lt_irrefl _)

theorem length_insert_of_ne_none (hk : AList.lookup k t ≠ none) :
    (AList.insert k v t).entries.length = t.entries.length := by
  have hmem : k ∈ t.keys := by
    by_contra h
    exact hk (AList.lookup_eq_none.2 h)
  have hpos := List.length_pos_of_mem hmem
  have hlen : ∀ t : Table ℕ V, t.entries.length = t.keys.length := fun t => (List.length_map _).symm
  rw [hlen, hlen, AList.keys_insert, List.length_cons, List.length_erase_of_mem hmem]
  omega

theorem length_insert_of_eq_none (hk : AList.lookup k t = none) :
    (AList.insert k v t).entries.length = t.entries.length + 1 := by
  rw [AList.entries_insert_of_notMem (AList.lookup_eq_none.1 hk), List.length_cons]

theorem Numbered.insert (h : t.Numbered) (hk : AList.lookup k t ≠ none) :
    Numbered (AList.insert k v t) := by
  intro x hx
  rw [length_insert_of_ne_none hk]
  rw [lookup_insert] at hx
  split_ifs at hx with hxk
  · rw [hxk]
    exact h k hk
  · exact h x hx

theorem Numbered.insert_length (h : t.Numbered) :
    Numbered (AList.insert t.entries.length v t) := by
  intro x hx
  rw [length_insert_of_eq_none h.lookup_length]
  rw [lookup_insert] at hx
  split_ifs at hx with hxk
  · omega
  · have hlt := h x hx
    omega

theorem Numbered.update (h : t.Numbered) (f : V → V) : Numbered (t.update k f) := by
  cases hk : AList.lookup k t with
  | none => simpa only [Table.update, hk] using h
  | some v =>
    simp only [Table.update, hk]
    exact h.insert (by simp [hk])

end

end Table

end Backplane
