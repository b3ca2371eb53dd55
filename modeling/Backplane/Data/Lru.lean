import Backplane.Data.Table

/-!
# Bounded tables

A table keeps its entries newest first: an insertion puts its entry in front.  A bounded cache that
forgets the entry that was used least recently is a table that is trimmed after each insertion and
touched at each lookup.

* `Table.touch k t` : the entry of `k`, if there is one, becomes the newest.
* `Table.trim n t` : the `n` newest entries.
* `Table.assign k v t` : an entry that is there keeps its place, a new one is the newest.
* `Table.dropOldest t` : all but the oldest entry.
-/

namespace Backplane.Table

variable {K V : Type} [DecidableEq K] {t : Table K V} {k k' : K} {v : V} {n : ℕ}

/-- The entry of `k`, if there is one, becomes the newest. -/
def touch (k : K) (t : Table K V) : Table K V := t.update k id

/-- The `n` newest entries. -/
def trim (n : ℕ) (t : Table K V) : Table K V where
  entries := t.entries.take n
  nodupKeys := List.NodupKeys.sublist (List.take_sublist n t.entries) t.nodupKeys

@[simp] theorem lookup_touch : AList.lookup k' (t.touch k) = AList.lookup k' t := by
  rw [touch, lookup_update_map]
  simp

/-- What is left has not changed. -/
theorem lookup_of_trim (h : AList.lookup k (t.trim n) = some v) : AList.lookup k t = some v :=
  AList.mem_lookup_iff.2 (List.take_subset n t.entries (AList.mem_lookup_iff.1 h))

/-- An entry that is there keeps its place, a new one is the newest. -/
def assign (k : K) (v : V) (t : Table K V) : Table K V :=
  if (AList.lookup k t).isSome then t.mapRows fun k' old => if k' = k then v else old
  else AList.insert k v t

/-- All but the oldest entry. -/
def dropOldest (t : Table K V) : Table K V where
  entries := t.entries.dropLast
  nodupKeys := List.NodupKeys.sublist (List.dropLast_sublist t.entries) t.nodupKeys

@[simp] theorem lookup_assign :
    AList.lookup k' (t.assign k v) = if k' = k then some v else AList.lookup k' t := by
  unfold assign
  split_ifs with hk h h
  · subst h
    obtain ⟨old, hold⟩ := Option.isSome_iff_exists.1 hk
    rw [lookup_mapRows, hold, Option.map_some, if_pos rfl]
  · rw [lookup_mapRows]
    simp [h]
  · rw [lookup_insert, if_pos h]
  · rw [lookup_insert, if_neg h]

/-- What is left has not changed. -/
theorem lookup_of_dropOldest (h : AList.lookup k t.dropOldest = some v) :
    AList.lookup k t = some v :=
  AList.mem_lookup_iff.2 (List.dropLast_subset t.entries (AList.mem_lookup_iff.1 h))

/-- What is left is all but the oldest entry. -/
theorem lookup_dropOldest {oldest : Sigma fun _ : K => V} (h : t.entries.getLast? = some oldest) :
    AList.lookup k t.dropOldest = (if k = oldest.1 then none else AList.lookup k t) ∧
      AList.lookup oldest.1 t = some oldest.2 := by
  have hentries : t.entries.dropLast ++ [oldest] = t.entries :=
    List.dropLast_append_getLast? oldest h
  have hnodup : (t.entries.dropLast ++ [oldest]).keys.Nodup := by
    rw [hentries]
    exact t.nodupKeys
  have hfresh : oldest.1 ∉ t.entries.dropLast.keys := by
    rw [List.keys, List.map_append, List.nodup_append] at hnodup
    exact fun hmem => hnodup.2.2 _ hmem _ (by simp) rfl
  have hlookup : ∀ k, AList.lookup k t =
      (List.dlookup k t.entries.dropLast).or (List.dlookup k [oldest]) := by
    intro k
    rw [← List.dlookup_append, hentries, AList.lookup]
  have hself : List.dlookup oldest.1 t.entries.dropLast = none := List.dlookup_eq_none.2 hfresh
  refine ⟨?_, ?_⟩
  · split_ifs with hk
    · exact hk ▸ hself
    · rw [hlookup, List.dlookup_cons_ne _ _ hk, List.dlookup_nil, Option.or_none]
      rfl
  · rw [hlookup, hself, Option.none_or]
    exact List.dlookup_cons_eq _ _ _

end Backplane.Table
