import Mathlib.Data.List.MinMax
import Mathlib.Data.List.Nodup
import Mathlib.Order.Defs.LinearOrder
import Mathlib.Data.Nat.Notation

/-!
# Undirected graphs of bounded degree, as tables of edges

A row of the table is an unordered pair of vertices, the smaller one first, with the time it was
written.

* `pair` : an unordered pair, in order.
* `incident`, `degree`, `neighbors` : the edges at a vertex, their number, the vertices at the other
  ends.
* `drop` : delete an edge; `evictee`, `evict` : the oldest edge at a vertex that has too many.
* `Simple cap es` : no loop, no edge twice, no vertex with more than `cap` edges.
* `degree_evict_lt` : an eviction makes room at its vertex.
* `Simple.replace` : an edge can be written once room was made at both ends.
-/

namespace Backplane.CappedGraph

variable {V : Type} [LinearOrder V] {cap : ℕ}

/-- A row of the table of edges. -/
structure Edge (V : Type) where
  /-- The smaller end. -/
  a : V
  /-- The greater end. -/
  b : V
  createdAt : ℕ
  deriving DecidableEq, Repr

/-- The ends of an edge. -/
def Edge.ends (e : Edge V) : V × V := (e.a, e.b)

/-- The edge is at the vertex. -/
def Edge.touches (v : V) (e : Edge V) : Bool := v = e.a || v = e.b

/-- An unordered pair, in order. -/
def pair (a b : V) : V × V := if a < b then (a, b) else (b, a)

/-- The edges at a vertex. -/
def incident (es : List (Edge V)) (v : V) : List (Edge V) := es.filter (Edge.touches v)

/-- The number of edges at a vertex. -/
def degree (es : List (Edge V)) (v : V) : ℕ := (incident es v).length

/-- The vertices at the other ends of the edges at a vertex. -/
def neighbors (es : List (Edge V)) (v : V) : List V :=
  es.filterMap fun e => if e.a = v then some e.b else if e.b = v then some e.a else none

/-- The table without the edge between these ends. -/
def drop (p : V × V) (es : List (Edge V)) : List (Edge V) := es.filter fun e => e.ends ≠ p

/-- The ends of the oldest edge at a vertex that has `cap` edges or more. -/
def evictee (cap : ℕ) (es : List (Edge V)) (v : V) : Option (V × V) :=
  if cap ≤ degree es v then ((incident es v).argmin Edge.createdAt).map Edge.ends else none

/-- The rows `es'` without the edge that is to be evicted at a vertex of the graph `es`. -/
def evict (cap : ℕ) (es : List (Edge V)) (v : V) (es' : List (Edge V)) : List (Edge V) :=
  (evictee cap es v).elim es' fun p => drop p es'

/-- No loop, no edge twice, and no vertex with more than `cap` edges. -/
structure Simple (cap : ℕ) (es : List (Edge V)) : Prop where
  /-- No edge is there twice. -/
  nodup : (es.map Edge.ends).Nodup
  /-- The smaller end comes first. -/
  ordered : ∀ e ∈ es, e.a < e.b
  /-- No vertex has too many edges. -/
  degree_le : ∀ v, degree es v ≤ cap

variable {es es' : List (Edge V)} {e : Edge V} {a b u v : V} {t : ℕ}

theorem touches_iff : e.touches v = true ↔ v = e.a ∨ v = e.b := by
  simp [Edge.touches]

theorem pair_lt (h : a ≠ b) : (pair a b).1 < (pair a b).2 := by
  unfold pair
  split_ifs with hab
  · exact hab
  · exact lt_of_le_of_ne (not_lt.1 hab) h.symm

theorem pair_cases (a b : V) : pair a b = (a, b) ∨ pair a b = (b, a) := by
  unfold pair
  split_ifs
  · exact .inl rfl
  · exact .inr rfl

theorem mem_drop {p : V × V} : e ∈ drop p es ↔ e ∈ es ∧ e.ends ≠ p := by
  simp [drop]

/-! ### Degrees -/

theorem degree_le_of_sublist (h : es'.Sublist es) (v : V) : degree es' v ≤ degree es v :=
  (h.filter _).length_le

theorem degree_append (v : V) :
    degree (es ++ [e]) v = degree es v + if e.touches v then 1 else 0 := by
  rw [degree, incident, List.filter_append, List.length_append, ← incident, ← degree]
  cases h : e.touches v <;> simp [h]

/-- A vertex loses an edge that is deleted at it. -/
theorem degree_drop_lt (he : e ∈ es) (hv : e.touches v = true) :
    degree (drop e.ends es) v < degree es v := by
  have hsub : (incident (drop e.ends es) v).Sublist (incident es v) :=
    List.filter_sublist.filter _
  refine lt_of_le_of_ne hsub.length_le fun heq => ?_
  have hmem : e ∈ incident (drop e.ends es) v :=
    hsub.eq_of_length heq ▸ List.mem_filter.2 ⟨he, hv⟩
  exact (mem_drop.1 (List.mem_filter.1 hmem).1).2 rfl

/-- The edge that is evicted is one of the vertex. -/
theorem evictee_eq_some {p : V × V} (h : evictee cap es v = some p) :
    ∃ e ∈ es, e.touches v = true ∧ e.ends = p := by
  unfold evictee at h
  split_ifs at h
  obtain ⟨e, he, rfl⟩ := Option.map_eq_some_iff.1 h
  obtain ⟨hmem, hv⟩ := List.mem_filter.1 (List.argmin_mem he)
  exact ⟨e, hmem, hv, rfl⟩

/-- A vertex that need not give up an edge has room for one. -/
theorem degree_lt_of_evictee_eq_none (hcap : 0 < cap) (h : evictee cap es v = none) :
    degree es v < cap := by
  unfold evictee at h
  split_ifs at h with hdeg
  · rw [Option.map_eq_none_iff, List.argmin_eq_none] at h
    rw [degree, h, List.length_nil] at hdeg
    omega
  · omega

theorem evict_sublist : (evict cap es v es').Sublist es' := by
  cases h : evictee cap es v with
  | none => simp [evict, h]
  | some p =>
    simp only [evict, h, Option.elim]
    exact List.filter_sublist

theorem evict_mono (h : es'.Sublist es) : (evict cap es v es').Sublist (evict cap es v es) := by
  cases h' : evictee cap es v with
  | none => simpa only [evict, h', Option.elim] using h
  | some p =>
    simp only [evict, h', Option.elim]
    exact h.filter _

/-- Once its oldest edge is gone a vertex has room for a new one. -/
theorem degree_evict_lt (hcap : 0 < cap) (hdeg : degree es v ≤ cap) :
    degree (evict cap es v es) v < cap := by
  unfold evict
  cases h : evictee cap es v with
  | none => exact degree_lt_of_evictee_eq_none hcap h
  | some p =>
    obtain ⟨e, he, hv, rfl⟩ := evictee_eq_some h
    exact lt_of_lt_of_le (degree_drop_lt he hv) hdeg

/-! ### Simple graphs -/

theorem Simple.nil : Simple cap ([] : List (Edge V)) :=
  ⟨List.nodup_nil, fun _ he => absurd he List.not_mem_nil, fun _ => Nat.zero_le _⟩

theorem Simple.of_sublist (h : Simple cap es) (hsub : es'.Sublist es) : Simple cap es' :=
  ⟨h.nodup.sublist (hsub.map _), fun e he => h.ordered e (hsub.subset he),
    fun v => (degree_le_of_sublist hsub v).trans (h.degree_le v)⟩

theorem Simple.filter (h : Simple cap es) (p : Edge V → Bool) : Simple cap (es.filter p) :=
  h.of_sublist List.filter_sublist

/-- An edge can be written if it is new and there is room for it at both ends. -/
theorem Simple.append (h : Simple cap es) (hlt : e.a < e.b) (hnew : ∀ e' ∈ es, e'.ends ≠ e.ends)
    (ha : degree es e.a < cap) (hb : degree es e.b < cap) : Simple cap (es ++ [e]) := by
  refine ⟨?_, fun e' he' => ?_, fun v => ?_⟩
  · rw [List.map_append, List.map_singleton]
    refine h.nodup.append (List.nodup_singleton _) fun p hp hp' => ?_
    obtain ⟨e', he', rfl⟩ := List.mem_map.1 hp
    exact hnew e' he' (List.mem_singleton.1 hp')
  · obtain he' | he' := List.mem_append.1 he'
    · exact h.ordered e' he'
    · rwa [List.mem_singleton.1 he']
  · rw [degree_append]
    split_ifs with hv
    · obtain rfl | rfl := touches_iff.1 hv
      · exact ha
      · exact hb
    · exact h.degree_le v

/-- A new edge can be written once the oldest edges at its ends have made room for it. -/
theorem Simple.replace (hcap : 0 < cap) (h : Simple cap es) (hlt : e.a < e.b)
    (hnew : ∀ e' ∈ es, e'.ends ≠ e.ends) :
    Simple cap (evict cap es e.b (evict cap es e.a es) ++ [e]) := by
  have hsub : (evict cap es e.b (evict cap es e.a es)).Sublist es := evict_sublist.trans evict_sublist
  refine (h.of_sublist hsub).append hlt (fun e' he' => hnew e' (hsub.subset he')) ?_ ?_
  · exact lt_of_le_of_lt (degree_le_of_sublist evict_sublist _)
      (degree_evict_lt hcap (h.degree_le _))
  · exact lt_of_le_of_lt (degree_le_of_sublist (evict_mono evict_sublist) _)
      (degree_evict_lt hcap (h.degree_le _))

/-! ### Neighbours -/

theorem mem_neighbors :
    u ∈ neighbors es v ↔ ∃ e ∈ es, e.a = v ∧ e.b = u ∨ e.a ≠ v ∧ e.b = v ∧ e.a = u := by
  simp only [neighbors, List.mem_filterMap]
  refine exists_congr fun e => and_congr_right fun _ => ?_
  split_ifs with ha hb <;> simp [*]

theorem Simple.ne_of_mem_neighbors (h : Simple cap es) (hu : u ∈ neighbors es v) : u ≠ v := by
  obtain ⟨e, he, ⟨rfl, rfl⟩ | ⟨-, rfl, rfl⟩⟩ := mem_neighbors.1 hu
  · exact (h.ordered e he).ne'
  · exact (h.ordered e he).ne

/-- In a simple graph every neighbour is listed once. -/
theorem Simple.nodup_neighbors (h : Simple cap es) (v : V) : (neighbors es v).Nodup := by
  induction es with
  | nil => exact List.nodup_nil
  | cons e es ih =>
    have hrest := h.of_sublist (List.sublist_cons_self e es)
    have hlt := h.ordered e List.mem_cons_self
    have hnew : ∀ e' ∈ es, e'.ends ≠ e.ends := fun e' he' heq =>
      (List.nodup_cons.1 h.nodup).1 (heq ▸ List.mem_map_of_mem he')
    rw [neighbors, List.filterMap_cons]
    split
    · exact ih hrest
    · rename_i u hu
      refine List.nodup_cons.2 ⟨fun hmem => ?_, ih hrest⟩
      obtain ⟨e', he', h'⟩ := mem_neighbors.1 hmem
      have hlt' := hrest.ordered e' he'
      have hne := hnew e' he'
      simp only [Edge.ends, ne_eq, Prod.mk.injEq, not_and] at hne
      -- Both edges join `v` and `u`; their order makes them the same.
      grind

end Backplane.CappedGraph
