import Backplane.Data.Forest
import Backplane.Llm.Presets

/-!
# Fallbacks that run in no circle

`detect_fallback_cycles` follows the fallback of every preset.  It finds a circle exactly when there
is one.

* `fallbackOf` : the fallback of a preset, `Acyclic` : no preset falls back on itself.
* `fallbacksEnd_iff` : the search is right.
* `Acyclic.of_le`, `Acyclic.insert` : fallbacks that are dropped, and a new preset, close no circle.
-/

namespace Backplane

open Forest

/-- The fallback of a preset. -/
def fallbackOf (presets : Table String PresetFields) (n : String) : Option String :=
  (presets.lookup n).bind PresetFields.fallbackPreset

/-- No preset falls back on itself, over others or at once. -/
def Acyclic (par : String → Option String) : Prop := ∀ n, ¬ Below par n n

variable {presets : Table String PresetFields} {par par' : String → Option String}
  {trail done done' keys : List String} {fuel : ℕ} {n : String}

/-! ### The search -/

/-- The chain of fallbacks of the preset ends. -/
def ChainEnds (presets : Table String PresetFields) (n : String) : Prop :=
  ∃ k, Depth (fallbackOf presets) n k

theorem ChainEnds.of_none (h : fallbackOf presets n = none) : ChainEnds presets n := ⟨_, .root h⟩

theorem fallbackOf_of_none (h : presets.lookup n = none) : fallbackOf presets n = none := by
  rw [fallbackOf, h]
  rfl

/-- What the search is done with ends. -/
theorem visitFallback_sound (hdone : ∀ x ∈ done, ChainEnds presets x)
    (h : visitFallback presets fuel trail done n = some done') :
    (∀ x ∈ done', ChainEnds presets x) ∧ ChainEnds presets n := by
  induction fuel generalizing trail done' n with
  | zero => cases h
  | succ fuel ih =>
    rw [visitFallback] at h
    cases hlookup : presets.lookup n with
    | none =>
      rw [hlookup] at h
      obtain rfl := Option.some.inj h
      exact ⟨hdone, .of_none (fallbackOf_of_none hlookup)⟩
    | some p =>
      rw [hlookup] at h
      dsimp only at h
      have hpar : fallbackOf presets n = p.fallbackPreset := by rw [fallbackOf, hlookup]; rfl
      split_ifs at h with hmem htrail
      · obtain rfl := Option.some.inj h
        exact ⟨hdone, hdone n hmem⟩
      · cases hnext : p.fallbackPreset with
        | none =>
          rw [hnext] at h
          obtain rfl := Option.some.inj h
          have hn : ChainEnds presets n := .of_none (hpar.trans hnext)
          exact ⟨List.forall_mem_cons.2 ⟨hn, hdone⟩, hn⟩
        | some next =>
          rw [hnext] at h
          obtain ⟨done₁, hvisit, rfl⟩ := Option.map_eq_some_iff.1 h
          obtain ⟨hdone₁, k, hk⟩ := ih hvisit
          have hn : ChainEnds presets n := ⟨_, .child (hpar.trans hnext) hk⟩
          exact ⟨List.forall_mem_cons.2 ⟨hn, hdone₁⟩, hn⟩

/-- Where there is no circle, the search comes through. -/
theorem visitFallback_complete (hacyclic : Acyclic (fallbackOf presets))
    (htrail : ∀ x ∈ trail, Below (fallbackOf presets) n x) (hnodup : trail.Nodup)
    (hkeys : ∀ x ∈ trail, x ∈ presets.keys) (hfuel : presets.keys.length < fuel + trail.length) :
    (visitFallback presets fuel trail done n).isSome = true := by
  induction fuel generalizing trail n with
  | zero =>
    have hle := (List.subperm_of_subset hnodup hkeys).length_le
    omega
  | succ fuel ih =>
    rw [visitFallback]
    cases hlookup : presets.lookup n with
    | none => rfl
    | some p =>
      dsimp only
      split_ifs with hmem hn
      · rfl
      · exact absurd (htrail n hn) (hacyclic n)
      · cases hnext : p.fallbackPreset with
        | none => rfl
        | some next =>
          have hpar : fallbackOf presets n = some next := by rw [fallbackOf, hlookup]; exact hnext
          have hmem : n ∈ presets.keys :=
            AList.mem_keys.1 (AList.lookup_isSome.1 (by rw [hlookup]; rfl))
          rw [Option.isSome_map]
          refine ih (List.forall_mem_cons.2 ⟨.single hpar, fun x hx => ?_⟩)
            (List.nodup_cons.2 ⟨hn, hnodup⟩) (List.forall_mem_cons.2 ⟨hmem, hkeys⟩) ?_
          · exact (Below.single hpar).trans (htrail x hx)
          · rw [List.length_cons]
            omega

/-- The search from each of these. -/
def visitAll (presets : Table String PresetFields) (keys done : List String) :
    Option (List String) :=
  keys.foldlM (fun done n =>
    if n ∈ done then some done
    else visitFallback presets (presets.keys.length + 1) [] done n) done

theorem visitAll_sound (hdone : ∀ x ∈ done, ChainEnds presets x)
    (h : visitAll presets keys done = some done') : ∀ n ∈ keys, ChainEnds presets n := by
  induction keys generalizing done with
  | nil => exact fun n hn => absurd hn List.not_mem_nil
  | cons n keys ih =>
    rw [visitAll, List.foldlM_cons] at h
    obtain ⟨done₁, hvisit, h⟩ := Option.bind_eq_some_iff.1 h
    split_ifs at hvisit with hmem
    · obtain rfl := Option.some.inj hvisit
      exact List.forall_mem_cons.2 ⟨hdone n hmem, ih hdone h⟩
    · obtain ⟨hdone₁, hn⟩ := visitFallback_sound hdone hvisit
      exact List.forall_mem_cons.2 ⟨hn, ih hdone₁ h⟩

theorem visitAll_complete (hacyclic : Acyclic (fallbackOf presets)) :
    (visitAll presets keys done).isSome = true := by
  induction keys generalizing done with
  | nil => rfl
  | cons n keys ih =>
    rw [visitAll, List.foldlM_cons]
    split_ifs
    · exact ih
    · have hvisit : (visitFallback presets (presets.keys.length + 1) [] done n).isSome = true :=
        visitFallback_complete hacyclic (fun x hx => absurd hx List.not_mem_nil) List.nodup_nil
          (fun x hx => absurd hx List.not_mem_nil) (Nat.lt_succ_self _)
      obtain ⟨done₁, hvisit⟩ := Option.isSome_iff_exists.1 hvisit
      rw [hvisit]
      exact ih

/-- **The search finds a circle exactly when there is one.** -/
theorem fallbacksEnd_iff : fallbacksEnd presets = true ↔ Acyclic (fallbackOf presets) := by
  refine ⟨fun h n hbelow => ?_, fun h => visitAll_complete h⟩
  obtain ⟨done', hdone'⟩ := Option.isSome_iff_exists.1 h
  have hkeys := visitAll_sound (fun x hx => absurd hx List.not_mem_nil) hdone'
  obtain ⟨k, hk⟩ : ChainEnds presets n := by
    by_cases hn : n ∈ presets.keys
    · exact hkeys n hn
    · refine .of_none (fallbackOf_of_none (AList.lookup_eq_none.2 fun hmem => hn ?_))
      exact AList.mem_keys.1 hmem
  exact hk.not_below_self hbelow

/-! ### What closes no circle -/

/-- Fallbacks may be dropped. -/
theorem Acyclic.of_le (h : Acyclic par) (hle : ∀ x p, par' x = some p → par x = some p) :
    Acyclic par' :=
  fun n hbelow => h n (hbelow.mono hle)

/-- A preset on which none falls back may fall back on another. -/
theorem Acyclic.insert (h : Acyclic par) (hleaf : ∀ x, par x ≠ some n)
    (hne : ∀ x, x ≠ n → par' x = par x) (hself : par' n ≠ some n) : Acyclic par' := by
  intro x hbelow
  rcases (below_graft rfl hne hleaf hself).1 hbelow with ⟨-, hbelow⟩ | ⟨rfl, q, hq, rfl | hbelow⟩
  · exact h x hbelow
  · exact hself hq
  · obtain ⟨p, hp, -⟩ := Relation.TransGen.head'_iff.1 hbelow
    exact hleaf _ hp

end Backplane
