import Backplane.Data.Table

/-!
# References without a foreign key

Rows of a table that name other rows of it by key, in a list that no constraint guards.

* `Intact refs target holder t` : every key a row of `t` names is that of a `target` row, and only
  `holder` rows name any.
* `Intact.insert_iff`, `Intact.rename_iff` : when writing a row, and when giving one another key,
  keeps this.
* `Intact.erase`, `Intact.map` : deleting a row that nobody names, and rewriting all rows.
-/

namespace Backplane

variable {K V : Type} [DecidableEq K] (refs : V → List K) (target holder : V → Prop)

/-- The key of a row that may be named. -/
def Named (t : Table K V) (k : K) : Prop := ∃ v, t.lookup k = some v ∧ target v

/-- What the row names may be named, and it may name that. -/
def Fits (t : Table K V) (v : V) : Prop :=
  (∀ k ∈ refs v, Named target t k) ∧ (refs v ≠ [] → holder v)

/-- Every row fits. -/
def Intact (t : Table K V) : Prop := ∀ k v, t.lookup k = some v → Fits refs target holder t v

/-- No row other than that of `k` names `k`. -/
def Unnamed (t : Table K V) (k : K) : Prop := ∀ k' v, t.lookup k' = some v → k' ≠ k → k ∉ refs v

variable {refs target holder} {t t' : Table K V} {k k' : K} {v w : V}

theorem Intact.congr (h : Intact refs target holder t) (ht : ∀ k, t'.lookup k = t.lookup k) :
    Intact refs target holder t' := by
  intro k v hv
  obtain ⟨hnamed, hheld⟩ := h k v ((ht k).symm.trans hv)
  exact ⟨fun k' hmem => (hnamed k' hmem).imp fun w hw => ⟨(ht k').trans hw.1, hw.2⟩, hheld⟩

theorem Named.insert (h : Named target t k') (hk : k' = k → target v) :
    Named target (t.insert k v) k' := by
  by_cases he : k' = k
  · subst he
    exact ⟨v, AList.lookup_insert t, hk rfl⟩
  · obtain ⟨w, hw, htw⟩ := h
    exact ⟨w, (AList.lookup_insert_ne he).trans hw, htw⟩

/-- A key that is not in use is not named. -/
theorem Intact.unnamed (h : Intact refs target holder t) (hk : t.lookup k = none) :
    Unnamed refs t k := by
  intro k' v hv _ hmem
  obtain ⟨w, hw, -⟩ := (h k' v hv).1 k hmem
  rw [hk] at hw
  exact absurd hw (by simp)

/-- **Writing a row keeps the references intact iff the row fits and may be named where it is.** -/
theorem Intact.insert_iff (h : Intact refs target holder t) :
    Intact refs target holder (t.insert k v) ↔
      Fits refs target holder (t.insert k v) v ∧ (target v ∨ Unnamed refs t k) := by
  constructor
  · intro h'
    refine ⟨h' k v (AList.lookup_insert t), ?_⟩
    by_contra hno
    obtain ⟨hv, hno⟩ := not_or.1 hno
    refine hno fun k' w hw hne hmem => ?_
    obtain ⟨x, hx, htx⟩ := (h' k' w ((AList.lookup_insert_ne hne).trans hw)).1 k hmem
    obtain rfl : v = x := Option.some.inj ((AList.lookup_insert t).symm.trans hx)
    exact hv htx
  · rintro ⟨hfit, hname⟩ k' w hw
    by_cases hk : k' = k
    · subst hk
      obtain rfl : v = w := Option.some.inj ((AList.lookup_insert t).symm.trans hw)
      exact hfit
    · rw [AList.lookup_insert_ne hk] at hw
      refine ⟨fun k₁ hmem => ((h k' w hw).1 k₁ hmem).insert ?_, (h k' w hw).2⟩
      rintro rfl
      exact hname.resolve_right fun hun => hun k' w hw hk hmem

/-- A row that nobody names can be deleted. -/
theorem Intact.erase (h : Intact refs target holder t) (hun : Unnamed refs t k) :
    Intact refs target holder (t.erase k) := by
  intro k' w hw
  have hk : k' ≠ k := by
    rintro rfl
    exact absurd (hw.symm.trans (AList.lookup_erase k' t)) (by simp)
  rw [AList.lookup_erase_ne hk] at hw
  refine ⟨fun k₁ hmem => ?_, (h k' w hw).2⟩
  obtain ⟨x, hx, htx⟩ := (h k' w hw).1 k₁ hmem
  refine ⟨x, (AList.lookup_erase_ne ?_).trans hx, htx⟩
  rintro rfl
  exact hun k' w hw hk hmem

/-- **A row gets another key: that keeps the references intact iff nobody names the old one.** -/
theorem Intact.rename_iff (h : Intact refs target holder t) (hv : t.lookup k = some v)
    (hk' : k' ≠ k) (hfree : t.lookup k' = none) (hrefs : refs w = []) :
    Intact refs target holder ((t.erase k).insert k' w) ↔ Unnamed refs t k := by
  constructor
  · intro h' k₁ x hx hne hmem
    have hne' : k₁ ≠ k' := by
      rintro rfl
      exact absurd (hx.symm.trans hfree) (by simp)
    have hx' : ((t.erase k).insert k' w).lookup k₁ = some x := by
      rw [AList.lookup_insert_ne hne', AList.lookup_erase_ne hne, hx]
    obtain ⟨y, hy, -⟩ := (h' k₁ x hx').1 k hmem
    rw [AList.lookup_insert_ne hk'.symm, AList.lookup_erase] at hy
    exact absurd hy (by simp)
  · intro hun
    have hgone : (t.erase k).lookup k' = none := by rw [AList.lookup_erase_ne hk', hfree]
    refine ((h.erase hun).insert_iff).2 ⟨⟨?_, ?_⟩, .inr ((h.erase hun).unnamed hgone)⟩
    · rw [hrefs]
      exact fun _ hmem => absurd hmem (by simp)
    · exact fun hne => absurd hrefs hne

/-- Rows rewritten so that each names no more than before, and may be named and name as before
where it is still named. -/
theorem Intact.map {f : K → V → V} (h : Intact refs target holder t)
    (ht : ∀ k, t'.lookup k = (t.lookup k).map (f k)) (hrefs : ∀ k v, refs (f k v) ⊆ refs v)
    (hholder : ∀ k v, holder v → holder (f k v))
    (htarget : ∀ k v, target v → target (f k v) ∨ ∀ k' v', k ∉ refs (f k' v')) :
    Intact refs target holder t' := by
  intro k w hw
  rw [ht] at hw
  obtain ⟨v, hv, rfl⟩ := Option.map_eq_some_iff.1 hw
  refine ⟨fun k₁ hmem => ?_, fun hne => hholder k v ((h k v hv).2 fun he => hne ?_)⟩
  · obtain ⟨x, hx, htx⟩ := (h k v hv).1 k₁ (hrefs k v hmem)
    refine ⟨f k₁ x, by rw [ht, hx, Option.map_some], ?_⟩
    exact (htarget k₁ x htx).resolve_right fun hno => hno k v hmem
  · exact List.subset_nil.1 (he ▸ hrefs k v)

end Backplane
