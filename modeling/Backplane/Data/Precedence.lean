import Mathlib.Data.List.Nodup
import Mathlib.Data.List.Sort

/-!
# What comes before what

In a list without repetition, one entry comes before another.

* `Precedes l a b` : `a` comes before `b`.
* `take_eq_take_iff` : when a part of a list, in another order, has the same first entries.
* `precedes_insertionSort_iff` : a stable sort puts first what is less, and keeps the order of what
  is equal.
-/

namespace Backplane

variable {α : Type} {l l' : List α} {a b x : α} {k : ℕ} {p : α → Bool}

/-- `a` comes before `b`. -/
def Precedes (l : List α) (a b : α) : Prop := [a, b].Sublist l

instance [DecidableEq α] (l : List α) (a b : α) : Decidable (Precedes l a b) :=
  inferInstanceAs (Decidable ([a, b].Sublist l))

theorem Precedes.mem_left (h : Precedes l a b) : a ∈ l := h.subset (by simp)

theorem Precedes.mem_right (h : Precedes l a b) : b ∈ l := h.subset (by simp)

theorem Precedes.ne (h : Precedes l a b) (hl : l.Nodup) : a ≠ b := by
  rintro rfl
  exact List.nodup_iff_sublist.1 hl a h

/-- The first comes before all others. -/
theorem precedes_cons_self (hb : b ∈ l) : Precedes (a :: l) a b :=
  (List.singleton_sublist.2 hb).cons_cons a

theorem precedes_cons_of_ne (hne : a ≠ x) : Precedes (x :: l) a b ↔ Precedes l a b :=
  ⟨fun h => by
    rcases List.sublist_cons_iff.1 h with h | ⟨r, hr, -⟩
    · exact h
    · exact absurd (List.cons.inj hr).1 hne,
   fun h => h.cons x⟩

/-- Nothing comes before the first. -/
theorem not_precedes_head (hl : (x :: l).Nodup) : ¬ Precedes (x :: l) a x := by
  intro h
  have hne := h.ne hl
  exact (List.nodup_cons.1 hl).1 ((precedes_cons_of_ne hne).1 h).mem_right

/-- Of two entries one comes first. -/
theorem precedes_or_precedes (ha : a ∈ l) (hb : b ∈ l) (hne : a ≠ b) :
    Precedes l a b ∨ Precedes l b a := by
  induction l with
  | nil => cases ha
  | cons x l ih =>
    rcases List.mem_cons.1 ha with rfl | ha'
    · exact .inl (precedes_cons_self ((List.mem_cons.1 hb).resolve_left (Ne.symm hne)))
    rcases List.mem_cons.1 hb with rfl | hb'
    · exact .inr (precedes_cons_self ha')
    exact (ih ha' hb').imp (fun h => h.cons x) fun h => h.cons x

theorem Precedes.asymm (h : Precedes l a b) (hl : l.Nodup) : ¬ Precedes l b a := by
  induction l with
  | nil => cases h
  | cons x l ih =>
    intro h'
    by_cases hax : a = x
    · subst hax
      exact not_precedes_head hl h'
    by_cases hbx : b = x
    · subst hbx
      exact not_precedes_head hl h
    · exact ih ((precedes_cons_of_ne hax).1 h) (List.nodup_cons.1 hl).2
        ((precedes_cons_of_ne hbx).1 h')

theorem precedes_filter_iff : Precedes (l.filter p) a b ↔ Precedes l a b ∧ p a ∧ p b := by
  constructor
  · intro h
    exact ⟨h.trans List.filter_sublist, List.of_mem_filter h.mem_left,
      List.of_mem_filter h.mem_right⟩
  · rintro ⟨h, ha, hb⟩
    have hpair : [a, b].filter p = [a, b] := by simp [ha, hb]
    rw [Precedes, ← hpair]
    exact h.filter p

/-- The rest of a list comes from the rest of the other, where both begin with the same. -/
theorem subset_of_cons_subset (hl' : (x :: l').Nodup) (hsub : x :: l' ⊆ x :: l) : l' ⊆ l := by
  intro a ha
  have hne : a ≠ x := fun h => (List.nodup_cons.1 hl').1 (h ▸ ha)
  exact (List.mem_cons.1 (hsub (List.mem_cons_of_mem x ha))).resolve_left hne

/-- **When a part of a list has the same first entries.**  It has each of them, and what comes after
them in the list comes after them in the part. -/
theorem take_eq_take_iff (hl : l.Nodup) (hl' : l'.Nodup) (hsub : l' ⊆ l) :
    l'.take k = l.take k ↔
      ∀ a ∈ l.take k, a ∈ l' ∧ ∀ b ∈ l', Precedes l a b → Precedes l' a b := by
  induction k generalizing l l' with
  | zero => simp
  | succ k ih =>
    cases l with
    | nil =>
      obtain rfl := List.subset_nil.1 hsub
      simp
    | cons x l =>
      rw [List.take_succ_cons, List.forall_mem_cons]
      -- both sides need a part that begins as the list does
      suffices hhead : (l'.take (k + 1) = x :: l.take k ∨
          x ∈ l' ∧ ∀ b ∈ l', Precedes (x :: l) x b → Precedes l' x b) → ∃ ys, l' = x :: ys by
        by_cases hbegins : ∃ ys, l' = x :: ys
        · obtain ⟨ys, rfl⟩ := hbegins
          have hsub' := subset_of_cons_subset hl' hsub
          have hx : x ∉ l := (List.nodup_cons.1 hl).1
          rw [List.take_succ_cons, List.cons_inj_right,
            ih (List.nodup_cons.1 hl).2 (List.nodup_cons.1 hl').2 hsub']
          have hne : ∀ a ∈ l.take k, a ≠ x := fun a ha hax =>
            hx (hax ▸ List.mem_of_mem_take ha)
          constructor
          · intro h
            refine ⟨⟨List.mem_cons_self, fun b hb hxb => ?_⟩, fun a ha => ?_⟩
            · exact precedes_cons_self ((List.mem_cons.1 hb).resolve_left (hxb.ne hl).symm)
            obtain ⟨hmem, hafter⟩ := h a ha
            refine ⟨List.mem_cons_of_mem x hmem, fun b hb hab => ?_⟩
            have hab' := (precedes_cons_of_ne (hne a ha)).1 hab
            have hbx : b ≠ x := fun h => hx (h ▸ hab'.mem_right)
            exact (precedes_cons_of_ne (hne a ha)).2
              (hafter b ((List.mem_cons.1 hb).resolve_left hbx) hab')
          · rintro ⟨-, h⟩ a ha
            obtain ⟨hmem, hafter⟩ := h a ha
            refine ⟨(List.mem_cons.1 hmem).resolve_left (hne a ha), fun b hb hab => ?_⟩
            exact (precedes_cons_of_ne (hne a ha)).1 (hafter b (List.mem_cons_of_mem x hb)
              ((precedes_cons_of_ne (hne a ha)).2 hab))
        · exact iff_of_false (fun h => hbegins (hhead (.inl h)))
            fun h => hbegins (hhead (.inr h.1))
      rintro (h | ⟨hx, hafter⟩)
      · cases l' with
        | nil => simp at h
        | cons y ys => exact ⟨ys, by rw [(List.cons.inj h).1]⟩
      · cases l' with
        | nil => cases hx
        | cons y ys =>
          by_cases hyx : y = x
          · exact ⟨ys, by rw [hyx]⟩
          · have hy := (List.mem_cons.1 (hsub List.mem_cons_self)).resolve_left hyx
            exact absurd (hafter y List.mem_cons_self (precedes_cons_self hy))
              (not_precedes_head hl')

/-- **When the first entries are left** in a part of a list. -/
theorem take_eq_take_iff_of_sublist (hl : l.Nodup) (hsub : l'.Sublist l) :
    l'.take k = l.take k ↔ ∀ a ∈ l.take k, a ∈ l' := by
  rw [take_eq_take_iff hl (hl.sublist hsub) hsub.subset]
  refine forall₂_congr fun a _ => ⟨And.left, fun ha => ⟨ha, fun b hb h => ?_⟩⟩
  exact (precedes_or_precedes ha hb (h.ne hl)).resolve_right fun h' => h.asymm hl (h'.trans hsub)

section

variable {S : Type} [LinearOrder S] {f : α → S}

/-- **A stable sort** puts the greater values first, and keeps the order of equal ones. -/
theorem precedes_insertionSort_iff (hl : l.Nodup) (ha : a ∈ l) (hb : b ∈ l) (hne : a ≠ b) :
    Precedes (l.insertionSort fun a b => f b ≤ f a) a b ↔
      f b < f a ∨ f b = f a ∧ Precedes l a b := by
  have hnodup : (l.insertionSort fun a b => f b ≤ f a).Nodup :=
    (List.perm_insertionSort _ l).nodup_iff.2 hl
  have : Std.Total fun a b => f b ≤ f a := ⟨fun a b => le_total (f b) (f a)⟩
  have : IsTrans α fun a b => f b ≤ f a := ⟨fun a b c hab hbc => hbc.trans hab⟩
  have hsorted := List.pairwise_insertionSort (fun a b => f b ≤ f a) l
  have hle : ∀ {a b}, Precedes (l.insertionSort fun a b => f b ≤ f a) a b → f b ≤ f a :=
    fun h => by simpa using List.Pairwise.sublist h hsorted
  have hkept : ∀ {a b}, f b ≤ f a → Precedes l a b →
      Precedes (l.insertionSort fun a b => f b ≤ f a) a b :=
    fun hle h => List.pair_sublist_insertionSort hle h
  constructor
  · intro h
    rcases (hle h).lt_or_eq with hlt | heq
    · exact .inl hlt
    · refine .inr ⟨heq, (precedes_or_precedes ha hb hne).resolve_right fun h' => ?_⟩
      exact h.asymm hnodup (hkept heq.ge h')
  · rintro (hlt | ⟨heq, h⟩)
    · have hmem : ∀ {c}, c ∈ l → c ∈ l.insertionSort fun a b => f b ≤ f a :=
        fun hc => List.mem_insertionSort _ |>.2 hc
      exact (precedes_or_precedes (hmem ha) (hmem hb) hne).resolve_right
        fun h => absurd (hle h) (not_le.2 hlt)
    · exact hkept heq.le h

end

end Backplane
