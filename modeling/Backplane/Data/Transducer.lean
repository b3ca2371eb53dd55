import Mathlib.Data.List.Basic

/-!
# Transducers

A `Transducer` reads events one at a time, keeps a state and answers each event with a list of
outputs.

* `Transducer.out`, `Transducer.final` : the outputs over a list of events, and the last state.
* `out_append`, `final_append` : events in two parts.
* `out_filter`, `final_filter` : events that do nothing may be dropped.
* `out_map`, `final_map` : events that leave the state alone are answered one by one.
* `Splits`, `Splits.out_eq` : a state made of parts with events of their own.  However the events
  come, if the answers come in the order of the parts they are what each part answers.
* `flatMap_filter_range`, `flatMap_eq_iff_of_sublist` : lists that are put together from parts.
-/

namespace Backplane

/-! ### Lists that are put together -/

section Sorted

variable {α : Type} {l : List α} {f : α → ℕ} {a n : ℕ}

/-- The first of the keys come first. -/
theorem filter_append_filter (h : l.Pairwise fun x y => f x ≤ f y) (ha : ∀ x ∈ l, a ≤ f x) :
    l.filter (f · = a) ++ l.filter (f · ≠ a) = l := by
  induction l with
  | nil => rfl
  | cons x l ih =>
    obtain ⟨hx, hl⟩ := List.pairwise_cons.1 h
    by_cases hxa : f x = a
    · rw [List.filter_cons_of_pos (by simpa using hxa), List.filter_cons_of_neg (by simpa using hxa),
        List.cons_append, ih hl fun y hy => ha y (List.mem_cons_of_mem _ hy)]
    · -- The key of the head is larger, and so are the keys behind it.
      have hlt : ∀ y ∈ x :: l, f y ≠ a := by
        intro y hy
        have hxlt := ha x List.mem_cons_self
        rcases List.mem_cons.1 hy with rfl | hy
        · exact hxa
        · have hxy := hx y hy
          omega
      rw [List.filter_eq_nil_iff.2 fun y hy => by simpa using hlt y hy, List.nil_append,
        List.filter_eq_self.2 fun y hy => by simpa using hlt y hy]

theorem flatMap_filter_range' (h : l.Pairwise fun x y => f x ≤ f y)
    (hl : ∀ x ∈ l, a ≤ f x ∧ f x < a + n) :
    (List.range' a n).flatMap (fun k => l.filter (f · = k)) = l := by
  induction n generalizing a l with
  | zero =>
    have hnil : l = [] := List.eq_nil_iff_forall_not_mem.2 fun x hx => by
      have hx' := hl x hx
      omega
    rw [hnil]
    rfl
  | succ n ih =>
    have hrest := ih (l := l.filter (f · ≠ a)) (a := a + 1) (h.filter _) fun x hx => by
      obtain ⟨hx, hne⟩ := List.mem_filter.1 hx
      have hx' := hl x hx
      have hne' : f x ≠ a := by simpa using hne
      omega
    have hsame : ∀ k ∈ List.range' (a + 1) n,
        (l.filter (f · ≠ a)).filter (f · = k) = l.filter (f · = k) := by
      intro k hk
      rw [List.filter_filter]
      refine List.filter_congr fun x _ => ?_
      have hak := (List.mem_range'_1.1 hk).1
      by_cases hx : f x = k
      · simp [hx, show k ≠ a by omega]
      · simp [hx]
    rw [List.range'_succ, List.flatMap_cons, ← List.flatMap_congr hsame, hrest]
    exact filter_append_filter h fun x hx => (hl x hx).1

/-- **A list in the order of a key is its parts, key by key.** -/
theorem flatMap_filter_range (h : l.Pairwise fun x y => f x ≤ f y) (hl : ∀ x ∈ l, f x < n) :
    (List.range n).flatMap (fun k => l.filter (f · = k)) = l := by
  rw [List.range_eq_range']
  exact flatMap_filter_range' h fun x hx => ⟨Nat.zero_le _, by simpa using hl x hx⟩

/-- What adds nothing may be dropped. -/
theorem flatMap_filter {β : Type} {p : α → Bool} {g : α → List β}
    (h : ∀ x ∈ l, p x = false → g x = []) : (l.filter p).flatMap g = l.flatMap g := by
  induction l with
  | nil => rfl
  | cons x l ih =>
    have hl := ih fun y hy => h y (List.mem_cons_of_mem _ hy)
    cases hp : p x with
    | true => rw [List.filter_cons_of_pos hp, List.flatMap_cons, List.flatMap_cons, hl]
    | false =>
      rw [List.filter_cons_of_neg (by simp [hp]), List.flatMap_cons, h x List.mem_cons_self hp, hl,
        List.nil_append]

/-- The elements one after the other, by their places. -/
theorem flatMap_range_getElem? {β : Type} (l : List α) (g : α → List β) :
    (List.range l.length).flatMap (fun k => l[k]?.elim [] g) = l.flatMap g := by
  induction l with
  | nil => rfl
  | cons x l ih =>
    rw [List.length_cons, List.range_succ_eq_map, List.flatMap_cons, List.flatMap_map,
      List.flatMap_cons, ← ih]
    rfl

theorem sublist_flatMap {β : Type} {f g : α → List β} (h : ∀ x ∈ l, (f x).Sublist (g x)) :
    (l.flatMap f).Sublist (l.flatMap g) := by
  induction l with
  | nil => exact List.Sublist.refl _
  | cons x l ih =>
    rw [List.flatMap_cons, List.flatMap_cons]
    exact (h x List.mem_cons_self).append (ih fun y hy => h y (List.mem_cons_of_mem _ hy))

/-- Where each part may lack something, the whole lacks nothing if no part does. -/
theorem flatMap_eq_iff_of_sublist {β : Type} {f g : α → List β}
    (h : ∀ x ∈ l, (f x).Sublist (g x)) : l.flatMap f = l.flatMap g ↔ ∀ x ∈ l, f x = g x := by
  refine ⟨fun heq => ?_, List.flatMap_congr⟩
  induction l with
  | nil => exact fun x hx => absurd hx List.not_mem_nil
  | cons x l ih =>
    rw [List.flatMap_cons, List.flatMap_cons] at heq
    obtain ⟨hx, hl⟩ := List.forall_mem_cons.1 h
    have hlen := congrArg List.length heq
    rw [List.length_append, List.length_append] at hlen
    have hhead := hx.length_le
    have hrest := (sublist_flatMap hl).length_le
    have hfx : f x = g x := hx.eq_of_length (by omega)
    rw [hfx] at heq
    exact List.forall_mem_cons.2 ⟨hfx, ih hl (List.append_cancel_left heq)⟩

end Sorted

/-! ### Transducers -/

/-- A machine that answers events with outputs. -/
structure Transducer (σ ε δ : Type) where
  /-- The state after an event, and what the event is answered with. -/
  step : σ → ε → σ × List δ

namespace Transducer

variable {σ ε δ : Type} (T : Transducer σ ε δ)

/-- The state after a list of events. -/
def final (s : σ) : List ε → σ
  | [] => s
  | e :: es => final (T.step s e).1 es

/-- The outputs over a list of events. -/
def out (s : σ) : List ε → List δ
  | [] => []
  | e :: es => (T.step s e).2 ++ out (T.step s e).1 es

/-- The event does nothing. -/
def Idle (e : ε) : Prop := ∀ s, T.step s e = (s, [])

variable {T} {s s' : σ} {e : ε} {es es' : List ε}

@[simp] theorem final_nil : T.final s [] = s := rfl

@[simp] theorem out_nil : T.out s [] = [] := rfl

theorem final_cons : T.final s (e :: es) = T.final (T.step s e).1 es := rfl

theorem out_cons : T.out s (e :: es) = (T.step s e).2 ++ T.out (T.step s e).1 es := rfl

theorem final_append : T.final s (es ++ es') = T.final (T.final s es) es' := by
  induction es generalizing s with
  | nil => rfl
  | cons e es ih => exact ih

theorem out_append : T.out s (es ++ es') = T.out s es ++ T.out (T.final s es) es' := by
  induction es generalizing s with
  | nil => rfl
  | cons e es ih => rw [List.cons_append, out_cons, out_cons, final_cons, ih, List.append_assoc]

/-- What every step answers with holds of all outputs. -/
theorem forall_out {P : δ → Prop} (h : ∀ s e, ∀ d ∈ (T.step s e).2, P d) (s : σ) (es : List ε) :
    ∀ d ∈ T.out s es, P d := by
  induction es generalizing s with
  | nil => exact fun d hd => absurd hd List.not_mem_nil
  | cons e es ih => exact List.forall_mem_append.2 ⟨h s e, ih _⟩

section Idle

variable {p : ε → Bool}

/-- **Events that do nothing may be dropped.** -/
theorem out_filter (h : ∀ e, p e = false → T.Idle e) : T.out s (es.filter p) = T.out s es := by
  induction es generalizing s with
  | nil => rfl
  | cons e es ih =>
    cases hp : p e with
    | true => rw [List.filter_cons_of_pos hp, out_cons, out_cons, ih]
    | false => rw [List.filter_cons_of_neg (by simp [hp]), ih, out_cons, h e hp s, List.nil_append]

end Idle

section Stateless

variable {α : Type} {f : α → ε} {g : α → List δ} {xs : List α}

theorem final_map (h : ∀ x ∈ xs, T.step s (f x) = (s, g x)) : T.final s (xs.map f) = s := by
  induction xs with
  | nil => rfl
  | cons x xs ih =>
    rw [List.map_cons, final_cons, h x List.mem_cons_self]
    exact ih fun y hy => h y (List.mem_cons_of_mem _ hy)

/-- Events that leave the state alone are answered one by one. -/
theorem out_map (h : ∀ x ∈ xs, T.step s (f x) = (s, g x)) :
    T.out s (xs.map f) = xs.flatMap g := by
  induction xs with
  | nil => rfl
  | cons x xs ih =>
    rw [List.map_cons, out_cons, h x List.mem_cons_self, List.flatMap_cons]
    exact congrArg _ (ih fun y hy => h y (List.mem_cons_of_mem _ hy))

end Stateless

section Split

variable {τ : Type} {U : Transducer τ ε δ} {key : ε → Option ℕ} {part : ℕ → σ → τ} {n : ℕ}

/-- The events, each with what it is answered with. -/
def trace (T : Transducer σ ε δ) (s : σ) : List ε → List (ε × List δ)
  | [] => []
  | e :: es => (e, (T.step s e).2) :: trace T (T.step s e).1 es

theorem trace_cons : T.trace s (e :: es) = (e, (T.step s e).2) :: T.trace (T.step s e).1 es := rfl

theorem out_eq_flatMap_trace : T.out s es = (T.trace s es).flatMap Prod.snd := by
  induction es generalizing s with
  | nil => rfl
  | cons e es ih => rw [out_cons, trace_cons, List.flatMap_cons, ih]

theorem map_trace : (T.trace s es).map Prod.fst = es := by
  induction es generalizing s with
  | nil => rfl
  | cons e es ih => rw [trace_cons, List.map_cons, ih]

/-- The state has parts, and an event moves the part that it names, and no other. -/
structure Splits (T : Transducer σ ε δ) (U : Transducer τ ε δ) (key : ε → Option ℕ)
    (part : ℕ → σ → τ) : Prop where
  /-- The part that it names answers. -/
  own : ∀ s e k, key e = some k → U.step (part k s) e = (part k (T.step s e).1, (T.step s e).2)
  /-- The others stay as they are. -/
  frame : ∀ s e k, key e ≠ some k → part k (T.step s e).1 = part k s

/-- The answers to the events of a part are the part's. -/
theorem Splits.trace_filter (h : Splits T U key part) (k : ℕ) :
    (T.trace s es).filter (fun x => key x.1 = some k) =
      U.trace (part k s) (es.filter (key · = some k)) := by
  induction es generalizing s with
  | nil => rfl
  | cons e es ih =>
    rw [trace_cons]
    by_cases hk : key e = some k
    · rw [List.filter_cons_of_pos (by simpa using hk), List.filter_cons_of_pos (by simpa using hk),
        ih, trace_cons, h.own s e k hk]
    · rw [List.filter_cons_of_neg (by simpa using hk), List.filter_cons_of_neg (by simpa using hk),
        ih, h.frame s e k hk]

theorem exists_of_mem_trace {x : ε × List δ} (h : x ∈ T.trace s es) :
    ∃ s', x.2 = (T.step s' x.1).2 := by
  induction es generalizing s with
  | nil => exact absurd h List.not_mem_nil
  | cons e es ih =>
    rcases List.mem_cons.1 h with rfl | h
    · exact ⟨s, rfl⟩
    · exact ih h

/-- **The parts answer one after the other**, if the answers come in their order. -/
theorem Splits.out_eq {tells : ε → Bool} (h : Splits T U key part)
    (hkey : ∀ e ∈ es, (key e).isSome)
    (htells : ∀ s e, tells e = false → (T.step s e).2 = [])
    (horder : ((es.filter tells).filterMap key).Pairwise (· ≤ ·))
    (hn : ∀ e ∈ es, ∀ k, key e = some k → k < n) :
    T.out s es =
      (List.range n).flatMap fun k => U.out (part k s) (es.filter (key · = some k)) := by
  have hmem : ∀ x ∈ T.trace s es, x.1 ∈ es := by
    intro x hx
    have hx' := List.mem_map_of_mem (f := Prod.fst) hx
    rwa [map_trace] at hx'
  have hdrop : ∀ x ∈ T.trace s es, tells x.1 = false → x.2 = [] := by
    intro x hx htell
    obtain ⟨s', hs'⟩ := exists_of_mem_trace hx
    rw [hs', htells s' x.1 htell]
  have hsorted : ((T.trace s es).filter fun x => tells x.1).Pairwise
      fun x y => (key x.1).getD 0 ≤ (key y.1).getD 0 := by
    have hes : (T.trace s es).map Prod.fst = es := map_trace
    rw [← hes, List.filter_map, List.pairwise_filterMap, List.pairwise_map] at horder
    refine horder.imp_of_mem fun {x y} hx hy hxy => ?_
    obtain ⟨i, hi⟩ := Option.isSome_iff_exists.1 (hkey _ (hmem x (List.mem_filter.1 hx).1))
    obtain ⟨j, hj⟩ := Option.isSome_iff_exists.1 (hkey _ (hmem y (List.mem_filter.1 hy).1))
    rw [hi, hj]
    exact hxy i hi j hj
  have hbound : ∀ x ∈ (T.trace s es).filter (fun x => tells x.1), (key x.1).getD 0 < n := by
    intro x hx
    have hx' := hmem x (List.mem_filter.1 hx).1
    obtain ⟨i, hi⟩ := Option.isSome_iff_exists.1 (hkey _ hx')
    rw [hi]
    exact hn x.1 hx' i hi
  rw [out_eq_flatMap_trace, ← flatMap_filter hdrop, ← flatMap_filter_range hsorted hbound,
    List.flatMap_assoc]
  refine List.flatMap_congr fun k _ => ?_
  rw [out_eq_flatMap_trace, ← h.trace_filter, ← flatMap_filter fun x hx =>
    hdrop x (List.mem_filter.1 hx).1, List.filter_filter, List.filter_filter]
  congr 1
  refine List.filter_congr fun x hx => ?_
  obtain ⟨i, hi⟩ := Option.isSome_iff_exists.1 (hkey _ (hmem x hx))
  rw [hi]
  simp [Bool.and_comm]

end Split

end Transducer

end Backplane
