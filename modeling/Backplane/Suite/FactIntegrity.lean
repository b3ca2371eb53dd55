import Backplane.Suite.FactGraph

/-!
# The fact graph stays whole

* `Intact` : what the tables of a user are to satisfy.
* `Coherent` : what holds even while a fact is halfway, `Rest` : and none is.
* `FactAct.steady` : the condition on the world: nothing fails or is interrupted while a fact is
  halfway, no answer relates a fact that it has removed, the edges can all be read.
* `graph_intact` : under the condition the tables are intact, however the calls are interrupted.
* `removed_then_related` : without it they are not.
-/

namespace Backplane.Memory

open Concur Prog CappedGraph

/-! ### What the tables satisfy -/

/-- The tables are as they should be. -/
structure Intact (s : FactStore) : Prop where
  /-- No name is given twice. -/
  unique : s.uids.Nodup
  /-- Every edge joins two facts that are there. -/
  joined : ∀ e ∈ s.edges, e.a ∈ s.uids ∧ e.b ∈ s.uids
  /-- No edge is stored twice. -/
  once : (s.edges.map Edge.ends).Nodup
  /-- The smaller end comes first, so the facts are distinct. -/
  ordered : ∀ e ∈ s.edges, e.a < e.b
  /-- No fact has more edges than the cap. -/
  capped : ∀ u, degree s.edges u ≤ degreeCap
  /-- A fact that is gone was removed, deleted or swept. -/
  lasting : ∀ u ∈ s.known, u ∈ s.uids ∨ u ∈ s.removed

/-- The fact is stored, or halfway. -/
def FactStore.Present (s : FactStore) (u : Uid) : Prop := u ∈ s.uids ∨ u ∈ s.halfway

/-- The tables are as they should be but for the facts that are halfway. -/
structure Coherent (s : FactStore) : Prop where
  /-- No name is given twice. -/
  unique : s.uids.Nodup
  /-- The facts that are halfway are not stored. -/
  gone : ∀ u ∈ s.halfway, u ∉ s.uids
  /-- The edges are a graph of bounded degree. -/
  simple : Simple degreeCap s.edges
  /-- Every edge joins two facts that are stored or halfway. -/
  joined : ∀ e ∈ s.edges, s.Present e.a ∧ s.Present e.b
  /-- A fact that is neither was removed, deleted or swept. -/
  lasting : ∀ u ∈ s.known, s.Present u ∨ u ∈ s.removed
  /-- The facts that are stored are known. -/
  listed : ∀ u ∈ s.uids, u ∈ s.known

/-- The tables are as they should be, and no fact is halfway. -/
structure Rest (s : FactStore) : Prop extends Coherent s where
  /-- No fact is halfway. -/
  settled : s.halfway = []

section

variable {s : FactStore} {e : Edge Uid} {u v : Uid} {us : List Uid}

theorem Rest.present_iff (h : Rest s) : s.Present u ↔ u ∈ s.uids := by
  simp [FactStore.Present, h.settled]

theorem Rest.intact (h : Rest s) : Intact s where
  unique := h.unique
  joined e he := ⟨h.present_iff.1 (h.joined e he).1, h.present_iff.1 (h.joined e he).2⟩
  once := h.simple.nodup
  ordered := h.simple.ordered
  capped := h.simple.degree_le
  lasting u hu := (h.lasting u hu).imp_left h.present_iff.1

theorem Rest.empty : Rest {} where
  unique := List.nodup_nil
  gone _ hu := absurd hu List.not_mem_nil
  simple := Simple.nil
  joined _ he := absurd he List.not_mem_nil
  lasting _ hu := absurd hu List.not_mem_nil
  listed _ hu := absurd hu List.not_mem_nil
  settled := rfl

/-! ### What each write does to them -/

@[simp] theorem uids_insertFact {now createdAt : ℕ} {fact kind : String} :
    (s.insertFact now u fact kind createdAt).uids = s.uids ++ [u] := by
  simp [FactStore.insertFact, FactStore.uids]

theorem mem_uids_deleteFacts {removing : Bool} :
    u ∈ (s.deleteFacts us removing).uids ↔ u ∈ s.uids ∧ u ∉ us := by
  simp only [FactStore.uids, FactStore.deleteFacts, List.mem_map, List.mem_filter,
    decide_eq_true_eq]
  constructor
  · rintro ⟨f, ⟨hf, hus⟩, rfl⟩
    exact ⟨⟨f, hf, rfl⟩, hus⟩
  · rintro ⟨⟨f, hf, rfl⟩, hus⟩
    exact ⟨f, ⟨hf, hus⟩, rfl⟩

@[simp] theorem uids_deleteEdgesFor : (s.deleteEdgesFor us).uids = s.uids := rfl

@[simp] theorem uids_deleteEdge {p : Uid × Uid} : (s.deleteEdge p).uids = s.uids := rfl

@[simp] theorem uids_insertEdge : (s.insertEdge e).uids = s.uids := rfl

theorem present_insertFact {now createdAt : ℕ} {fact kind : String} (h : s.Present v) :
    (s.insertFact now u fact kind createdAt).Present v := by
  by_cases hv : v = u
  · exact .inl (by simp [hv])
  · obtain h | h := h
    · exact .inl (by simp [h])
    · exact .inr (List.mem_filter.2 ⟨h, by simpa using hv⟩)

/-- A fact that is not stored can be stored. -/
theorem Coherent.insertFact {now createdAt : ℕ} {fact kind : String} (h : Coherent s)
    (hu : u ∉ s.uids) : Coherent (s.insertFact now u fact kind createdAt) where
  unique := by
    rw [uids_insertFact]
    exact h.unique.append (List.nodup_singleton u) fun v hv hv' =>
      hu (List.mem_singleton.1 hv' ▸ hv)
  gone v hv := by
    obtain ⟨hv, hne⟩ := List.mem_filter.1 hv
    have := h.gone v hv
    simp only [ne_eq, decide_not, Bool.not_eq_eq_eq_not, Bool.not_true, decide_eq_false_iff_not] at hne
    simp [this, hne]
  simple := h.simple
  joined e he := ⟨present_insertFact (h.joined e he).1, present_insertFact (h.joined e he).2⟩
  lasting v hv := by
    obtain rfl | hv := List.mem_cons.1 hv
    · exact .inl (.inl (by simp))
    · exact (h.lasting v hv).imp_left present_insertFact
  listed v hv := by
    rw [uids_insertFact, List.mem_append, List.mem_singleton] at hv
    obtain hv | rfl := hv
    · exact List.mem_cons_of_mem _ (h.listed v hv)
    · exact List.mem_cons_self

theorem present_deleteFacts {removing : Bool} (h : s.Present v) :
    (s.deleteFacts us removing).Present v := by
  by_cases hv : v ∈ us
  · exact .inr (List.mem_append_right _ hv)
  · exact h.imp (fun h => mem_uids_deleteFacts.2 ⟨h, hv⟩) fun h => List.mem_append_left _ h

/-- The facts whose rows are deleted are halfway. -/
theorem Coherent.deleteFacts {removing : Bool} (h : Coherent s) :
    Coherent (s.deleteFacts us removing) where
  unique := h.unique.sublist (List.filter_sublist.map _)
  gone v hv hv' := by
    obtain ⟨hmem, hus⟩ := mem_uids_deleteFacts.1 hv'
    exact (List.mem_append.1 hv).elim (fun hv => h.gone v hv hmem) hus
  simple := h.simple
  joined e he := ⟨present_deleteFacts (h.joined e he).1, present_deleteFacts (h.joined e he).2⟩
  lasting v hv := by
    refine (h.lasting v hv).imp present_deleteFacts fun hr => ?_
    cases removing with
    | false => exact hr
    | true => exact List.mem_append_left _ hr
  listed v hv := h.listed v (mem_uids_deleteFacts.1 hv).1

/-- Once the edges of the facts that are halfway are gone, none is. -/
theorem Coherent.deleteEdgesFor (h : Coherent s) (hhalf : ∀ u ∈ s.halfway, u ∈ us)
    (hremoved : ∀ u ∈ us, u ∈ s.removed) : Rest (s.deleteEdgesFor us) := by
  have hsettled : (s.deleteEdgesFor us).halfway = [] :=
    List.filter_eq_nil_iff.2 fun u hu => by simpa using hhalf u hu
  have hpresent {v : Uid} (hv : s.Present v) (hus : v ∉ us) : (s.deleteEdgesFor us).Present v :=
    .inl (hv.resolve_right fun hv => hus (hhalf v hv))
  refine ⟨⟨h.unique, fun v hv => ?_, h.simple.filter _, fun e he => ?_, fun v hv => ?_, h.listed⟩,
    hsettled⟩
  · rw [hsettled] at hv
    exact absurd hv List.not_mem_nil
  · obtain ⟨he, hus⟩ := List.mem_filter.1 he
    obtain ⟨ha, hb⟩ := of_decide_eq_true hus
    exact ⟨hpresent (h.joined e he).1 ha, hpresent (h.joined e he).2 hb⟩
  · obtain hp | hr := h.lasting v hv
    · by_cases hus : v ∈ us
      · exact .inr (hremoved v hus)
      · exact .inl (hpresent hp hus)
    · exact .inr hr

theorem Rest.deleteEdge {p : Uid × Uid} (h : Rest s) : Rest (s.deleteEdge p) :=
  ⟨⟨h.unique, h.gone, h.simple.filter _, fun e he => h.joined e (mem_drop.1 he).1, h.lasting,
    h.listed⟩, h.settled⟩

/-- An edge can be written between two facts that are stored, if there is room for it. -/
theorem Rest.insertEdge (h : Rest s) (ha : e.a ∈ s.uids) (hb : e.b ∈ s.uids)
    (hsimple : Simple degreeCap (s.edges ++ [e])) : Rest (s.insertEdge e) := by
  refine ⟨⟨h.unique, h.gone, hsimple, fun e' he' => ?_, h.lasting, h.listed⟩, h.settled⟩
  obtain he' | he' := List.mem_append.1 he'
  · exact h.joined e' he'
  · rw [List.mem_singleton.1 he']
    exact ⟨.inl ha, .inl hb⟩

end

/-! ### The condition -/

/-- None of these decisions relates a neighbour that one before it has removed. -/
def sane (cfg : MemoryConfig) (count : ℕ) : List ℕ → List Json → Bool
  | removed, .obj d :: ds =>
    match placeOf count (field d "fact_number") with
    | none => sane cfg count removed ds
    | some i =>
      if cfg.action (field d "action") = "REMOVE" then sane cfg count (i :: removed) ds
      else if cfg.action (field d "action") = "RELATE" ∧ i ∈ removed then false
      else sane cfg count removed ds
  | _, _ => true

/-- An answer about so many neighbours relates none that it has removed. -/
def saneAnswer (cfg : MemoryConfig) (count : ℕ) (answer : Object) : Bool :=
  sane cfg count [] ((decisionsOf answer).getD [])

/-- Nothing fails or is interrupted while a fact is halfway. -/
def FactEnv.calm (e : FactEnv) (s : FactStore) : Bool := !e.fails || s.halfway.isEmpty

/-- **The condition on the world**: nothing fails or is interrupted while a fact is halfway, no
answer relates a neighbour that it has removed, and the edges can all be read. -/
def FactAct.steady (cfg : MemoryConfig) : {β : Type} → FactAct β → FactEnv → FactStore → Bool
  | _, .llmJson (.propagate _ _ _ ns), e, s => e.calm s && saneAnswer cfg ns.length e.object
  | _, .allEdges, e, s => e.calm s && s.edges.length ≤ rowLimit
  | _, _, e, s => e.calm s

/-- The program keeps the tables coherent at every point, at rest where it raises, and leaves what
`fin` says where it returns. -/
abbrev Safe (cfg : MemoryConfig) {α : Type} (p : Task α) (s : FactStore)
    (fin : α → FactStore → Prop) : Prop :=
  Fallible.Wp ((memory cfg).restrict (FactAct.steady cfg)) Coherent Rest p s fin

section

variable {cfg : MemoryConfig} {s : FactStore} {α β : Type}

theorem steady_calm {a : FactAct β} {e : FactEnv} (h : a.steady cfg e s = true) :
    e.calm s = true := by
  cases a with
  | llmJson prompt =>
    cases prompt with
    | propagate => exact (Bool.and_eq_true_iff.1 h).1
    | _ => exact h
  | allEdges => exact (Bool.and_eq_true_iff.1 h).1
  | _ => exact h

/-- What fails or is interrupted finds no fact halfway. -/
theorem Coherent.rest_of_calm {e : FactEnv} (h : Coherent s) (hcalm : e.calm s = true)
    (hfails : e.fails = true) : Rest s := by
  refine ⟨h, ?_⟩
  simpa [FactEnv.calm, hfails] using hcalm

theorem safe_read {a : FactAct (Option α)} {v : FactEnv → α} {fin : α → FactStore → Prop}
    (hs : Rest s) (hexec : ∀ e, a.exec e s = FactAct.read e s (v e))
    (hfin : ∀ e, a.steady cfg e s = true → fin (v e) s) : Safe cfg (Fallible.query a) s fin := by
  refine Fallible.wp_query.2 ⟨hs.toCoherent, fun e s₁ b he => ?_⟩
  obtain ⟨hsteady, he⟩ := Machine.restrict_exec.1 he
  obtain ⟨rfl, rfl⟩ := Prod.mk.inj (Option.some.inj ((hexec e).symm.trans he))
  split
  · rename_i x hx
    split_ifs at hx
    cases hx
    exact hfin e hsteady
  · exact hs

theorem safe_write {a : FactAct Bool} {f : FactEnv → FactStore → FactStore}
    {fin : Unit → FactStore → Prop} (hs : Coherent s)
    (hexec : ∀ e, a.exec e s = FactAct.write e s (f e)) (hfin : ∀ e, fin () (f e s)) :
    Safe cfg (Fallible.write a) s fin := by
  refine Fallible.wp_write.2 ⟨hs, fun e s₁ b he => ?_⟩
  obtain ⟨hsteady, he⟩ := Machine.restrict_exec.1 he
  have hx := Option.some.inj ((hexec e).symm.trans he)
  by_cases hfails : e.fails = true
  · rw [if_pos hfails] at hx
    obtain ⟨rfl, rfl⟩ := Prod.mk.inj hx
    exact hs.rest_of_calm (steady_calm hsteady) hfails
  · rw [if_neg hfails] at hx
    obtain ⟨rfl, rfl⟩ := Prod.mk.inj hx
    exact hfin e

theorem safe_embed {text : String} (hs : Rest s) :
    Safe cfg (Fallible.write (.embed text)) s fun _ s' => s' = s := by
  refine safe_write (f := fun _ => id) hs.toCoherent (fun e => ?_) fun _ => rfl
  cases h : e.fails <;> simp [FactAct.exec, FactAct.write, h]

theorem safe_now {fin : ℕ → FactStore → Prop} (hs : Coherent s) (hfin : ∀ t, fin t s) :
    Safe cfg (Fallible.lift (perform .now)) s fin := by
  refine Fallible.wp_lift.2 ⟨hs, fun e s₁ t he => ?_⟩
  obtain ⟨rfl, rfl⟩ := Prod.mk.inj (Option.some.inj (Machine.restrict_exec.1 he).2)
  exact hfin _

/-! ### The store -/

theorem safe_getFact {uid : Uid} (hs : Rest s) :
    Safe cfg (getFact uid) s fun r s' => s' = s ∧ ∀ f ∈ r, f.uid = uid ∧ uid ∈ s.uids := by
  refine Fallible.wp_bind.2 (safe_read hs (fun _ => rfl) fun e _ => ?_)
  refine Fallible.wp_pure.2 ⟨rfl, fun f hf => ?_⟩
  have huid : f.uid = uid := by simpa using List.find?_some hf
  exact ⟨huid, huid ▸ List.mem_map_of_mem (List.mem_of_mem_take (List.mem_of_find?_eq_some hf))⟩

theorem safe_insertFact {fact kind : String} (hs : Rest s) :
    Safe cfg (insertFact fact kind) s fun uid s' =>
      Rest s' ∧ uid ∈ s'.uids ∧ ∀ u ∈ s.uids, u ∈ s'.uids := by
  refine Fallible.wp_bind.2 (Fallible.wp_lift.2 ⟨hs.toCoherent, fun e s₁ uid he => ?_⟩)
  have he := (Machine.restrict_exec.1 he).2
  simp only [memory, FactAct.exec] at he
  split_ifs at he with hknown
  obtain ⟨rfl, rfl⟩ := Prod.mk.inj (Option.some.inj he)
  refine Fallible.wp_bind.2 (safe_now hs.toCoherent fun t => Fallible.wp_bind.2 ?_)
  refine safe_write hs.toCoherent (fun _ => rfl) fun e' => Fallible.wp_pure.2 ⟨⟨?_, ?_⟩, ?_⟩
  · exact hs.toCoherent.insertFact fun hu => hknown (hs.listed _ hu)
  · simp [FactStore.insertFact, hs.settled]
  · simp only [uids_insertFact, List.mem_append, List.mem_singleton, or_true, true_and]
    exact fun u hu => .inl hu

/-- A fact that is rewritten is stored again. -/
theorem safe_updateFact {uid : Uid} {fact : String} (hs : Rest s) :
    Safe cfg (updateFact uid fact) s fun _ s' => Rest s' ∧ ∀ u ∈ s.uids, u ∈ s'.uids := by
  refine Fallible.wp_bind.2 ((safe_getFact hs).mono ?_)
  rintro (_ | f) s₁ ⟨rfl, hf⟩
  · exact ⟨hs, fun _ hu => hu⟩
  refine Fallible.wp_bind.2 (safe_write hs.toCoherent (fun _ => rfl) fun e => ?_)
  have hdel : Coherent (s₁.deleteFacts [uid] false) := hs.toCoherent.deleteFacts
  refine safe_write hdel (fun _ => rfl) fun e' => ⟨⟨?_, ?_⟩, fun u hu => ?_⟩
  · exact hdel.insertFact fun hu => (mem_uids_deleteFacts.1 hu).2 (List.mem_singleton.2 rfl)
  · simp [FactStore.insertFact, FactStore.deleteFacts, hs.settled]
  · rw [uids_insertFact, List.mem_append, List.mem_singleton, mem_uids_deleteFacts,
      List.mem_singleton]
    by_cases h : u = uid
    · exact .inr h
    · exact .inl ⟨hu, h⟩

theorem safe_eraseFacts {us : List Uid} (hs : Rest s) :
    Safe cfg (eraseFacts us) s fun _ s' => Rest s' ∧ ∀ u ∈ s.uids, u ∉ us → u ∈ s'.uids := by
  refine Fallible.wp_bind.2 (safe_write hs.toCoherent (fun _ => rfl) fun e => ?_)
  refine safe_write hs.toCoherent.deleteFacts (fun _ => rfl) fun e' => ⟨?_, fun u hu hus => ?_⟩
  · refine hs.toCoherent.deleteFacts.deleteEdgesFor (fun u hu => ?_) fun u hu => ?_
    · simpa [FactStore.deleteFacts, hs.settled] using hu
    · exact List.mem_append_right _ hu
  · change u ∈ (s.deleteFacts us true).uids
    exact mem_uids_deleteFacts.2 ⟨hu, hus⟩

theorem safe_removeEdge {a b : Uid} (hs : Rest s) :
    Safe cfg (removeEdge a b) s fun _ s' => Rest s' ∧ s'.uids = s.uids :=
  safe_write hs.toCoherent (fun _ => rfl) fun _ => ⟨hs.deleteEdge, rfl⟩

/-- Evicting an edge leaves some of the edges. -/
theorem safe_evictOldest {es : List (Edge Uid)} {v : Uid} (hs : Rest s) :
    Safe cfg (evictOldest es v) s fun _ s' => Rest s' ∧ s'.uids = s.uids ∧
      s'.edges = evict degreeCap es v s.edges := by
  unfold evictOldest evict
  split
  · rename_i p h
    rw [h]
    exact safe_write hs.toCoherent (fun _ => rfl) fun _ => ⟨hs.deleteEdge, rfl, rfl⟩
  · rename_i h
    rw [h]
    exact Fallible.wp_pure.2 ⟨hs, rfl, rfl⟩

theorem safe_writeEdge {p : Uid × Uid} (hs : Rest s) (hlt : p.1 < p.2) (ha : p.1 ∈ s.uids)
    (hb : p.2 ∈ s.uids) :
    Safe cfg (writeEdge p s.edges) s fun _ s' => Rest s' ∧ s'.uids = s.uids := by
  unfold writeEdge
  split_ifs with hany
  · exact Fallible.wp_pure.2 ⟨hs, rfl⟩
  have hnew : ∀ e ∈ s.edges, e.ends ≠ p := by simpa using hany
  refine Fallible.wp_bind.2 ((safe_evictOldest hs).mono ?_)
  rintro _ s₁ ⟨hs₁, huids₁, hedges₁⟩
  refine Fallible.wp_bind.2 ((safe_evictOldest hs₁).mono ?_)
  rintro _ s₂ ⟨hs₂, huids₂, hedges₂⟩
  have huids : s₂.uids = s.uids := huids₂.trans huids₁
  refine safe_write hs₂.toCoherent (fun _ => rfl) fun e => ⟨?_, huids⟩
  refine hs₂.insertEdge (huids ▸ ha) (huids ▸ hb) ?_
  rw [hedges₂, hedges₁]
  exact Simple.replace (e := ⟨p.1, p.2, e.now⟩) (by decide) hs.simple hlt hnew

theorem safe_addEdge {a b : Uid} (hs : Rest s) (ha : a ∈ s.uids) (hb : b ∈ s.uids) :
    Safe cfg (addEdge a b) s fun _ s' => Rest s' ∧ s'.uids = s.uids := by
  unfold addEdge
  split_ifs with hab
  · exact Fallible.wp_pure.2 ⟨hs, rfl⟩
  refine Fallible.wp_bind.2 (safe_read hs (fun _ => rfl) fun e hsteady => ?_)
  have hread : s.edges.take rowLimit = s.edges :=
    List.take_of_length_le (of_decide_eq_true (Bool.and_eq_true_iff.1 hsteady).2)
  rw [hread]
  have hends : (pair a b).1 ∈ s.uids ∧ (pair a b).2 ∈ s.uids := by
    obtain h | h := pair_cases a b <;> rw [h]
    · exact ⟨ha, hb⟩
    · exact ⟨hb, ha⟩
  exact safe_writeEdge hs (pair_lt hab) hends.1 hends.2

theorem safe_neighborsOf {u : Uid} (hs : Rest s) :
    Safe cfg (neighborsOf u) s fun us s' => s' = s ∧ us.Nodup ∧ u ∉ us ∧
      (us ≠ [] → u ∈ s.uids) := by
  refine Fallible.wp_bind.2 (safe_read hs (fun _ => rfl) fun e _ => ?_)
  have hsimple := hs.simple.of_sublist (List.take_sublist rowLimit s.edges)
  refine Fallible.wp_pure.2 ⟨rfl, hsimple.nodup_neighbors u, fun hu => ?_, fun hne => ?_⟩
  · exact hsimple.ne_of_mem_neighbors hu rfl
  · obtain ⟨v, hv⟩ := List.exists_mem_of_ne_nil _ hne
    obtain ⟨e, he, h⟩ := mem_neighbors.1 hv
    obtain ⟨ha, hb⟩ := hs.joined e (List.mem_of_mem_take he)
    obtain ⟨rfl, -⟩ | ⟨-, rfl, -⟩ := h
    · exact hs.present_iff.1 ha
    · exact hs.present_iff.1 hb

theorem safe_fetchFacts {us : List Uid} (hs : Rest s) :
    Safe cfg (fetchFacts us) s fun fs s' => s' = s ∧ (fs.map Fact.uid).Sublist us ∧
      ∀ f ∈ fs, f.uid ∈ s.uids := by
  induction us with
  | nil => exact ⟨rfl, List.Sublist.slnil, fun _ hf => absurd hf List.not_mem_nil⟩
  | cons u us ih =>
    refine Fallible.wp_bind.2 ((safe_getFact hs).mono ?_)
    rintro r s₁ ⟨rfl, hr⟩
    refine Fallible.wp_bind.2 (ih.mono ?_)
    rintro fs s₂ ⟨rfl, hsub, hfs⟩
    refine Fallible.wp_pure.2 ⟨rfl, ?_, fun f hf => ?_⟩
    · cases r with
      | none => exact hsub.cons u
      | some f =>
        rw [List.map_append, Option.toList_some, List.map_singleton, (hr f rfl).1]
        exact hsub.cons_cons u
    · obtain hf | hf := List.mem_append.1 hf
      · obtain ⟨huid, hmem⟩ := hr f (by simpa using hf)
        rwa [huid]
      · exact hfs f hf

/-! ### Propagation -/

/-- Carrying out one decision removes the neighbour it is about, or nothing. -/
theorem safe_applyAction {anchor target : Uid} {action : String} {contents : Json} (hs : Rest s)
    (hrel : action = "RELATE" → anchor ∈ s.uids ∧ target ∈ s.uids) :
    Safe cfg (applyAction anchor target action contents) s fun _ s' =>
      Rest s' ∧ ∀ u ∈ s.uids, (action = "REMOVE" → u ≠ target) → u ∈ s'.uids := by
  unfold applyAction
  split_ifs with hremove hunrelate hrelate hupdate
  · refine (safe_eraseFacts hs).mono ?_
    rintro _ s' ⟨hs', hkept⟩
    exact ⟨hs', fun u hu hne => hkept u hu (by simpa using hne hremove)⟩
  · refine (safe_removeEdge hs).mono ?_
    rintro _ s' ⟨hs', huids⟩
    exact ⟨hs', fun u hu _ => huids ▸ hu⟩
  · refine (safe_addEdge hs (hrel hrelate).1 (hrel hrelate).2).mono ?_
    rintro _ s' ⟨hs', huids⟩
    exact ⟨hs', fun u hu _ => huids ▸ hu⟩
  · cases contents with
    | str contents =>
      refine Fallible.wp_bind.2 ((safe_embed hs).mono ?_)
      rintro _ s₁ rfl
      refine (safe_updateFact hs).mono ?_
      rintro _ s' ⟨hs', hkept⟩
      exact ⟨hs', fun u hu _ => hkept u hu⟩
    | _ => exact Fallible.wp_throw.2 hs
  · exact Fallible.wp_pure.2 ⟨hs, fun _ hu _ => hu⟩

/-- A number in range names a fact. -/
theorem pick_eq (xs : List α) (j : Json) :
    pick xs j = none ∧ placeOf xs.length j = none ∨
      ∃ i x, placeOf xs.length j = some i ∧ xs[i]? = some x ∧ pick xs j = some x := by
  unfold pick
  cases h : placeOf xs.length j with
  | none => exact .inl ⟨rfl, rfl⟩
  | some i =>
    have hi : i < xs.length := by
      obtain ⟨n, -, hn⟩ := Option.bind_eq_some_iff.1 h
      split_ifs at hn with hrange
      obtain rfl := Option.some.inj hn
      omega
    exact .inr ⟨i, xs[i], rfl, List.getElem?_eq_getElem hi, by simp [hi]⟩

theorem mem_of_pick {xs : List α} {j : Json} {x : α} (h : pick xs j = some x) : x ∈ xs := by
  obtain ⟨h', -⟩ | ⟨i, y, -, hy, h'⟩ := pick_eq xs j
  · cases h'.symm.trans h
  · cases h'.symm.trans h
    exact List.mem_of_getElem? hy

/-- **The decisions about the neighbours of a fact** leave the tables at rest, if none relates a
neighbour that is removed.  The induction is on the decisions; the neighbours that are not removed
yet are stored, and so is the fact itself, which is none of them. -/
theorem safe_applyDecisions {anchor : Uid} {ns : List Fact} {removed : List ℕ} {ds : List Json}
    (hs : Rest s) (hnodup : (ns.map Fact.uid).Nodup) (hnot : anchor ∉ ns.map Fact.uid)
    (hanchor : anchor ∈ s.uids)
    (hns : ∀ i f, ns[i]? = some f → i ∉ removed → f.uid ∈ s.uids)
    (hsane : sane cfg ns.length removed ds = true) :
    Safe cfg (applyDecisions cfg anchor ns ds) s fun _ s' => Rest s' := by
  induction ds generalizing s removed with
  | nil => exact hs
  | cons d ds ih =>
    cases d with
    | obj d =>
      refine Fallible.wp_bind.2 ?_
      simp only [sane] at hsane
      obtain ⟨hpick, hplace⟩ | ⟨i, target, hplace, hi, hpick⟩ :=
        pick_eq ns (field d "fact_number")
      · simp only [hplace] at hsane
        simp only [applyDecision, hpick]
        exact Fallible.wp_pure.2 (ih hs hanchor hns hsane)
      simp only [hplace] at hsane
      simp only [applyDecision, hpick]
      have hmem : target.uid ∈ ns.map Fact.uid := List.mem_map_of_mem (List.mem_of_getElem? hi)
      refine Fallible.Wp.mono (safe_applyAction hs fun hrelate => ⟨hanchor, ?_⟩) ?_
      · simp only [hrelate, String.reduceEq, if_false, true_and] at hsane
        split_ifs at hsane with hremoved
        exact hns i target hi hremoved
      rintro _ s₁ ⟨hs₁, hkept⟩
      have hanchor₁ : anchor ∈ s₁.uids := hkept anchor hanchor fun _ heq => hnot (heq ▸ hmem)
      by_cases hremove : cfg.action (field d "action") = "REMOVE"
      · rw [if_pos hremove] at hsane
        refine ih hs₁ hanchor₁ (fun j f hj hnotin => ?_) hsane
        obtain ⟨hne, hnotin⟩ := not_or.1 (mt List.mem_cons.2 hnotin)
        refine hkept _ (hns j f hj hnotin) fun _ heq => hne ?_
        -- The neighbours have different names, so a number names the removed one only.
        have hj' : (ns.map Fact.uid)[j]? = (ns.map Fact.uid)[i]? := by
          rw [List.getElem?_map, List.getElem?_map, hj, hi, Option.map_some, Option.map_some, heq]
        exact (List.getElem?_inj (by grind) hnodup).1 hj'
      · rw [if_neg hremove] at hsane
        refine ih hs₁ hanchor₁ (fun j f hj hnotin => ?_) (by split_ifs at hsane; exact hsane)
        exact hkept _ (hns j f hj hnotin) fun h => absurd h hremove
    | _ => exact Fallible.wp_bind.2 (Fallible.wp_throw.2 hs)

theorem safe_consult {phase : Phase} {anchor : Uid} {ns : List Fact} (hs : Rest s)
    (hnodup : (ns.map Fact.uid).Nodup) (hnot : anchor ∉ ns.map Fact.uid)
    (hanchor : anchor ∈ s.uids) (hns : ∀ f ∈ ns, f.uid ∈ s.uids) :
    Safe cfg (consult cfg phase anchor ns) s fun _ s' => Rest s' := by
  refine Fallible.wp_bind.2 ((safe_getFact hs).mono ?_)
  rintro row s₁ ⟨rfl, -⟩
  refine Fallible.wp_bind.2 (safe_read hs (fun _ => rfl) fun e hsteady => ?_)
  have hsane : saneAnswer cfg ns.length e.object = true := (Bool.and_eq_true_iff.1 hsteady).2
  unfold saneAnswer at hsane
  split
  · rename_i ds hds
    rw [hds] at hsane
    exact safe_applyDecisions hs hnodup hnot hanchor
      (fun i f hi _ => hns f (List.mem_of_getElem? hi)) hsane
  · exact Fallible.wp_throw.2 hs

theorem safe_propagate {phase : Phase} {anchor : Uid} (hs : Rest s) :
    Safe cfg (propagate cfg phase anchor) s fun _ s' => Rest s' := by
  refine Fallible.wp_bind.2 ((safe_neighborsOf hs).mono ?_)
  rintro us s₁ ⟨rfl, hnodup, hnot, hanchor⟩
  split_ifs with hus
  · exact Fallible.wp_pure.2 hs
  refine Fallible.wp_bind.2 ((safe_fetchFacts hs).mono ?_)
  rintro ns s₂ ⟨rfl, hsub, hns⟩
  split_ifs
  · exact Fallible.wp_pure.2 hs
  · exact safe_consult hs (hnodup.sublist hsub) (fun h => hnot (hsub.subset h)) (hanchor hus) hns

/-- What goes wrong in a propagation leaves the tables at rest as well. -/
theorem safe_propagateAll {phase : Phase} {us : List Uid} (hs : Rest s) :
    Safe cfg (Fallible.lift (propagateAll cfg phase us)) s fun _ s' => Rest s' := by
  refine Fallible.wp_lift.2 ?_
  induction us generalizing s with
  | nil => exact hs
  | cons u us ih =>
    refine Prog.wp_bind.2 (Prog.Wp.mono (safe_propagate hs) fun x s' hx => ?_)
    cases x with
    | ok => exact ih hx
    | error => exact ih hx

/-! ### Reconciliation -/

/-- A decision names facts that were numbered. -/
theorem Decision.decode_spec {item : Item} {cands : List Uid} {answer : Object} {d : Decision}
    (h : Decision.decode cfg item cands answer = some d) :
    (∀ r ∈ d.related, r ∈ cands) ∧ ∀ t, d.target = some t → t ∈ cands := by
  obtain ⟨content, -, h⟩ := Option.bind_eq_some_iff.1 h
  obtain ⟨kind, -, h⟩ := Option.bind_eq_some_iff.1 h
  obtain ⟨related, -, h⟩ := Option.bind_eq_some_iff.1 h
  obtain rfl := Option.some.inj h
  refine ⟨fun r hr => ?_, fun t ht => mem_of_pick ht⟩
  obtain ⟨j, -, hj⟩ := List.mem_filterMap.1 hr
  exact mem_of_pick hj

theorem safe_placeFact {d : Decision} (hs : Rest s) (htarget : ∀ t, d.target = some t → t ∈ s.uids) :
    Safe cfg (placeFact d) s fun r s' =>
      Rest s' ∧ r.1 ∈ s'.uids ∧ ∀ u ∈ s.uids, u ∈ s'.uids := by
  unfold placeFact
  split
  · rename_i t ht
    have ht : t ∈ s.uids := htarget t (by split_ifs at ht; exact ht)
    refine Fallible.wp_bind.2 ((safe_embed hs).mono ?_)
    rintro _ s₁ rfl
    refine Fallible.wp_bind.2 ((safe_updateFact hs).mono ?_)
    rintro _ s₂ ⟨hs₂, hkept⟩
    exact Fallible.wp_pure.2 ⟨hs₂, hkept t ht, hkept⟩
  · refine Fallible.wp_bind.2 ((safe_embed hs).mono ?_)
    rintro _ s₁ rfl
    refine Fallible.wp_bind.2 ((safe_insertFact hs).mono ?_)
    rintro u s₂ h
    exact Fallible.wp_pure.2 h

theorem safe_relateAll {anchor : Uid} {rs : List Uid} (hs : Rest s) (hanchor : anchor ∈ s.uids)
    (hrs : ∀ r ∈ rs, r ∈ s.uids) : Safe cfg (relateAll anchor rs) s fun _ s' => Rest s' := by
  induction rs generalizing s with
  | nil => exact hs
  | cons r rs ih =>
    refine Fallible.wp_bind.2 ((safe_addEdge hs hanchor (hrs r List.mem_cons_self)).mono ?_)
    rintro _ s₁ ⟨hs₁, huids⟩
    exact ih hs₁ (huids ▸ hanchor) fun r' hr' => huids ▸ hrs r' (List.mem_cons_of_mem _ hr')

theorem safe_settleItem {d : Decision} (hs : Rest s) (hrelated : ∀ r ∈ d.related, r ∈ s.uids)
    (htarget : ∀ t, d.target = some t → t ∈ s.uids) :
    Safe cfg (settleItem d) s fun _ s' => Rest s' := by
  unfold settleItem
  split
  · refine Fallible.wp_bind.2 ((safe_eraseFacts hs).mono ?_)
    rintro _ s₁ ⟨hs₁, -⟩
    exact Fallible.wp_pure.2 hs₁
  · refine Fallible.wp_bind.2 ((safe_placeFact hs htarget).mono ?_)
    rintro r s₁ ⟨hs₁, hanchor, hkept⟩
    refine Fallible.wp_bind.2 (Fallible.Wp.mono
      (safe_relateAll hs₁ hanchor fun r hr => hkept r (hrelated r hr)) ?_)
    exact fun _ s₂ hs₂ => Fallible.wp_pure.2 hs₂

theorem safe_reconcileItem {item : Item} (hs : Rest s) :
    Safe cfg (reconcileItem cfg item) s fun _ s' => Rest s' := by
  refine Fallible.wp_bind.2 ((safe_embed hs).mono ?_)
  rintro _ s₁ rfl
  refine Fallible.wp_bind.2 (safe_read hs (fun _ => rfl) fun e _ => ?_)
  generalize hcands : (List.filterMap _ _).take cfg.candidates = cands
  have hmem : ∀ u ∈ cands.map Fact.uid, u ∈ s₁.uids := by
    intro u hu
    obtain ⟨f, hf, rfl⟩ := List.mem_map.1 hu
    rw [← hcands] at hf
    obtain ⟨v, -, hv⟩ := List.mem_filterMap.1 (List.mem_of_mem_take hf)
    exact List.mem_map_of_mem (List.mem_of_find?_eq_some hv)
  refine Fallible.wp_bind.2 (safe_read hs (fun _ => rfl) fun e' _ => ?_)
  split
  · rename_i d hd
    obtain ⟨hrelated, htarget⟩ := Decision.decode_spec hd
    exact safe_settleItem hs (fun r hr => hmem r (hrelated r hr)) fun t ht => hmem t (htarget t ht)
  · exact Fallible.wp_throw.2 hs

theorem safe_reconcile {items : List Item} (hs : Rest s) :
    Safe cfg (reconcile cfg items) s fun _ s' => Rest s' := by
  induction items generalizing s with
  | nil => exact hs
  | cons item items ih =>
    refine Fallible.wp_bind.2 ((safe_reconcileItem hs).mono fun first s₁ hs₁ => ?_)
    refine Fallible.wp_bind.2 ((ih hs₁).mono fun rest s₂ hs₂ => ?_)
    exact Fallible.wp_pure.2 hs₂

theorem safe_reconcileAndStore {items : List Item} (hs : Rest s) :
    Safe cfg (reconcileAndStore cfg items) s fun _ s' => Rest s' := by
  refine Fallible.wp_bind.2 ((safe_reconcile hs).mono fun anchors s₁ hs₁ => ?_)
  refine Fallible.wp_bind.2 ((safe_propagateAll hs₁).mono fun _ s₂ hs₂ => ?_)
  exact safe_propagateAll hs₂

/-! ### The modes -/

theorem safe_runMemoryAdd {userPrompt assistantResponse : String} (hs : Rest s) :
    Safe cfg (runMemoryAdd cfg userPrompt assistantResponse) s fun _ s' => Rest s' := by
  refine Fallible.wp_bind.2 (safe_read hs (fun _ => rfl) fun e _ => ?_)
  refine Fallible.wp_bind.2 (safe_read hs (fun _ => rfl) fun e' _ => ?_)
  split
  · split_ifs
    · exact Fallible.wp_pure.2 hs
    · exact safe_reconcileAndStore hs
  · exact Fallible.wp_throw.2 hs

theorem safe_runMemoryManualAdd {fact kind : String} (hs : Rest s) :
    Safe cfg (runMemoryManualAdd cfg fact kind) s fun _ s' => Rest s' := by
  unfold runMemoryManualAdd
  split
  · exact Fallible.wp_pure.2 hs
  · exact Fallible.wp_bind.2 ((safe_reconcileAndStore hs).mono fun _ s₁ hs₁ => Fallible.wp_pure.2 hs₁)

theorem safe_runMemoryDelete {uid : Uid} (hs : Rest s) :
    Safe cfg (runMemoryDelete uid) s fun _ s' => Rest s' := by
  refine Fallible.wp_bind.2 ((safe_getFact hs).mono ?_)
  rintro (_ | f) s₁ ⟨rfl, -⟩
  · exact Fallible.wp_pure.2 hs
  · exact Fallible.wp_bind.2 ((safe_eraseFacts hs).mono fun _ s₂ h => Fallible.wp_pure.2 h.1)

theorem safe_gcFacts {horizon : ℕ} (hs : Rest s) :
    Safe cfg (gcFacts horizon) s fun _ s' => Rest s' := by
  refine Fallible.wp_bind.2 (safe_now hs.toCoherent fun t => ?_)
  refine Fallible.wp_bind.2 (safe_read hs (fun _ => rfl) fun e _ => ?_)
  dsimp only
  split_ifs
  · exact Fallible.wp_pure.2 hs
  · exact Fallible.wp_bind.2 ((safe_eraseFacts hs).mono fun _ s₂ h => Fallible.wp_pure.2 h.1)

theorem safe_task {c : MemoryCall} (hs : Rest s) :
    Safe cfg (c.task cfg) s fun _ s' => Rest s' := by
  cases c with
  | add => exact Fallible.wp_bind.2 ((safe_runMemoryAdd hs).mono fun _ s₁ h => Fallible.wp_pure.2 h)
  | manualAdd =>
    exact Fallible.wp_bind.2 ((safe_runMemoryManualAdd hs).mono fun _ s₁ h => Fallible.wp_pure.2 h)
  | delete =>
    exact Fallible.wp_bind.2 ((safe_runMemoryDelete hs).mono fun _ s₁ h => Fallible.wp_pure.2 h)
  | gc => exact Fallible.wp_bind.2 ((safe_gcFacts hs).mono fun _ s₁ h => Fallible.wp_pure.2 h)

end

/-! ### Every sequence of calls -/

/-- A call leaves the tables at rest, wherever it is interrupted. -/
theorem rest_of_solo {cfg : MemoryConfig} {c : MemoryCall} {s s' : FactStore}
    {x : Option (Except Unit MemoryReply)} (hs : Rest s)
    (h : Solo ((memory cfg).restrict (FactAct.steady cfg)) ((memory cfg).body c) s x s') :
    Rest s' := by
  have hprobe {e : FactEnv} {s s₁ : FactStore} {b : Bool}
      (he : ((memory cfg).restrict (FactAct.steady cfg)).exec .strike e s = some (s₁, b)) :
      s₁ = s ∧ (b = true → e.calm s = true ∧ e.fails = true) := by
    obtain ⟨hsteady, he⟩ := Machine.restrict_exec.1 he
    obtain ⟨rfl, rfl⟩ := Prod.mk.inj (Option.some.inj he)
    exact ⟨rfl, fun hfails => ⟨steady_calm hsteady, hfails⟩⟩
  obtain ⟨-, hcoh, hcalm⟩ | ⟨a, -, ha⟩ := Prog.Wp.interruptible (H := fun s => s.halfway = [])
    (fun he => ⟨(hprobe he).1, fun hb => by simpa [FactEnv.calm, ((hprobe he).2 hb).2] using
      ((hprobe he).2 hb).1⟩) (safe_task hs) h
  · exact ⟨hcoh, hcalm⟩
  · cases a with
    | ok => exact ha
    | error => exact ha

/-- **The fact graph stays whole.**  Under the condition on the world, whatever the model answers,
whatever fails and wherever a call is interrupted, the tables are intact after every call. -/
theorem graph_intact {cfg : MemoryConfig}
    {ops : List (Performed FactStore MemoryCall (Option (Except Unit MemoryReply)))} {s : FactStore}
    (h : Serial ((memory cfg).restrict (FactAct.steady cfg)) {} ops s) :
    Intact s ∧ ∀ d ∈ ops, Intact d.before ∧ Intact d.after := by
  obtain ⟨hs, hall⟩ := h.invariant (P := fun _ => True) Rest.empty (fun _ _ => trivial)
    fun d hd _ hbefore => rest_of_solo hbefore hd
  exact ⟨hs.intact, fun d hd => ⟨(hall d hd).1.intact, (hall d hd).2.intact⟩⟩

namespace Sample

/-- Statements that nothing strikes. -/
def unstruck (es : List FactEnv) : List FactEnv := es.flatMap fun e => [{}, e]

/-- So many statements that do not fail. -/
def plain (n : ℕ) : List FactEnv := List.replicate n {}

def first : MemoryCall × List FactEnv :=
  (.manualAdd "likes tea" "preference", unstruck (plain 4 ++ { uid := 1 } :: plain 2))

/-- A second fact is stored and related to the first; `object` is what the model decides about the
neighbours, and `n` statements carry it out. -/
def second (object : Object) (n : ℕ) : MemoryCall × List FactEnv :=
  (.manualAdd "likes cake" "preference", unstruck (plain 1 ++ { hits := [1] } ::
    { object := [("related", .arr [.int 1])] } :: plain 1 ++ { uid := 2 } :: plain 7 ++
    { object := object } :: plain n))

/-- The model decides to remove the neighbour. -/
def removing : Json := .obj [("action", .str "REMOVE"), ("fact_number", .int 1)]

/-- The model decides to relate the neighbour. -/
def relating : Json := .obj [("action", .str "RELATE"), ("fact_number", .int 1)]

/-- The first fact is updated; an interruption strikes once its row is deleted. -/
def interrupted : MemoryCall × List FactEnv :=
  (.manualAdd "likes green tea" "preference", unstruck (plain 1 ++ { hits := [1] } ::
    { object := [("action", .str "UPDATE"), ("fact_number", .int 1)] } :: plain 3) ++
    [{ fails := true }])

end Sample

/-- A fact that is stored and related to another. -/
theorem graph_intact_of_related : ∃ ops s,
    Serial ((memory {}).restrict (FactAct.steady {})) {} ops s ∧ s.uids = [1, 2] ∧
    s.edges.map Edge.ends = [(1, 2)] ∧ Intact s := by
  have hplay : (((memory {}).restrict (FactAct.steady {})).playAll {} [Sample.first,
      Sample.second [("decisions", .arr [Sample.relating])] 1]).map
        (fun r => (r.2.uids, r.2.edges.map Edge.ends)) = some ([1, 2], [(1, 2)]) := by
    decide +kernel
  obtain ⟨⟨ops, s⟩, hops, hend⟩ := Option.map_eq_some_iff.1 hplay
  obtain ⟨huids, hedges⟩ := Prod.mk.inj hend
  have hrun := Serial.of_playAll .nil hops
  exact ⟨ops, s, hrun, huids, hedges, (graph_intact hrun).1⟩

/-- Without the condition the tables are not intact.  An answer removes a fact and relates it, and
an edge leads nowhere; an update is interrupted halfway, and the fact is lost. -/
theorem removed_then_related :
    (∃ ops s, Serial (memory {}) {} ops s ∧ s.uids = [2] ∧ s.edges.map Edge.ends = [(1, 2)] ∧
      ¬ Intact s) ∧
    ∃ ops s, Serial (memory {}) {} ops s ∧ 1 ∈ s.known ∧ s.removed = [] ∧ s.uids = [] ∧
      ¬ Intact s := by
  constructor
  · have hplay : ((memory {}).playAll {} [Sample.first,
        Sample.second [("decisions", .arr [Sample.removing, Sample.relating])] 4]).map
          (fun r => (r.2.uids, r.2.edges.map Edge.ends)) = some ([2], [(1, 2)]) := by
      decide +kernel
    obtain ⟨⟨ops, s⟩, hops, hend⟩ := Option.map_eq_some_iff.1 hplay
    obtain ⟨huids, hedges⟩ := Prod.mk.inj hend
    refine ⟨ops, s, Serial.of_playAll .nil hops, huids, hedges, fun hs => ?_⟩
    obtain ⟨e, he, hends⟩ : ∃ e ∈ s.edges, e.ends = (1, 2) :=
      List.mem_map.1 (hedges ▸ List.mem_singleton.2 rfl)
    have ha : e.a = 1 := (Prod.mk.inj hends).1
    have := (hs.joined e he).1
    rw [huids, ha] at this
    exact absurd this (by decide)
  · have hplay : ((memory {}).playAll {} [Sample.first, Sample.interrupted]).map
        (fun r => (decide (1 ∈ r.2.known), r.2.removed, r.2.uids)) = some (true, [], []) := by
      decide +kernel
    obtain ⟨⟨ops, s⟩, hops, hend⟩ := Option.map_eq_some_iff.1 hplay
    obtain ⟨hknown, hend⟩ := Prod.mk.inj hend
    obtain ⟨hremoved, huids⟩ := Prod.mk.inj hend
    have hknown : 1 ∈ s.known := of_decide_eq_true hknown
    refine ⟨ops, s, Serial.of_playAll .nil hops, hknown, hremoved, huids, fun hs => ?_⟩
    have := hs.lasting 1 hknown
    rw [huids, hremoved] at this
    simp at this

end Backplane.Memory
