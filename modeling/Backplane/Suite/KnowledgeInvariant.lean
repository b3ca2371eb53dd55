import Backplane.Suite.Knowledge
import Mathlib.Data.List.Nodup

/-!
# What holds of the knowledge base while calls are running

* `Coherent` : what the tables are to satisfy when no call is running.
* `KbInv` : what holds meanwhile: what is pending makes up for the difference.
* `KbInv.coherent` : when nothing is pending the tables are coherent.
* `KbInv.addDoc`, `KbInv.addChunks`, … : what each statement needs to keep it.
-/

namespace Backplane.Knowledge

open Concur Prog Deferred

/-! ### What the tables satisfy -/

/-- The tables are as they should be. -/
structure Coherent (s : KbStore) : Prop where
  /-- No two documents have the same hash. -/
  hashes : (s.docs.map Doc.sha256).Nodup
  /-- Every document has all of its chunks. -/
  complete : ∀ d ∈ s.docs, (s.chunksOf d.docId).map (fun c => (c.chunkIndex, c.content)) =
    d.parts.mapIdx fun i content => (i, content)
  /-- Every chunk belongs to a document. -/
  owned : ∀ c ∈ s.chunks, ∃ d ∈ s.docs, d.docId = c.docId
  /-- A chunk repeats the collection, the title and the tags of its document. -/
  stamped : ∀ c ∈ s.chunks, ∀ d ∈ s.docs, d.docId = c.docId → c.toMeta = d.toMeta

namespace Pending

/-- It inserts chunks of this document. -/
def inserts (d : DocId) : Pending → Prop
  | insert d' _ _ => d' = d
  | _ => False

/-- It erases this document. -/
def erases (d : DocId) : Pending → Prop
  | erase ds => d ∈ ds
  | _ => False

/-- It is about this document. -/
def about (d : DocId) : Pending → Prop
  | insert d' _ _ | stamp d' _ => d' = d
  | erase ds => d ∈ ds

/-- What it makes of what the chunks of a document repeat; `none`: there are none yet. -/
def onMeta (d : DocId) : Pending → Option Meta → Option Meta
  | insert d' _ m, o => if d' = d then some m else o
  | stamp d' v, o => if d' = d then o.map v.apply else o
  | erase _, o => o

end Pending

/-- The name of a document that is there. -/
def KbStore.Holds (s : KbStore) (d : DocId) : Prop := d ∈ s.docs.map Doc.docId

/-- The chunks of the document are gone, and the document is to follow. -/
def KbStore.Erasing (s : KbStore) (d : DocId) : Prop := ∃ x ∈ s.pending, x.2.erases d

/-- What is pending makes up for the difference between the documents and the chunks. -/
structure KbInv (s : KbStore) : Prop where
  /-- No name is given twice. -/
  ids : (s.docs.map Doc.docId).Nodup
  /-- No two documents have the same hash. -/
  hashes : (s.docs.map Doc.sha256).Nodup
  /-- A hash that was looked for is still new. -/
  looked : ∀ x ∈ s.looked, x.2 ∉ s.docs.map Doc.sha256
  used : ∀ d, s.Holds d → d ∈ s.used
  /-- What is pending is about names that are used. -/
  named : ∀ x ∈ s.pending, ∀ d, x.2.about d → d ∈ s.used
  /-- Nothing about a document comes before the insertion of its chunks. -/
  first : s.pending.Pairwise fun x y => ∀ d, y.2.inserts d → ¬ x.2.about d
  /-- A document that is not there, or is to go, has no chunks. -/
  gone : ∀ d, ¬ s.Holds d ∨ s.Erasing d → s.chunksOf d = []
  /-- Nor will it get any. -/
  closed : ∀ d, ¬ s.Holds d ∨ s.Erasing d → ∀ x ∈ s.pending, ¬ x.2.inserts d
  /-- The chunks that are to be inserted are not there, and are those of the document. -/
  blank : ∀ x ∈ s.pending, ∀ d parts m, x.2 = .insert d parts m →
    s.chunksOf d = [] ∧ ∀ row ∈ s.docs, row.docId = d → row.parts = parts
  /-- Once what is pending is done the chunks are those of the document. -/
  synced : ∀ row ∈ s.docs, ¬ s.Erasing row.docId →
    ∃ o : Option Meta, s.chunksOf row.docId = o.elim [] (rowsOf row.docId row.parts) ∧
      settle (Pending.onMeta row.docId) s.pending o = some row.toMeta

section

variable {s : KbStore} {n : ℕ} {d d' : DocId} {p : Pending} {x : ℕ × Pending} {o : Option Meta}
  {parts : List String} {m : Meta} {v : Changes} {ds : List DocId}

theorem Pending.about_of_inserts (h : p.inserts d) : p.about d := by
  cases p with
  | insert => exact h
  | _ => exact h.elim

theorem Pending.about_of_erases (h : p.erases d) : p.about d := by
  cases p with
  | erase => exact h
  | _ => exact h.elim

theorem Pending.onMeta_of_not_about (h : ¬ p.about d) : p.onMeta d o = o := by
  cases p with
  | insert => exact if_neg h
  | stamp => exact if_neg h
  | erase => rfl

theorem mem_chunksOf {c : Chunk} : c ∈ s.chunksOf d ↔ c ∈ s.chunks ∧ c.docId = d := by
  simp [KbStore.chunksOf]

theorem docId_of_mem_rowsOf {c : Chunk} (h : c ∈ rowsOf d parts m) : c.docId = d := by
  obtain ⟨i, hi, rfl⟩ := List.mem_mapIdx.1 h
  rfl

theorem Changes.apply_of_not_stamps (h : v.stamps = false) : v.apply m = m := by
  obtain ⟨_ | _, _ | _, _ | _, _⟩ := v <;> first | rfl | cases h

theorem KbInv.empty : KbInv {} where
  ids := List.nodup_nil
  hashes := List.nodup_nil
  looked _ hx := absurd hx List.not_mem_nil
  used _ hd := absurd hd List.not_mem_nil
  named _ hx := absurd hx List.not_mem_nil
  first := .nil
  gone _ _ := rfl
  closed _ _ _ hx := absurd hx List.not_mem_nil
  blank _ hx := absurd hx List.not_mem_nil
  synced _ hrow := absurd hrow List.not_mem_nil

/-- **When nothing is pending the tables are coherent.** -/
theorem KbInv.coherent (h : KbInv s) (hnone : s.pending = []) : Coherent s := by
  have herasing (d : DocId) : ¬ s.Erasing d := by
    rintro ⟨x, hx, -⟩
    rw [hnone] at hx
    exact absurd hx List.not_mem_nil
  have hrows (row : Doc) (hrow : row ∈ s.docs) :
      s.chunksOf row.docId = rowsOf row.docId row.parts row.toMeta := by
    obtain ⟨o, hchunks, hsettle⟩ := h.synced row hrow (herasing _)
    rw [hnone] at hsettle
    obtain rfl : o = some row.toMeta := hsettle
    exact hchunks
  refine ⟨h.hashes, fun row hrow => ?_, fun c hc => ?_, fun c hc row hrow heq => ?_⟩
  · rw [hrows row hrow, rowsOf]
    exact List.ext_getElem (by simp) fun i hi _ => by simp
  · by_contra hno
    have hout : ¬ s.Holds c.docId := fun hin => hno (List.mem_map.1 hin)
    have hmem : c ∈ s.chunksOf c.docId := mem_chunksOf.2 ⟨hc, rfl⟩
    rw [h.gone _ (.inl hout)] at hmem
    exact absurd hmem List.not_mem_nil
  · have hmem : c ∈ s.chunksOf row.docId := mem_chunksOf.2 ⟨hc, heq.symm⟩
    rw [hrows row hrow] at hmem
    obtain ⟨i, hi, rfl⟩ := List.mem_mapIdx.1 hmem
    rfl

/-! ### What each statement does to them -/

/-- A scan that reads every document tells whether a hash is new. -/
theorem KbInv.look {sha : Option String} (h : KbInv s)
    (hall : sha.isSome = true → s.docs.length ≤ scanLimit) : KbInv (s.look n sha) := by
  unfold KbStore.look
  split
  · rename_i hash
    split_ifs with hmem
    · exact h
    · have hscan : s.scan = s.docs := List.take_of_length_le (hall rfl)
      rw [hscan] at hmem
      refine ⟨h.ids, h.hashes, fun x hx => ?_, h.used, h.named, h.first, h.gone, h.closed, h.blank,
        h.synced⟩
      obtain rfl | hx := List.mem_cons.1 hx
      · exact hmem
      · exact h.looked x hx
  · exact h

theorem KbInv.addDoc {row : Doc} (h : KbInv s) (hid : row.docId ∉ s.used)
    (hsha : row.sha256 ∉ s.docs.map Doc.sha256) : KbInv (s.addDoc n row) := by
  have hholds (d : DocId) : (s.addDoc n row).Holds d ↔ s.Holds d ∨ d = row.docId := by
    simp [KbStore.Holds, KbStore.addDoc]
  have hnot : ¬ s.Holds row.docId := fun hd => hid (h.used _ hd)
  have hnew (x : ℕ × Pending) (hx : x ∈ s.pending) : ¬ x.2.about row.docId :=
    fun ha => hid (h.named x hx _ ha)
  have herasing (d : DocId) : (s.addDoc n row).Erasing d ↔ s.Erasing d := by
    simp only [KbStore.Erasing, KbStore.addDoc, List.mem_append, List.mem_singleton]
    constructor
    · rintro ⟨x, hx | rfl, he⟩
      · exact ⟨x, hx, he⟩
      · exact he.elim
    · rintro ⟨x, hx, he⟩
      exact ⟨x, .inl hx, he⟩
  have hother (d : DocId) (hd : ¬ (s.addDoc n row).Holds d ∨ (s.addDoc n row).Erasing d) :
      d ≠ row.docId ∧ (¬ s.Holds d ∨ s.Erasing d) := by
    rw [hholds, herasing] at hd
    refine ⟨fun heq => ?_, hd.imp_left fun hd hd' => hd (.inl hd')⟩
    obtain hd | ⟨x, hx, he⟩ := hd
    · exact hd (.inr heq)
    · exact hnew x hx (heq ▸ Pending.about_of_erases he)
  refine ⟨?_, ?_, fun x hx => ?_, fun d hd => ?_, fun x hx d hd => ?_, ?_, fun d hd => ?_,
    fun d hd x hx => ?_, fun x hx d parts m hp => ?_, fun row' hrow' he => ?_⟩
  · rw [KbStore.addDoc, List.map_append]
    exact h.ids.append (List.nodup_singleton _) fun d hd hd' =>
      hnot (List.mem_singleton.1 hd' ▸ hd)
  · rw [KbStore.addDoc, List.map_append]
    exact h.hashes.append (List.nodup_singleton _) fun d hd hd' =>
      hsha (List.mem_singleton.1 hd' ▸ hd)
  · obtain ⟨hx, hne⟩ := List.mem_filter.1 hx
    simp only [KbStore.addDoc, List.map_append, List.map_singleton, List.mem_append,
      List.mem_singleton, not_or]
    exact ⟨h.looked x hx, by simpa using hne⟩
  · obtain hd | rfl := (hholds d).1 hd
    · exact List.mem_cons_of_mem _ (h.used d hd)
    · exact List.mem_cons_self
  · obtain hx | hx := List.mem_append.1 hx
    · exact List.mem_cons_of_mem _ (h.named x hx d hd)
    · rw [List.mem_singleton.1 hx] at hd
      exact List.mem_cons.2 (.inl hd.symm)
  · refine List.pairwise_append.2 ⟨h.first, List.pairwise_singleton _ _, fun x hx y hy d hd => ?_⟩
    rw [List.mem_singleton.1 hy] at hd
    obtain rfl : row.docId = d := hd
    exact hnew x hx
  · exact h.gone d (hother d hd).2
  · obtain hx | hx := List.mem_append.1 hx
    · exact h.closed d (hother d hd).2 x hx
    · rw [List.mem_singleton.1 hx]
      exact fun heq => (hother d hd).1 heq.symm
  · obtain hx | hx := List.mem_append.1 hx
    · obtain ⟨hchunks, hparts⟩ := h.blank x hx d parts m hp
      refine ⟨hchunks, fun row' hrow' heq => ?_⟩
      obtain hrow' | hrow' := List.mem_append.1 hrow'
      · exact hparts row' hrow' heq
      · rw [List.mem_singleton.1 hrow'] at heq
        exact absurd (show x.2.about row.docId by rw [hp, heq]; rfl) (hnew x hx)
    · rw [List.mem_singleton.1 hx] at hp
      obtain ⟨rfl, rfl, rfl⟩ := Pending.insert.inj hp
      refine ⟨h.gone _ (.inl hnot), fun row' hrow' heq => ?_⟩
      obtain hrow' | hrow' := List.mem_append.1 hrow'
      · exact absurd (heq ▸ List.mem_map_of_mem hrow') hnot
      · rw [List.mem_singleton.1 hrow']
  · rw [herasing] at he
    obtain hrow' | hrow' := List.mem_append.1 hrow'
    · obtain ⟨o, hchunks, hsettle⟩ := h.synced row' hrow' he
      refine ⟨o, hchunks, ?_⟩
      rw [KbStore.addDoc, settle_snoc, hsettle]
      refine if_neg fun heq => hnot ?_
      exact heq ▸ List.mem_map_of_mem hrow'
    · obtain rfl := List.mem_singleton.1 hrow'
      refine ⟨none, h.gone _ (.inl hnot), ?_⟩
      rw [KbStore.addDoc, settle_snoc]
      exact if_pos rfl

theorem KbInv.addChunks (h : KbInv s) (hp : pendingOf n s.pending = [(n, .insert d parts m)]) :
    KbInv (s.addChunks n d parts m) := by
  have hentry := mem_of_pendingOf hp
  obtain ⟨hblank, hparts⟩ := h.blank _ hentry d parts m rfl
  have hin : s.Holds d ∧ ¬ s.Erasing d := by
    by_contra hno
    rw [not_and_or, not_not] at hno
    exact h.closed d hno _ hentry rfl
  have hsub (x : ℕ × Pending) (hx : x ∈ without n s.pending) : x ∈ s.pending := (mem_without.1 hx).1
  have herasing (d' : DocId) : (s.addChunks n d parts m).Erasing d' ↔ s.Erasing d' := by
    constructor
    · rintro ⟨x, hx, he⟩
      exact ⟨x, hsub x hx, he⟩
    · rintro ⟨x, hx, he⟩
      refine ⟨x, mem_without.2 ⟨hx, fun hn => ?_⟩, he⟩
      rw [eq_of_pendingOf hp hx hn] at he
      exact he
  have hchunks (d' : DocId) : (s.addChunks n d parts m).chunksOf d' =
      s.chunksOf d' ++ if d' = d then rowsOf d parts m else [] := by
    rw [KbStore.chunksOf, KbStore.addChunks, List.filter_append]
    congr 1
    split_ifs with heq
    · exact List.filter_eq_self.2 fun c hc => by simpa [heq] using docId_of_mem_rowsOf hc
    · exact List.filter_eq_nil_iff.2 fun c hc => by
        simpa [docId_of_mem_rowsOf hc] using fun h => heq h.symm
  have hother {d' : DocId} (hd : ¬ s.Holds d' ∨ (s.addChunks n d parts m).Erasing d') : d' ≠ d := by
    rintro rfl
    exact hd.elim (fun hd => hd hin.1) fun hd => hin.2 ((herasing d').1 hd)
  -- No other insertion is about this document.
  have hone (x : ℕ × Pending) (hx : x ∈ without n s.pending) : ¬ x.2.inserts d := by
    obtain ⟨rest, hsplit, hwithout⟩ := split_of_pendingOf hp
    have hfirst := h.first
    rw [hsplit, List.pairwise_append, List.pairwise_cons] at hfirst
    obtain ⟨-, ⟨hafter, -⟩, hbefore⟩ := hfirst
    rw [hwithout] at hx
    obtain hx | hx := List.mem_append.1 hx
    · exact fun hi => hbefore x hx _ List.mem_cons_self d rfl (Pending.about_of_inserts hi)
    · exact fun hi => hafter x hx d hi rfl
  refine ⟨h.ids, h.hashes, h.looked, h.used, fun x hx => h.named x (hsub x hx),
    h.first.sublist List.filter_sublist, fun d' hd => ?_, fun d' hd x hx => ?_,
    fun x hx d' parts' m' hp' => ?_, fun row hrow he => ?_⟩
  · rw [hchunks, if_neg (hother hd), List.append_nil]
    exact h.gone d' (hd.imp_right (herasing d').1)
  · exact h.closed d' (hd.imp_right (herasing d').1) x (hsub x hx)
  · obtain ⟨hchunks', hparts'⟩ := h.blank x (hsub x hx) d' parts' m' hp'
    refine ⟨?_, hparts'⟩
    rw [hchunks, if_neg, hchunks', List.append_nil]
    rintro rfl
    exact hone x hx (by rw [hp']; rfl)
  · rw [herasing] at he
    obtain ⟨o, hrows, hsettle⟩ := h.synced row hrow he
    by_cases heq : row.docId = d
    · subst heq
      refine ⟨some m, ?_, ?_⟩
      · rw [hchunks, if_pos rfl, hblank, List.nil_append, hparts row hrow rfl]
        rfl
      · have hcarry := settle_carryOut (f := Pending.onMeta row.docId) (o := o) hp fun x hx o => by
          have hx := rel_of_earlier hp h.first hx row.docId rfl
          rw [Pending.onMeta_of_not_about hx, Pending.onMeta_of_not_about hx]
        rw [hsettle] at hcarry
        rw [← hcarry]
        exact congrArg _ (if_pos rfl).symm
    · refine ⟨o, ?_, ?_⟩
      · rw [hchunks, if_neg heq, List.append_nil, hrows]
      · rw [← hsettle]
        exact settle_without hp fun o => if_neg fun h => heq h.symm

theorem Changes.onMeta_stamp : (Pending.stamp d v).onMeta d o = o.map v.apply := if_pos rfl

theorem KbInv.updateDoc {now : ℕ} (h : KbInv s) : KbInv (s.updateDoc n now d v) := by
  have hdocs (row' : Doc) (hrow' : row' ∈ (s.updateDoc n now d v).docs) : ∃ row ∈ s.docs,
      row'.docId = row.docId ∧ row'.parts = row.parts ∧
      row'.toMeta = if row.docId = d then v.apply row.toMeta else row.toMeta := by
    obtain ⟨row, hrow, rfl⟩ := List.mem_map.1 hrow'
    refine ⟨row, hrow, ?_⟩
    split_ifs <;> exact ⟨rfl, rfl, rfl⟩
  have hids : (s.updateDoc n now d v).docs.map Doc.docId = s.docs.map Doc.docId := by
    rw [KbStore.updateDoc, List.map_map]
    exact List.map_congr_left fun row _ => by simp only [Function.comp]; split_ifs <;> rfl
  have hshas : (s.updateDoc n now d v).docs.map Doc.sha256 = s.docs.map Doc.sha256 := by
    rw [KbStore.updateDoc, List.map_map]
    exact List.map_congr_left fun row _ => by simp only [Function.comp]; split_ifs <;> rfl
  have hpending (x : ℕ × Pending) (hx : x ∈ (s.updateDoc n now d v).pending) :
      x ∈ s.pending ∨ x = (n, .stamp d v) := by
    simp only [KbStore.updateDoc] at hx
    split_ifs at hx
    · exact (List.mem_append.1 hx).imp_right List.mem_singleton.1
    · exact .inl hx
  have hholds (d' : DocId) : (s.updateDoc n now d v).Holds d' ↔ s.Holds d' := by
    rw [KbStore.Holds, hids, KbStore.Holds]
  have herasing (d' : DocId) : (s.updateDoc n now d v).Erasing d' ↔ s.Erasing d' := by
    constructor
    · rintro ⟨x, hx, he⟩
      obtain hx | rfl := hpending x hx
      · exact ⟨x, hx, he⟩
      · exact he.elim
    · rintro ⟨x, hx, he⟩
      refine ⟨x, ?_, he⟩
      simp only [KbStore.updateDoc]
      split_ifs
      · exact List.mem_append_left _ hx
      · exact hx
  refine ⟨hids ▸ h.ids, hshas ▸ h.hashes, fun x hx => hshas ▸ h.looked x hx, fun d' hd => ?_,
    fun x hx d' hd => ?_, ?_, fun d' hd => ?_, fun d' hd x hx => ?_,
    fun x hx d' parts m hp => ?_, fun row' hrow' he => ?_⟩
  · exact List.mem_cons_of_mem _ (h.used d' ((hholds d').1 hd))
  · obtain hx | rfl := hpending x hx
    · exact List.mem_cons_of_mem _ (h.named x hx d' hd)
    · exact List.mem_cons.2 (.inl hd.symm)
  · simp only [KbStore.updateDoc]
    split_ifs
    · refine List.pairwise_append.2 ⟨h.first, List.pairwise_singleton _ _, fun x _ y hy d hd => ?_⟩
      rw [List.mem_singleton.1 hy] at hd
      exact hd.elim
    · exact h.first
  · rw [hholds, herasing] at hd
    exact h.gone d' hd
  · rw [hholds, herasing] at hd
    obtain hx | rfl := hpending x hx
    · exact h.closed d' hd x hx
    · exact id
  · obtain hx | rfl := hpending x hx
    · obtain ⟨hchunks, hparts⟩ := h.blank x hx d' parts m hp
      refine ⟨hchunks, fun row' hrow' heq => ?_⟩
      obtain ⟨row, hrow, hid, hp, -⟩ := hdocs row' hrow'
      exact hp.trans (hparts row hrow (hid ▸ heq))
    · cases hp
  · obtain ⟨row, hrow, hid, hparts, hmeta⟩ := hdocs row' hrow'
    rw [hid, herasing] at he
    obtain ⟨o, hchunks, hsettle⟩ := h.synced row hrow he
    refine ⟨o, by rw [hid, hparts]; exact hchunks, ?_⟩
    rw [hid, hmeta]
    simp only [KbStore.updateDoc]
    split_ifs with hstamps heq heq
    · subst heq
      rw [settle_snoc, hsettle, Changes.onMeta_stamp, Option.map_some]
    · rw [settle_snoc, hsettle]
      exact if_neg fun h => heq h.symm
    · rw [hsettle, Changes.apply_of_not_stamps (by simpa using hstamps)]
    · exact hsettle

theorem rowsOf_stamp : (rowsOf d parts m).map (fun c => { c with toMeta := v.apply c.toMeta }) =
    rowsOf d parts (v.apply m) :=
  List.ext_getElem (by simp [rowsOf]) fun i hi _ => by simp [rowsOf]

/-- The chunks of a document are stamped, before what commutes with it. -/
theorem KbInv.updateChunks (h : KbInv s) (hp : pendingOf n s.pending = [(n, .stamp d v)])
    (hcomm : ∀ x ∈ earlier n s.pending, ∀ o,
      x.2.onMeta d ((Pending.stamp d v).onMeta d o) = (Pending.stamp d v).onMeta d (x.2.onMeta d o)) :
    KbInv (s.updateChunks n d v) := by
  have hsub (x : ℕ × Pending) (hx : x ∈ without n s.pending) : x ∈ s.pending := (mem_without.1 hx).1
  have herasing (d' : DocId) : (s.updateChunks n d v).Erasing d' ↔ s.Erasing d' := by
    constructor
    · rintro ⟨x, hx, he⟩
      exact ⟨x, hsub x hx, he⟩
    · rintro ⟨x, hx, he⟩
      refine ⟨x, mem_without.2 ⟨hx, fun hn => ?_⟩, he⟩
      rw [eq_of_pendingOf hp hx hn] at he
      exact he
  have hchunks (d' : DocId) : (s.updateChunks n d v).chunksOf d' = if d' = d then
      (s.chunksOf d').map (fun c => { c with toMeta := v.apply c.toMeta }) else s.chunksOf d' := by
    rw [KbStore.chunksOf, KbStore.updateChunks, List.filter_map, KbStore.chunksOf]
    have hfilter : s.chunks.filter ((fun c : Chunk => decide (c.docId = d')) ∘ fun c : Chunk =>
        if c.docId = d then { c with toMeta := v.apply c.toMeta } else c) =
        s.chunks.filter (·.docId = d') :=
      List.filter_congr fun c _ => by simp only [Function.comp]; split_ifs <;> rfl
    rw [hfilter]
    split_ifs with heq
    · refine List.map_congr_left fun c hc => if_pos ?_
      simpa [heq] using (List.mem_filter.1 hc).2
    · conv_rhs => rw [← List.map_id (s.chunks.filter _)]
      refine List.map_congr_left fun c hc => if_neg fun hd => heq ?_
      have hc' : c.docId = d' := by simpa using (List.mem_filter.1 hc).2
      exact hc'.symm.trans hd
  have hnil {d' : DocId} (hd : s.chunksOf d' = []) : (s.updateChunks n d v).chunksOf d' = [] := by
    rw [hchunks, hd]
    split_ifs <;> rfl
  refine ⟨h.ids, h.hashes, h.looked, h.used, fun x hx => h.named x (hsub x hx),
    h.first.sublist List.filter_sublist, fun d' hd => ?_, fun d' hd x hx => ?_,
    fun x hx d' parts m hp' => ?_, fun row hrow he => ?_⟩
  · exact hnil (h.gone d' (hd.imp_right (herasing d').1))
  · exact h.closed d' (hd.imp_right (herasing d').1) x (hsub x hx)
  · obtain ⟨hblank, hparts⟩ := h.blank x (hsub x hx) d' parts m hp'
    exact ⟨hnil hblank, hparts⟩
  · rw [herasing] at he
    obtain ⟨o, hrows, hsettle⟩ := h.synced row hrow he
    by_cases heq : row.docId = d
    · subst heq
      refine ⟨o.map v.apply, ?_, ?_⟩
      · rw [hchunks, if_pos rfl, hrows]
        cases o with
        | none => rfl
        | some m => exact rowsOf_stamp
      · rw [← hsettle, ← settle_carryOut hp hcomm]
        exact congrArg _ Changes.onMeta_stamp.symm
    · refine ⟨o, ?_, ?_⟩
      · rw [hchunks, if_neg heq, hrows]
      · rw [← hsettle]
        exact settle_without hp fun o => if_neg fun h => heq h.symm

/-- The chunks of documents are deleted, none of which waits for its chunks. -/
theorem KbInv.deleteChunks (h : KbInv s)
    (hnone : ∀ x ∈ s.pending, ∀ d ∈ ds, ¬ x.2.inserts d) : KbInv (s.deleteChunks n ds) := by
  have herasing (d : DocId) : (s.deleteChunks n ds).Erasing d ↔ s.Erasing d ∨ d ∈ ds := by
    simp only [KbStore.Erasing, KbStore.deleteChunks, List.mem_append, List.mem_singleton]
    constructor
    · rintro ⟨x, hx | rfl, he⟩
      · exact .inl ⟨x, hx, he⟩
      · exact .inr he
    · rintro (⟨x, hx, he⟩ | hd)
      · exact ⟨x, .inl hx, he⟩
      · exact ⟨_, .inr rfl, hd⟩
  have hchunks (d : DocId) : (s.deleteChunks n ds).chunksOf d =
      if d ∈ ds then [] else s.chunksOf d := by
    rw [KbStore.chunksOf, KbStore.deleteChunks, List.filter_filter, KbStore.chunksOf]
    split_ifs with hd
    · refine List.filter_eq_nil_iff.2 fun c _ => ?_
      simp only [decide_not, Bool.and_eq_true, decide_eq_true_eq, Bool.not_eq_true',
        decide_eq_false_iff_not, not_and, not_not]
      rintro rfl
      exact hd
    · refine List.filter_congr fun c _ => ?_
      by_cases hc : c.docId = d <;> simp [hc, hd]
  have hpending (x : ℕ × Pending) (hx : x ∈ (s.deleteChunks n ds).pending) :
      x ∈ s.pending ∨ x = (n, .erase ds) := (List.mem_append.1 hx).imp_right List.mem_singleton.1
  refine ⟨h.ids, h.hashes, h.looked, fun d hd => List.mem_append_right _ (h.used d hd),
    fun x hx d hd => ?_, ?_, fun d hd => ?_, fun d hd x hx => ?_,
    fun x hx d parts m hp => ?_, fun row hrow he => ?_⟩
  · obtain hx | rfl := hpending x hx
    · exact List.mem_append_right _ (h.named x hx d hd)
    · exact List.mem_append_left _ hd
  · refine List.pairwise_append.2 ⟨h.first, List.pairwise_singleton _ _, fun x _ y hy d hd => ?_⟩
    rw [List.mem_singleton.1 hy] at hd
    exact hd.elim
  · rw [hchunks]
    split_ifs with hmem
    · rfl
    · rw [herasing] at hd
      exact h.gone d (hd.imp_right fun he => he.resolve_right hmem)
  · obtain hx | rfl := hpending x hx
    · by_cases hmem : d ∈ ds
      · exact hnone x hx d hmem
      · rw [herasing] at hd
        exact h.closed d (hd.imp_right fun he => he.resolve_right hmem) x hx
    · exact id
  · obtain hx | rfl := hpending x hx
    · obtain ⟨hblank, hparts⟩ := h.blank x hx d parts m hp
      refine ⟨?_, hparts⟩
      rw [hchunks, hblank]
      split_ifs <;> rfl
    · cases hp
  · rw [herasing, not_or] at he
    obtain ⟨o, hrows, hsettle⟩ := h.synced row hrow he.1
    refine ⟨o, ?_, ?_⟩
    · rw [hchunks, if_neg he.2, hrows]
    · rw [KbStore.deleteChunks, settle_snoc, hsettle]
      rfl

/-- The documents whose chunks are gone are deleted. -/
theorem KbInv.deleteDocs (h : KbInv s) (hp : pendingOf n s.pending = [(n, .erase ds)]) :
    KbInv (s.deleteDocs n ds) := by
  have hentry := mem_of_pendingOf hp
  have hsub (x : ℕ × Pending) (hx : x ∈ without n s.pending) : x ∈ s.pending := (mem_without.1 hx).1
  have hdocs (row : Doc) : row ∈ (s.deleteDocs n ds).docs ↔ row ∈ s.docs ∧ row.docId ∉ ds := by
    simp [KbStore.deleteDocs]
  have hholds {d : DocId} (hd : ¬ (s.deleteDocs n ds).Holds d ∨ (s.deleteDocs n ds).Erasing d) :
      ¬ s.Holds d ∨ s.Erasing d := by
    obtain hd | ⟨x, hx, he⟩ := hd
    · by_cases hmem : d ∈ ds
      · exact .inr ⟨_, hentry, hmem⟩
      · refine .inl fun hin => hd ?_
        obtain ⟨row, hrow, rfl⟩ := List.mem_map.1 hin
        exact List.mem_map_of_mem ((hdocs row).2 ⟨hrow, hmem⟩)
    · exact .inr ⟨x, hsub x hx, he⟩
  have hsublist : (s.deleteDocs n ds).docs.Sublist s.docs := List.filter_sublist
  refine ⟨h.ids.sublist (hsublist.map _), h.hashes.sublist (hsublist.map _), fun x hx hin => ?_,
    fun d hd => ?_, fun x hx => h.named x (hsub x hx), h.first.sublist List.filter_sublist,
    fun d hd => h.gone d (hholds hd), fun d hd x hx => h.closed d (hholds hd) x (hsub x hx),
    fun x hx d parts m hp' => ?_, fun row hrow he => ?_⟩
  · exact h.looked x hx ((hsublist.map _).subset hin)
  · exact h.used d ((hsublist.map _).subset hd)
  · obtain ⟨hblank, hparts⟩ := h.blank x (hsub x hx) d parts m hp'
    exact ⟨hblank, fun row hrow => hparts row (hsublist.subset hrow)⟩
  · obtain ⟨hrow, hnot⟩ := (hdocs row).1 hrow
    have he' : ¬ s.Erasing row.docId := by
      rintro ⟨x, hx, hex⟩
      refine he ⟨x, mem_without.2 ⟨hx, fun hn => ?_⟩, hex⟩
      rw [eq_of_pendingOf hp hx hn] at hex
      exact hnot hex
    obtain ⟨o, hrows, hsettle⟩ := h.synced row hrow he'
    refine ⟨o, hrows, ?_⟩
    rw [← hsettle]
    exact settle_without hp fun _ => rfl

end

end Backplane.Knowledge
