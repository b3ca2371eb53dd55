import Backplane.Data.Precedence
import Backplane.Suite.Knowledge
import Mathlib.Algebra.Order.Field.Rat
import Mathlib.Data.List.Induction
import Mathlib.Data.List.Nodup

/-!
# Retrieval from the knowledge base

A search ranks the chunks by their vectors, by their words, or by both, where a chunk has a share of
each ranking that it is in.  Only so many of the first chunks of each ranking are fetched, and of
these the ones that have the wanted collection, title and tags are kept.

* `filterRows`, `fuse`, `retrieveSync` : the query.
* `Rankings` : the rankings of a store; `Rankings.ranking` : that of a search.
* `fuse_eq` : the fusion sorts the chunks by their shares.
* `retrieve_iff` : exactly when the first chunks that match are returned.
-/

namespace Backplane.Knowledge

/-! ### The query -/

/-- A row of `chunks`, with its name. -/
structure Hit extends Chunk where
  chunkId : String
  deriving DecidableEq, Repr

/-- The filters of a query. -/
structure Filters where
  collection : Option String := none
  title : Option String := none
  tags : Option (List String) := none

/-- `_ci_eq` -/
def ciEq (casefold : String → String) (a b : String) : Bool := casefold a = casefold b

/-- The row has the wanted collection, title and tags. -/
def Filters.passes (casefold : String → String) (f : Filters) (r : Hit) : Bool :=
  f.collection.all (ciEq casefold r.collection) && f.title.all (ciEq casefold r.title) &&
    (f.tags.getD []).all fun tag => casefold tag ∈ r.tags.map casefold

/-- `_filter` -/
def filterRows (passes : Hit → Bool) (count : ℕ) (out : List Hit) : List Hit → List Hit
  | [] => out
  | r :: rows =>
    if passes r then
      if count ≤ (out ++ [r]).length then out ++ [r]
      else filterRows passes count (out ++ [r]) rows
    else filterRows passes count out rows

section

variable {S : Type} [LinearOrder S] [Zero S] [Add S]

/-- A chunk that is ranked, with its score. -/
structure Entry (S : Type) where
  row : Hit
  score : S

/-- A row of a ranking has its share of it added. -/
def tallyRow (share : ℕ → S) (scored : List (Entry S)) (x : Hit × ℕ) : List (Entry S) :=
  if scored.any fun e => e.row.chunkId = x.1.chunkId then
    scored.map fun e =>
      if e.row.chunkId = x.1.chunkId then { e with score := e.score + share x.2 } else e
  else scored ++ [⟨x.1, 0 + share x.2⟩]

/-- All rows of a ranking, from the first. -/
def tallyRows (share : ℕ → S) (scored : List (Entry S)) (rows : List Hit) : List (Entry S) :=
  rows.zipIdx.foldl (tallyRow share) scored

/-- `_fuse`: the share of a rank is `1.0 / (k + rank + 1)`. -/
def fuse (share : ℕ → S) (vecRows bmRows : List Hit) : List Hit :=
  let scored := [vecRows, bmRows].foldl (tallyRows share) []
  (scored.insertionSort fun a b => b.score ≤ a.score).map Entry.row

/-- The rankings of the chunks of a store by a query. -/
structure Rankings where
  /-- The rows of `chunks`. -/
  chunks : List Hit
  vector : List Hit
  /-- By their words. -/
  bm25 : List Hit
  /-- Each chunk has a name of its own. -/
  unique : ∀ a ∈ chunks, ∀ b ∈ chunks, a.chunkId = b.chunkId → a = b
  /-- No chunk is ranked twice. -/
  vectorNodup : vector.Nodup
  /-- No chunk is ranked twice. -/
  bm25Nodup : bm25.Nodup
  /-- Chunks of the store are ranked. -/
  vectorSubset : vector ⊆ chunks
  /-- Chunks of the store are ranked. -/
  bm25Subset : bm25 ⊆ chunks

/-- `_vector_rows` -/
def Rankings.vectorRows (R : Rankings) (fetched : ℕ) : List Hit := R.vector.take fetched

/-- `_bm25_rows` -/
def Rankings.bm25Rows (R : Rankings) (fetched : ℕ) : List Hit :=
  if R.chunks.length = 0 then [] else R.bm25.take fetched

/-- How many rows of a ranking are fetched. -/
def fetchedRows (count : ℕ) : ℕ := max (count * 10) 50

/-- `_retrieve_sync` -/
def retrieveSync (share : ℕ → S) (casefold : String → String) (R : Rankings) (searchType : String)
    (filters : Filters) (count : ℕ) : List Hit :=
  let rows :=
    if searchType = "vector" then R.vectorRows (fetchedRows count)
    else if searchType = "bm25" then R.bm25Rows (fetchedRows count)
    else fuse share (R.vectorRows (fetchedRows count)) (R.bm25Rows (fetchedRows count))
  filterRows (filters.passes casefold) count [] rows

/-- What `run_kb_retrieve` answers. -/
def kbAnswer (hits : List Hit) : String :=
  if hits = [] then "No matching documents found."
  else "\n\n".intercalate (hits.map fun h =>
    "### " ++ h.title ++ " (chunk " ++ toString h.chunkIndex ++ ")\n" ++ h.content)

/-! ### What is claimed -/

/-- The ranking of a search of this type. -/
def Rankings.ranking (share : ℕ → S) (R : Rankings) (searchType : String) : List Hit :=
  if searchType = "vector" then R.vector
  else if searchType = "bm25" then R.bm25
  else fuse share R.vector R.bm25

/-- The first chunks of the ranking that match. -/
def Rankings.firstMatching (share : ℕ → S) (R : Rankings) (searchType : String)
    (passes : Hit → Bool) (count : ℕ) : List Hit :=
  ((R.ranking share searchType).filter passes).take count

/-- The shares that a chunk has of two rankings. -/
def shares (share : ℕ → S) (vecRows bmRows : List Hit) (r : Hit) : S :=
  let add (score : S) (rank : Option ℕ) : S := rank.elim score fun rank => score + share rank
  add (add 0 (vecRows.idxOf? r)) (bmRows.idxOf? r)

/-- The chunks of two rankings, in the order in which they are met. -/
def met (vecRows bmRows : List Hit) : List Hit := vecRows ++ bmRows.filter (· ∉ vecRows)

/-- A chunk has the greater shares of two rankings; of equal ones, the chunk that is met first. -/
def Outranks (share : ℕ → S) (vecRows bmRows : List Hit) (a b : Hit) : Prop :=
  shares share vecRows bmRows b < shares share vecRows bmRows a ∨
    shares share vecRows bmRows b = shares share vecRows bmRows a ∧
      Precedes (met vecRows bmRows) a b

/-- In the first rows of both rankings, a chunk still outranks each matching chunk that is in them
and that it outranks in the whole rankings. -/
def Rankings.NotOvertaken (share : ℕ → S) (R : Rankings) (passes : Hit → Bool) (fetched : ℕ)
    (a : Hit) : Prop :=
  ∀ b, b ∈ R.vector.take fetched ∨ b ∈ R.bm25.take fetched → passes b →
    Outranks share R.vector R.bm25 a b →
      Outranks share (R.vector.take fetched) (R.bm25.take fetched) a b

/-- The first matching chunks are in the rows that are fetched, and where both rankings count none
of them is overtaken there. -/
def Rankings.WithinReach (share : ℕ → S) (R : Rankings) (searchType : String) (passes : Hit → Bool)
    (count : ℕ) : Prop :=
  ∀ a ∈ R.firstMatching share searchType passes count,
    if searchType = "vector" then a ∈ R.vector.take (fetchedRows count)
    else if searchType = "bm25" then a ∈ R.bm25.take (fetchedRows count)
    else (a ∈ R.vector.take (fetchedRows count) ∨ a ∈ R.bm25.take (fetchedRows count)) ∧
      R.NotOvertaken share passes (fetchedRows count) a

variable {share : ℕ → S} {R : Rankings} {passes : Hit → Bool} {count : ℕ}
  {vecRows bmRows rows : List Hit} {a b r : Hit}

/-! ### Filtering -/

theorem filterRows_eq {out : List Hit} (hout : out.length < count) :
    filterRows passes count out rows =
      out ++ (rows.filter passes).take (count - out.length) := by
  induction rows generalizing out with
  | nil => simp [filterRows]
  | cons r rows ih =>
    rw [filterRows]
    split_ifs with hr hfull
    · rw [List.length_append, List.length_singleton] at hfull
      obtain hone : count - out.length = 0 + 1 := by omega
      rw [List.filter_cons_of_pos hr, hone, List.take_succ_cons, List.take_zero]
    · rw [List.length_append, List.length_singleton] at hfull
      obtain ⟨n, hn⟩ : ∃ n, count - out.length = n + 1 := ⟨count - out.length - 1, by omega⟩
      have hrest : count - (out ++ [r]).length = n := by
        rw [List.length_append, List.length_singleton]
        omega
      rw [ih (by rw [List.length_append, List.length_singleton]; omega), hrest,
        List.filter_cons_of_pos hr, hn, List.take_succ_cons, List.append_assoc]
      rfl
    · rw [ih hout, List.filter_cons_of_neg hr]

theorem bm25Rows_eq (n : ℕ) : R.bm25Rows n = R.bm25.take n := by
  unfold Rankings.bm25Rows
  split_ifs with hnil
  · have hchunks := List.eq_nil_of_length_eq_zero hnil
    have hbm25 : R.bm25 = [] := List.subset_nil.1 (hchunks ▸ R.bm25Subset)
    rw [hbm25, List.take_nil]
  · rfl

/-! ### Fusion -/

/-- A score with the share of a rank, if there is one. -/
def addShare (share : ℕ → S) (score : S) (rank : Option ℕ) : S :=
  rank.elim score fun rank => score + share rank

theorem idxOf?_concat {x : Hit} (hr : r ∉ rows) :
    (rows ++ [r]).idxOf? x = if x = r then some rows.length else rows.idxOf? x := by
  have happ : (rows ++ [r]).idxOf? x =
      (rows.idxOf? x).or (([r].idxOf? x).map (· + rows.length)) := List.findIdx?_append
  rw [happ, List.idxOf?_singleton]
  split_ifs with heq hx hx
  · rw [hx, List.idxOf?_eq_none_iff.2 hr]
    simp
  · exact absurd (beq_iff_eq.1 heq).symm hx
  · exact absurd (beq_iff_eq.2 hx.symm) heq
  · simp

/-- **What a ranking adds** to the scores. -/
theorem tallyRows_eq {chunks : List Hit} {scored : List (Entry S)}
    (hunique : ∀ a ∈ chunks, ∀ b ∈ chunks, a.chunkId = b.chunkId → a = b)
    (hscored : ∀ e ∈ scored, e.row ∈ chunks) (hrows : rows ⊆ chunks) (hnodup : rows.Nodup) :
    tallyRows share scored rows =
      (scored.map fun e => ⟨e.row, addShare share e.score (rows.idxOf? e.row)⟩) ++
        (rows.filter (· ∉ scored.map Entry.row)).map fun r =>
          ⟨r, addShare share 0 (rows.idxOf? r)⟩ := by
  induction rows using List.reverseRecOn with
  | nil => simp [tallyRows, addShare]
  | append_singleton rows r ih =>
    have hsub : rows ⊆ chunks := fun x hx => hrows (List.mem_append_left _ hx)
    have hr : r ∈ chunks := hrows (by simp)
    have hlast : r ∉ rows := fun h => (List.disjoint_of_nodup_append hnodup) h (by simp)
    have hrank : ∀ x, (rows ++ [r]).idxOf? x =
        if x = r then some rows.length else rows.idxOf? x := fun x => idxOf?_concat hlast
    have hsame : ∀ {x}, x ∈ chunks → (x.chunkId = r.chunkId ↔ x = r) := fun hx =>
      ⟨hunique _ hx _ hr, fun h => h ▸ rfl⟩
    have hothers : ∀ x ∈ rows.filter (· ∉ scored.map Entry.row), x ∈ chunks ∧ x ≠ r :=
      fun x hx => ⟨hsub (List.mem_of_mem_filter hx), fun h => hlast (h ▸ List.mem_of_mem_filter hx)⟩
    -- what was ranked before keeps its rank
    have hkept : ((rows.filter (· ∉ scored.map Entry.row)).map fun x =>
          (⟨x, addShare share 0 ((rows ++ [r]).idxOf? x)⟩ : Entry S)) =
        (rows.filter (· ∉ scored.map Entry.row)).map fun x =>
          ⟨x, addShare share 0 (rows.idxOf? x)⟩ := by
      refine List.map_congr_left fun x hx => ?_
      rw [hrank, if_neg (hothers x hx).2]
    have hstep : tallyRows share scored (rows ++ [r]) =
        tallyRow share (tallyRows share scored rows) (r, rows.length) := by
      rw [tallyRows, List.zipIdx_append, List.foldl_append, Nat.zero_add]
      rfl
    rw [hstep, ih hsub (hnodup.sublist (List.sublist_append_left _ _)), tallyRow]
    by_cases hmem : r ∈ scored.map Entry.row
    · obtain ⟨e, he, rfl⟩ := List.mem_map.1 hmem
      have hfilter : (rows ++ [e.row]).filter (· ∉ scored.map Entry.row) =
          rows.filter (· ∉ scored.map Entry.row) := by
        rw [List.filter_append, List.filter_singleton, decide_eq_false (not_not.2 hmem)]
        exact List.append_nil _
      rw [if_pos (List.any_eq_true.2 ⟨_, List.mem_append_left _ (List.mem_map_of_mem he), by simp⟩),
        hfilter, hkept, List.map_append, List.map_map, List.map_map]
      congr 1
      · refine List.map_congr_left fun e' he' => ?_
        simp only [Function.comp_apply, hsame (hscored e' he'), hrank]
        split_ifs with heq
        · rw [heq, List.idxOf?_eq_none_iff.2 hlast]
          rfl
        · rfl
      · refine List.map_congr_left fun x hx => ?_
        rw [Function.comp_apply, if_neg ((hsame (hothers x hx).1).not.2 (hothers x hx).2)]
    · have hfilter : (rows ++ [r]).filter (· ∉ scored.map Entry.row) =
          rows.filter (· ∉ scored.map Entry.row) ++ [r] := by
        rw [List.filter_append, List.filter_singleton, decide_eq_true hmem]
        rfl
      have hnew : ∀ e ∈ scored, e.row ≠ r := fun e he h =>
        hmem (List.mem_map.2 ⟨e, he, h⟩)
      rw [if_neg, hfilter, List.map_append, hkept, List.map_singleton, hrank, if_pos rfl,
        List.append_assoc]
      · congr 1
        refine List.map_congr_left fun e he => ?_
        rw [hrank, if_neg (hnew e he)]
      · intro hany
        obtain ⟨e, he, hid⟩ := List.any_eq_true.1 hany
        have hid := of_decide_eq_true hid
        rcases List.mem_append.1 he with he | he
        · obtain ⟨e', he', rfl⟩ := List.mem_map.1 he
          exact hnew e' he' ((hsame (hscored e' he')).1 hid)
        · obtain ⟨x, hx, rfl⟩ := List.mem_map.1 he
          exact (hothers x hx).2 ((hsame (hothers x hx).1).1 hid)

theorem mem_met : r ∈ met vecRows bmRows ↔ r ∈ vecRows ∨ r ∈ bmRows := by
  by_cases h : r ∈ vecRows <;> simp [met, h]

theorem nodup_met (hvec : vecRows.Nodup) (hbm : bmRows.Nodup) : (met vecRows bmRows).Nodup := by
  refine hvec.append (hbm.filter _) fun x hx hx' => ?_
  have hnot := List.of_mem_filter hx'
  exact of_decide_eq_true hnot hx

/-- **The fusion of two rankings** sorts their chunks by their shares. -/
theorem fuse_eq {chunks : List Hit}
    (hunique : ∀ a ∈ chunks, ∀ b ∈ chunks, a.chunkId = b.chunkId → a = b)
    (hvec : vecRows ⊆ chunks) (hbm : bmRows ⊆ chunks) (hvecs : vecRows.Nodup)
    (hbms : bmRows.Nodup) :
    fuse share vecRows bmRows = (met vecRows bmRows).insertionSort fun a b =>
      shares share vecRows bmRows b ≤ shares share vecRows bmRows a := by
  have hfirst : tallyRows share [] vecRows =
      vecRows.map fun r => ⟨r, addShare share 0 (vecRows.idxOf? r)⟩ := by
    rw [tallyRows_eq hunique (by simp) hvec hvecs]
    simp
  have hrows : (vecRows.map fun r =>
      (⟨r, addShare share 0 (vecRows.idxOf? r)⟩ : Entry S)).map Entry.row = vecRows := by
    rw [List.map_map]
    exact List.map_id _
  have hscored : [vecRows, bmRows].foldl (tallyRows share) [] =
      (met vecRows bmRows).map fun r => ⟨r, shares share vecRows bmRows r⟩ := by
    rw [List.foldl_cons, List.foldl_cons, List.foldl_nil, hfirst,
      tallyRows_eq hunique (fun e he => ?_) hbm hbms, hrows, met, List.map_append, List.map_map]
    · congr 1
      refine List.map_congr_left fun r hr => ?_
      have hnot := List.of_mem_filter hr
      have hnone : vecRows.idxOf? r = none :=
        List.idxOf?_eq_none_iff.2 (of_decide_eq_true hnot)
      rw [shares, hnone]
      rfl
    · obtain ⟨r, hr, rfl⟩ := List.mem_map.1 he
      exact hvec hr
  rw [fuse, hscored, ← List.map_insertionSort (fun a b =>
    shares share vecRows bmRows b ≤ shares share vecRows bmRows a), List.map_map]
  · exact List.map_id _
  · exact fun _ _ _ _ => Iff.rfl

/-- **A chunk comes before another** in the fusion if it outranks it. -/
theorem precedes_fuse_iff {chunks : List Hit}
    (hunique : ∀ a ∈ chunks, ∀ b ∈ chunks, a.chunkId = b.chunkId → a = b)
    (hvec : vecRows ⊆ chunks) (hbm : bmRows ⊆ chunks) (hvecs : vecRows.Nodup)
    (hbms : bmRows.Nodup) (ha : a ∈ met vecRows bmRows) (hb : b ∈ met vecRows bmRows) :
    Precedes (fuse share vecRows bmRows) a b ↔ Outranks share vecRows bmRows a b := by
  have hmet := nodup_met hvecs hbms
  rw [fuse_eq hunique hvec hbm hvecs hbms]
  by_cases hab : a = b
  · subst hab
    refine iff_of_false (fun h => ?_) ?_
    · exact h.ne ((List.perm_insertionSort _ _).nodup_iff.2 hmet) rfl
    · rintro (hlt | ⟨-, h⟩)
      · exact lt_irrefl _ hlt
      · exact h.ne hmet rfl
  · exact precedes_insertionSort_iff hmet ha hb hab

theorem mem_fuse {chunks : List Hit}
    (hunique : ∀ a ∈ chunks, ∀ b ∈ chunks, a.chunkId = b.chunkId → a = b)
    (hvec : vecRows ⊆ chunks) (hbm : bmRows ⊆ chunks) (hvecs : vecRows.Nodup)
    (hbms : bmRows.Nodup) : r ∈ fuse share vecRows bmRows ↔ r ∈ vecRows ∨ r ∈ bmRows := by
  rw [fuse_eq hunique hvec hbm hvecs hbms, List.mem_insertionSort, mem_met]

theorem nodup_fuse {chunks : List Hit}
    (hunique : ∀ a ∈ chunks, ∀ b ∈ chunks, a.chunkId = b.chunkId → a = b)
    (hvec : vecRows ⊆ chunks) (hbm : bmRows ⊆ chunks) (hvecs : vecRows.Nodup)
    (hbms : bmRows.Nodup) : (fuse share vecRows bmRows).Nodup := by
  rw [fuse_eq hunique hvec hbm hvecs hbms, (List.perm_insertionSort _ _).nodup_iff]
  exact nodup_met hvecs hbms

/-! ### What is returned -/

/-- What is fetched of one ranking. -/
theorem take_filter_take_iff {n : ℕ} (hnodup : rows.Nodup) :
    ((rows.take n).filter passes).take count = (rows.filter passes).take count ↔
      ∀ a ∈ (rows.filter passes).take count, a ∈ rows.take n := by
  rw [take_eq_take_iff_of_sublist (hnodup.filter _) ((List.take_sublist _ _).filter _)]
  refine forall₂_congr fun a ha => ?_
  rw [List.mem_filter, and_iff_left (List.of_mem_filter (List.mem_of_mem_take ha))]

/-- What is fetched of both. -/
theorem take_filter_fuse_iff {n : ℕ} :
    ((fuse share (R.vector.take n) (R.bm25.take n)).filter passes).take count =
        ((fuse share R.vector R.bm25).filter passes).take count ↔
      ∀ a ∈ ((fuse share R.vector R.bm25).filter passes).take count,
        (a ∈ R.vector.take n ∨ a ∈ R.bm25.take n) ∧ R.NotOvertaken share passes n a := by
  have hvec := R.vectorSubset
  have hbm := R.bm25Subset
  have hvec' : R.vector.take n ⊆ R.chunks := fun _ h => hvec (List.mem_of_mem_take h)
  have hbm' : R.bm25.take n ⊆ R.chunks := fun _ h => hbm (List.mem_of_mem_take h)
  have hvecs' := R.vectorNodup.sublist (List.take_sublist n _)
  have hbms' := R.bm25Nodup.sublist (List.take_sublist n _)
  have hmem : ∀ {r}, r ∈ fuse share R.vector R.bm25 ↔ r ∈ R.vector ∨ r ∈ R.bm25 :=
    mem_fuse R.unique hvec hbm R.vectorNodup R.bm25Nodup
  have hmem' : ∀ {r}, r ∈ fuse share (R.vector.take n) (R.bm25.take n) ↔
      r ∈ R.vector.take n ∨ r ∈ R.bm25.take n :=
    mem_fuse R.unique hvec' hbm' hvecs' hbms'
  have hwhole : ∀ {r}, r ∈ R.vector.take n ∨ r ∈ R.bm25.take n → r ∈ R.vector ∨ r ∈ R.bm25 :=
    fun h => h.imp List.mem_of_mem_take List.mem_of_mem_take
  have hsub : (fuse share (R.vector.take n) (R.bm25.take n)).filter passes ⊆
      (fuse share R.vector R.bm25).filter passes := fun r hr =>
    List.mem_filter.2 ⟨hmem.2 (hwhole (hmem'.1 (List.mem_of_mem_filter hr))),
      List.of_mem_filter hr⟩
  rw [take_eq_take_iff ((nodup_fuse R.unique hvec hbm R.vectorNodup R.bm25Nodup).filter _)
    ((nodup_fuse R.unique hvec' hbm' hvecs' hbms').filter _) hsub]
  refine forall₂_congr fun a ha => ?_
  obtain ⟨ha, hpass⟩ := List.mem_filter.1 (List.mem_of_mem_take ha)
  rw [List.mem_filter, hmem', and_iff_left hpass]
  refine and_congr_right fun hfetched => forall_congr' fun b => ?_
  rw [List.mem_filter, hmem', and_imp]
  refine forall₂_congr fun hb hpass' => ?_
  rw [precedes_filter_iff, precedes_filter_iff, and_iff_left ⟨hpass, hpass'⟩,
    and_iff_left ⟨hpass, hpass'⟩,
    precedes_fuse_iff R.unique hvec hbm R.vectorNodup R.bm25Nodup (mem_met.2 (hmem.1 ha))
      (mem_met.2 (hwhole hb)),
    precedes_fuse_iff R.unique hvec' hbm' hvecs' hbms' (mem_met.2 hfetched) (mem_met.2 hb)]

/-- **When the first matching chunks are returned.**  A query returns the first chunks of its
ranking that match if and only if they are among the rows that are fetched and, where two rankings
are fused, no other matching chunk overtakes one of them by what the rest of the rankings would have
added. -/
theorem retrieve_iff (share : ℕ → S) (casefold : String → String) (R : Rankings)
    (searchType : String) (filters : Filters) (hcount : 1 ≤ count) :
    retrieveSync share casefold R searchType filters count =
        R.firstMatching share searchType (filters.passes casefold) count ↔
      R.WithinReach share searchType (filters.passes casefold) count := by
  rw [retrieveSync, filterRows_eq (show ([] : List Hit).length < count from hcount),
    List.nil_append, List.length_nil, Nat.sub_zero, bm25Rows_eq, Rankings.vectorRows,
    Rankings.WithinReach, Rankings.firstMatching, Rankings.ranking]
  split_ifs
  · exact take_filter_take_iff R.vectorNodup
  · exact take_filter_take_iff R.bm25Nodup
  · exact take_filter_fuse_iff

end

namespace Sample

def chunk (collection : String) (n : ℕ) : Hit where
  collection
  title := "Notes"
  tags := []
  docId := 0
  chunkIndex := n
  content := "Some text."
  chunkId := String.ofList (List.replicate n 'c')

theorem chunk_injective {c c' : String} {n m : ℕ} (h : (chunk c n).chunkId = (chunk c' m).chunkId) :
    n = m := by
  have hlength := congrArg String.length h
  simpa [chunk] using hlength

/-- The chunks are ranked in this order by their vectors. -/
def ranked (collection : ℕ → String) (n : ℕ) : Rankings where
  chunks := (List.range n).map fun i => chunk (collection i) i
  vector := (List.range n).map fun i => chunk (collection i) i
  bm25 := []
  unique := by
    intro a ha b hb h
    obtain ⟨i, -, rfl⟩ := List.mem_map.1 ha
    obtain ⟨j, -, rfl⟩ := List.mem_map.1 hb
    rw [chunk_injective h]
  vectorNodup := List.nodup_range.map fun i j h => chunk_injective (congrArg Hit.chunkId h)
  bm25Nodup := List.nodup_nil
  vectorSubset := List.Subset.refl _
  bm25Subset := List.nil_subset _

/-- Fifty notes, and after them a chunk about a journey. -/
def crowded : Rankings := ranked (fun i => if i < 50 then "notes" else "journeys") 51

/-- What is wanted is about journeys. -/
def journeys : Filters := { collection := some "journeys" }

/-- `1.0 / (k + rank + 1)`, with `k = 60`. -/
def share (rank : ℕ) : ℚ := 1 / (60 + rank + 1)

end Sample

/-- Of two chunks the one about journeys is returned. -/
theorem retrieve_iff_two :
    retrieveSync Sample.share id (Sample.ranked (fun i => if i < 1 then "notes" else "journeys") 2)
        "vector" Sample.journeys 3 =
      (Sample.ranked (fun i => if i < 1 then "notes" else "journeys") 2).firstMatching Sample.share
        "vector" (Sample.journeys.passes id) 3 ↔
    (Sample.ranked (fun i => if i < 1 then "notes" else "journeys") 2).WithinReach Sample.share
      "vector" (Sample.journeys.passes id) 3 :=
  retrieve_iff Sample.share id _ "vector" Sample.journeys (by decide)

/-- Fifty notes hide the only chunk that matches, and the answer is that there is none. -/
theorem crowded_ranking_hides : ¬ ∀ (R : Rankings) (filters : Filters) (count : ℕ), 1 ≤ count →
    retrieveSync Sample.share id R "vector" filters count =
        R.firstMatching Sample.share "vector" (filters.passes id) count ∧
      (kbAnswer (retrieveSync Sample.share id R "vector" filters count) =
          "No matching documents found." →
        ∀ a ∈ R.ranking Sample.share "vector", filters.passes id a = false) := by
  intro h
  have hnone : retrieveSync Sample.share id Sample.crowded "vector" Sample.journeys 3 = [] := by
    decide
  obtain ⟨-, hanswer⟩ := h Sample.crowded Sample.journeys 3 (by decide)
  rw [hnone] at hanswer
  have hmatch := hanswer rfl (Sample.chunk "journeys" 50) (List.mem_map.2 ⟨50, by decide, rfl⟩)
  exact absurd hmatch (by decide)

end Backplane.Knowledge
