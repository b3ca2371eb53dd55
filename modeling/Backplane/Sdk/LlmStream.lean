import Backplane.Data.EventSystem
import Backplane.Sdk.Stream

/-!
# The queue of an LLM stream

The deltas of a streamed LLM call and its final result go through a bounded queue, from the receive
loop to the iteration.  A delta that finds the queue full is dropped; the result is what ends the
iteration, so it takes the place of the oldest of what waits until it fits.

* `BoundedQueue.putEvicting` : the eviction loop; it ends.
* `LlmStream.handleDelta`, `LlmStream.handleResult`, `LlmStream.get` : the two ends of the queue.
* `LlmStream.system` : arrivals and reads in any order.
* `llm_stream_terminates` : the iteration sees deltas in order and then the result, once.
-/

namespace Backplane

/-! ### The queue -/

section
variable {α : Type}

/-- The loop that evicts the oldest item until `x` fits, and how many go; `none`: it is not over
after that many rounds. -/
def BoundedQueue.putEvicting (x : α) : ℕ → BoundedQueue α → Option (BoundedQueue α × ℕ)
  | 0, _ => none
  | rounds + 1, q =>
    match q.putNowait x with
    | some q => some (q, 0)
    | none =>
      match q.items with
      | [] => putEvicting x rounds q
      | _ :: items => (putEvicting x rounds { q with items }).map fun r => (r.1, r.2 + 1)

variable {q q' : BoundedQueue α} {x : α} {rounds n : ℕ}

/-- What is full holds something. -/
theorem BoundedQueue.items_ne_nil (h : q.putNowait x = none) : q.items ≠ [] := by
  rw [putNowait] at h
  split_ifs at h with hfull
  intro hnil
  rw [full, hnil, Bool.and_eq_true, decide_eq_true_eq, decide_eq_true_eq] at hfull
  exact hfull.1 (Nat.le_zero.1 hfull.2)

/-- The oldest items make room for the new one. -/
theorem BoundedQueue.putEvicting_eq_some (h : q.putEvicting x rounds = some (q', n)) :
    q' = { q with items := q.items.drop n ++ [x] } := by
  induction rounds generalizing q n with
  | zero => cases h
  | succ rounds ih =>
    rw [putEvicting] at h
    cases hput : q.putNowait x with
    | some q₁ =>
      rw [hput] at h
      obtain ⟨rfl, rfl⟩ := Prod.mk.inj (Option.some.inj h)
      exact putNowait_eq_some hput
    | none =>
      rw [hput] at h
      cases hitems : q.items with
      | nil => exact absurd hitems (items_ne_nil hput)
      | cons y items =>
        simp only [hitems] at h
        obtain ⟨⟨q₁, m⟩, hrest, heq⟩ := Option.map_eq_some_iff.1 h
        obtain ⟨rfl, rfl⟩ := Prod.mk.inj heq
        exact ih hrest

/-- The loop ends: what waits is one less after each round. -/
theorem BoundedQueue.putEvicting_isSome (h : q.items.length < rounds) :
    (q.putEvicting x rounds).isSome = true := by
  induction rounds generalizing q with
  | zero => exact absurd h (Nat.not_lt_zero _)
  | succ rounds ih =>
    rw [putEvicting]
    cases hput : q.putNowait x with
    | some q₁ => rfl
    | none =>
      cases hitems : q.items with
      | nil => exact absurd hitems (items_ne_nil hput)
      | cons y items =>
        simp only [Option.isSome_map]
        refine ih ?_
        rw [hitems, List.length_cons] at h
        exact Nat.lt_of_succ_lt_succ h

end

/-! ### The stream -/

/-- What the queue of a stream holds. -/
inductive LlmItem (D R : Type)
  | delta (d : D)
  | result (r : R)
  deriving DecidableEq, Repr

variable {D R : Type}

/-- The delta that it is. -/
def LlmItem.delta? : LlmItem D R → Option D
  | delta d => some d
  | result _ => none

/-- The result that it is. -/
def LlmItem.result? : LlmItem D R → Option R
  | delta _ => none
  | result r => some r

/-- A stream, with what has come for it and what its iteration has seen. -/
structure LlmStream (D R : Type) where
  queue : BoundedQueue (LlmItem D R)
  /-- `_llm_streams` has it; the iteration takes it out when it is over. -/
  registered : Bool := true
  /-- What the iteration has taken from the queue. -/
  seen : List (LlmItem D R) := []
  deltas : List D := []
  final : Option R := none
  deriving DecidableEq

/-- What happens to a stream. -/
inductive LlmStreamEvent (D R : Type)
  | delta (d : D)
  | result (r : R)
  | get
  deriving DecidableEq

namespace LlmStream

variable (s : LlmStream D R)

/-- `_handle_llm_delta` -/
def handleDelta (d : D) : LlmStream D R :=
  if s.registered then
    { s with deltas := s.deltas ++ [d], queue := s.queue.offer (.delta d) }
  else { s with deltas := s.deltas ++ [d] }

/-- `_handle_llm_result`, whose loop may go on for so many rounds. -/
def handleResult (rounds : ℕ) (r : R) : Option (LlmStream D R) :=
  if s.registered then
    (s.queue.putEvicting (.result r) rounds).map fun q => { s with final := some r, queue := q.1 }
  else some { s with final := some r }

/-- The iteration takes the next item, and is over after the result; `none`: it waits, or is
over. -/
def get : Option (LlmStream D R) :=
  if s.registered then
    match s.queue.items with
    | [] => none
    | x :: items =>
      some { s with
        queue := { s.queue with items }
        seen := s.seen ++ [x]
        registered := x.result?.isNone }
  else none

/-- What an event does. -/
def step (s : LlmStream D R) : LlmStreamEvent D R → Option (LlmStream D R)
  | .delta d => some (s.handleDelta d)
  | .result r => s.handleResult (s.queue.items.length + 1) r
  | .get => s.get

/-- A stream with a queue of this size. -/
def system (D R : Type) (maxsize : ℕ) : EventSystem (LlmStream D R) (LlmStreamEvent D R) :=
  ⟨{ queue := { maxsize } }, step⟩

/-- There is one final result. -/
def allowed (s : LlmStream D R) : LlmStreamEvent D R → Bool
  | .result _ => s.final.isNone
  | _ => true

/-- The iteration reads so many times. -/
def gets : ℕ → LlmStream D R → Option (LlmStream D R)
  | 0, s => some s
  | n + 1, s => s.get.bind (gets n)

/-! ### What holds of every stream -/

/-- What has been seen and what waits are deltas in their order, and the result if it has come. -/
structure Inv (s : LlmStream D R) : Prop where
  deltas : ((s.seen ++ s.queue.items).filterMap LlmItem.delta?).Sublist s.deltas
  result : (s.seen ++ s.queue.items).filterMap LlmItem.result? = s.final.toList
  /-- The iteration goes on until it has seen the result. -/
  going : s.registered = true → s.seen.filterMap LlmItem.result? = []
  /-- The result is what it has seen last. -/
  ended : s.registered = false → ∃ (ds : List D) (r : R), s.seen = ds.map .delta ++ [.result r]

variable {s} {s' : LlmStream D R} {d : D} {r : R} {n : ℕ} {l : List (LlmItem D R)}

theorem eq_map_delta (h : l.filterMap LlmItem.result? = []) :
    l = (l.filterMap LlmItem.delta?).map .delta := by
  induction l with
  | nil => rfl
  | cons x l ih =>
    cases x with
    | result r => cases h
    | delta d => exact congrArg (.delta d :: ·) (ih h)

theorem Inv.handleDelta (h : s.Inv) (d : D) : (s.handleDelta d).Inv := by
  rw [LlmStream.handleDelta]
  split_ifs with hreg
  · rw [BoundedQueue.offer]
    cases hput : s.queue.putNowait (.delta d) with
    | none => exact ⟨h.deltas.trans (List.sublist_append_left _ _), h.result, h.going, h.ended⟩
    | some q =>
      obtain rfl := BoundedQueue.putNowait_eq_some hput
      refine ⟨?_, ?_, h.going, h.ended⟩
      · have hsub := h.deltas.append_right [d]
        simpa [LlmItem.delta?] using hsub
      · have hresult := h.result
        simpa [LlmItem.result?, List.filterMap_cons] using hresult
  · exact ⟨h.deltas.trans (List.sublist_append_left _ _), h.result, h.going, h.ended⟩

theorem Inv.handleResult {rounds : ℕ} (h : s.Inv) (hfinal : s.final = none)
    (hstep : s.handleResult rounds r = some s') : s'.Inv := by
  rw [LlmStream.handleResult] at hstep
  have hnone := h.result
  rw [hfinal, Option.toList_none, List.filterMap_append, List.append_eq_nil_iff] at hnone
  split_ifs at hstep with hreg
  · obtain ⟨⟨q, n⟩, hput, rfl⟩ := Option.map_eq_some_iff.1 hstep
    obtain rfl := BoundedQueue.putEvicting_eq_some hput
    refine ⟨?_, ?_, h.going, h.ended⟩
    · -- eviction takes from the front of what waits
      have hdrop : ((s.queue.items.drop n).filterMap LlmItem.delta?).Sublist
          (s.queue.items.filterMap LlmItem.delta?) := (List.drop_sublist n _).filterMap _
      have hsub := h.deltas
      rw [List.filterMap_append] at hsub
      have hall := (hdrop.append_left (s.seen.filterMap LlmItem.delta?)).trans hsub
      simpa [LlmItem.delta?, List.filterMap_cons] using hall
    · have hdrop : (s.queue.items.drop n).filterMap LlmItem.result? = [] :=
        List.sublist_nil.1 (hnone.2 ▸ (List.drop_sublist n _).filterMap _)
      simp [LlmItem.result?, hnone.1, hdrop]
  · -- an iteration that is over has seen a result
    obtain ⟨ds, r', hseen⟩ := h.ended (Bool.eq_false_iff.2 hreg)
    have hmem := hnone.1
    rw [hseen, List.filterMap_append] at hmem
    simp [LlmItem.result?] at hmem

theorem Inv.get (h : s.Inv) (hstep : s.get = some s') : s'.Inv := by
  rw [LlmStream.get] at hstep
  split_ifs at hstep with hreg
  cases hitems : s.queue.items with
  | nil => simp only [hitems] at hstep; cases hstep
  | cons x items =>
    simp only [hitems] at hstep
    obtain rfl := Option.some.inj hstep
    have happend : (s.seen ++ [x]) ++ items = s.seen ++ s.queue.items := by
      rw [hitems, List.append_assoc, List.singleton_append]
    refine ⟨?_, ?_, fun hgoing => ?_, fun hover => ?_⟩
    · exact happend ▸ h.deltas
    · exact happend ▸ h.result
    · have hx : x.result? = none := Option.isNone_iff_eq_none.1 hgoing
      change (s.seen ++ [x]).filterMap LlmItem.result? = []
      rw [List.filterMap_append, h.going hreg]
      simp [hx]
    · cases x with
      | delta d => cases hover
      | result r =>
        exact ⟨_, r, congrArg (· ++ [.result r]) (eq_map_delta (h.going hreg))⟩

theorem inv_invariant (maxsize : ℕ) :
    (system D R maxsize).Invariant (fun s e => allowed s e = true) Inv where
  init := ⟨List.Sublist.refl _, rfl, fun _ => rfl, fun h => nomatch h⟩
  step := by
    intro s e s' h hok hstep
    cases e with
    | delta d =>
      obtain rfl := Option.some.inj hstep
      exact h.handleDelta d
    | result r => exact h.handleResult (Option.isNone_iff_eq_none.1 hok) hstep
    | get => exact h.get hstep

/-- A stream that has its result is read to its end by at most as many reads as items wait. -/
theorem exists_gets_end (h : s.Inv) (hreg : s.registered = true) (hfinal : s.final = some r) :
    ∃ n ≤ s.queue.items.length, ∃ s', gets n s = some s' ∧ s'.registered = false := by
  induction hitems : s.queue.items generalizing s with
  | nil =>
    have hresult := h.result
    rw [hitems, List.append_nil, h.going hreg, hfinal] at hresult
    cases hresult
  | cons x items ih =>
    have hget : s.get = some { s with
        queue := { s.queue with items }
        seen := s.seen ++ [x]
        registered := x.result?.isNone } := by
      rw [LlmStream.get, if_pos hreg, hitems]
    cases x with
    | result r' => exact ⟨1, Nat.succ_le_succ (Nat.zero_le _), _, by rw [gets, hget]; rfl, rfl⟩
    | delta d =>
      obtain ⟨n, hn, s', hgets, hover⟩ := ih (h.get hget) rfl hfinal rfl
      exact ⟨n + 1, Nat.succ_le_succ hn, s', by rw [gets, hget]; exact hgets, hover⟩

/-- What a stream does for its iteration. -/
structure Terminates (s : LlmStream D R) : Prop where
  /-- It sees some of the deltas in their order, and then at most the result that has come. -/
  seen : ∃ ds : List D, ds.Sublist s.deltas ∧ (s.seen = ds.map .delta ∨
    ∃ r, s.final = some r ∧ s.seen = ds.map .delta ++ [.result r])
  /-- The result is never dropped: it has been seen, or it waits, and not twice. -/
  kept : ∀ r, s.final = some r → (s.seen ++ s.queue.items).filterMap LlmItem.result? = [r]
  /-- Reading on, the iteration comes to the result. -/
  ends : ∀ r, s.final = some r → s.registered = true →
    ∃ n ≤ s.queue.items.length, ∃ (s' : LlmStream D R) (ds : List D), gets n s = some s' ∧
      ds.Sublist s'.deltas ∧ s'.seen = ds.map .delta ++ [.result r]
  /-- The eviction loop ends, however many rounds it is given beyond those it needs. -/
  evicts : ∀ r rounds, s.queue.items.length < rounds → (s.handleResult rounds r).isSome = true

theorem gets_inv (h : s.Inv) (hgets : gets n s = some s') : s'.Inv ∧ s'.final = s.final := by
  induction n generalizing s with
  | zero =>
    obtain rfl := Option.some.inj hgets
    exact ⟨h, rfl⟩
  | succ n ih =>
    obtain ⟨s₁, hget, hrest⟩ := Option.bind_eq_some_iff.1 hgets
    obtain ⟨hinv, hfinal⟩ := ih (h.get hget) hrest
    refine ⟨hinv, hfinal.trans ?_⟩
    rw [LlmStream.get] at hget
    split_ifs at hget
    split at hget
    · cases hget
    · obtain rfl := Option.some.inj hget
      rfl

theorem Inv.seen_of_ended (h : s.Inv) (hover : s.registered = false) :
    ∃ (ds : List D) (r : R), ds.Sublist s.deltas ∧ s.final = some r ∧
      s.seen = ds.map .delta ++ [.result r] := by
  obtain ⟨ds, r, hseen⟩ := h.ended hover
  have hdeltas := h.deltas
  have hresult := h.result
  rw [hseen] at hdeltas hresult
  have hmap : (ds.map LlmItem.delta).filterMap (LlmItem.delta? (R := R)) = ds := by
    simp [List.filterMap_map, Function.comp_def, LlmItem.delta?]
  have hnone : (ds.map LlmItem.delta).filterMap (LlmItem.result? (R := R)) = [] := by
    simp [LlmItem.result?]
  refine ⟨ds, r, ?_, ?_, hseen⟩
  · rw [List.filterMap_append, List.filterMap_append, hmap, List.append_assoc] at hdeltas
    exact (List.sublist_append_left _ _).trans hdeltas
  · rw [List.filterMap_append, List.filterMap_append, hnone] at hresult
    cases hf : s.final with
    | none => rw [hf] at hresult; cases hresult
    | some r' =>
      rw [hf] at hresult
      exact congrArg some (List.cons.inj hresult).1.symm

theorem Inv.terminates (h : s.Inv) : s.Terminates where
  seen := by
    cases hreg : s.registered with
    | true =>
      have hdeltas := h.deltas
      rw [List.filterMap_append] at hdeltas
      exact ⟨_, (List.sublist_append_left _ _).trans hdeltas, .inl (eq_map_delta (h.going hreg))⟩
    | false =>
      obtain ⟨ds, r, hsub, hfinal, hseen⟩ := h.seen_of_ended hreg
      exact ⟨ds, hsub, .inr ⟨r, hfinal, hseen⟩⟩
  kept r hfinal := by rw [h.result, hfinal]; rfl
  ends r hfinal hreg := by
    obtain ⟨n, hn, s', hgets, hover⟩ := exists_gets_end h hreg hfinal
    obtain ⟨hinv, hsame⟩ := gets_inv h hgets
    obtain ⟨ds, r', hsub, hfinal', hseen⟩ := hinv.seen_of_ended hover
    obtain rfl : r' = r := Option.some.inj (hfinal'.symm.trans (hsame.trans hfinal))
    exact ⟨n, hn, s', ds, hgets, hsub, hseen⟩
  evicts r rounds hrounds := by
    rw [LlmStream.handleResult]
    split_ifs
    · rw [Option.isSome_map]
      exact BoundedQueue.putEvicting_isSome hrounds
    · rfl

end LlmStream

open LlmStream

/-- **A stream comes to its end.**  Whatever the size of its queue, and however deltas, the result
and reads come after one another, the iteration sees deltas in their order and then the result,
which is never dropped and comes once. -/
theorem llm_stream_terminates {maxsize : ℕ} {s : LlmStream D R}
    (h : (system D R maxsize).Reaches (fun s e => LlmStream.allowed s e = true) s) :
    s.Terminates :=
  ((inv_invariant maxsize).of_reaches h).terminates

/-- The result takes the place of a delta in a queue of one. -/
theorem llm_stream_terminates_full : ∃ s : LlmStream ℕ ℕ, s.Terminates ∧
    s.deltas = [1, 2] ∧ s.seen = [.result 3] := by
  have hrun : ((system ℕ ℕ 1).run LlmStream.allowed (system ℕ ℕ 1).init
      [.delta 1, .delta 2, .result 3, .get]).map (fun s => (s.deltas, s.seen)) =
        some ([1, 2], [.result 3]) := by
    decide +kernel
  obtain ⟨s, hs, h⟩ := Option.map_eq_some_iff.1 hrun
  obtain ⟨hdeltas, hseen⟩ := Prod.mk.inj h
  exact ⟨s, llm_stream_terminates (.of_run (fun _ _ h => h) hs), hdeltas, hseen⟩

end Backplane
