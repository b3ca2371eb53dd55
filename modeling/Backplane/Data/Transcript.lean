import Mathlib.Data.List.Induction

/-!
# Transcripts

In a transcript turns are taken; a turn may ask, and what it asks is replied to by the entries after
it.

* `Entry`, `block` : a turn with what it asks, and a reply; a turn with its replies.
* `Complete` : every question of every turn has its one reply, in order, before the next turn.
* `pending` : what is still to be replied to, if nothing has gone wrong yet.
* `complete_iff_pending` : a transcript is complete if nothing is pending.
-/

namespace Backplane.Transcript

variable {κ : Type}

/-- An entry of a transcript. -/
inductive Entry (κ : Type)
  /-- A turn, which asks these questions. -/
  | turn (asks : List κ)
  | reply (k : κ)
  deriving DecidableEq, Repr

/-- A turn with its replies. -/
def block (asks : List κ) : List (Entry κ) := .turn asks :: asks.map .reply

/-- Every question of every turn has its one reply, in order, before the next turn. -/
def Complete (es : List (Entry κ)) : Prop := ∃ turns : List (List κ), es = turns.flatMap block

/-- Turns that ask nothing need no replies. -/
theorem complete_of_plain {es : List (Entry κ)} (h : ∀ e ∈ es, e = .turn []) : Complete es := by
  induction es with
  | nil => exact ⟨[], rfl⟩
  | cons e es ih =>
    obtain ⟨turns, hturns⟩ := ih fun e he => h e (List.mem_cons_of_mem _ he)
    refine ⟨[] :: turns, ?_⟩
    rw [h e List.mem_cons_self, hturns]
    rfl

section

variable [DecidableEq κ] {es es' : List (Entry κ)} {asks : List κ} {k : κ}

/-- What is pending after one entry more. -/
def step (asks : List κ) : Entry κ → Option (List κ)
  | .turn new => if asks = [] then some new else none
  | .reply k =>
    match asks with
    | [] => none
    | a :: rest => if k = a then some rest else none

/-- What is still to be replied to; `none`: a reply is wrong, or a turn came too early. -/
def pending (es : List (Entry κ)) : Option (List κ) := es.foldlM step []

theorem pending_append : pending (es ++ es') = (pending es).bind fun asks => es'.foldlM step asks := by
  rw [pending, List.foldlM_append]
  rfl

theorem pending_concat {e : Entry κ} : pending (es ++ [e]) = (pending es).bind (step · e) := by
  rw [pending_append]
  cases pending es with
  | none => rfl
  | some asks => simp

/-- Replies are awaited in order. -/
theorem foldlM_replies (replies rest : List κ) :
    (replies.map Entry.reply).foldlM step (replies ++ rest) = some rest := by
  induction replies with
  | nil => rfl
  | cons k replies ih => simpa [step] using ih

theorem foldlM_block : (block asks).foldlM step [] = some [] := by
  have := foldlM_replies asks []
  rw [List.append_nil] at this
  simpa [block, step] using this

theorem pending_flatMap (turns : List (List κ)) : pending (turns.flatMap block) = some [] := by
  induction turns with
  | nil => rfl
  | cons asks turns ih =>
    rw [List.flatMap_cons, pending, List.foldlM_append, foldlM_block]
    exact ih

/-- What is pending are the questions of the last turn that have not been replied to. -/
theorem exists_of_pending (h : pending es = some asks) :
    (asks = [] ∧ Complete es) ∨ ∃ (turns : List (List κ)) (replied : List κ), es =
      turns.flatMap block ++ .turn (replied ++ asks) :: replied.map .reply := by
  induction es using List.reverseRecOn generalizing asks with
  | nil => exact .inl ⟨(Option.some.inj h).symm, [], rfl⟩
  | append_singleton es e ih =>
    rw [pending_concat, Option.bind_eq_some_iff] at h
    obtain ⟨before, hbefore, hstep⟩ := h
    cases e with
    | turn new =>
      simp only [step] at hstep
      split at hstep
      · rename_i hnone
        subst hnone
        obtain rfl := Option.some.inj hstep
        refine .inr ?_
        obtain ⟨-, turns, rfl⟩ | ⟨turns, replied, rfl⟩ := ih hbefore
        · exact ⟨turns, [], rfl⟩
        · refine ⟨turns ++ [replied], [], ?_⟩
          simp [block]
      · cases hstep
    | reply k =>
      cases before with
      | nil => cases hstep
      | cons a rest =>
        simp only [step] at hstep
        split at hstep
        · rename_i hk
          subst hk
          obtain rfl := Option.some.inj hstep
          obtain ⟨hnil, -⟩ | ⟨turns, replied, rfl⟩ := ih hbefore
          · cases hnil
          · refine .inr ⟨turns, replied ++ [k], ?_⟩
            simp
        · cases hstep

/-- **A transcript is complete exactly if nothing is pending.** -/
theorem complete_iff_pending : Complete es ↔ pending es = some [] := by
  constructor
  · rintro ⟨turns, rfl⟩
    exact pending_flatMap turns
  · intro h
    obtain ⟨-, hc⟩ | ⟨turns, replied, rfl⟩ := exists_of_pending h
    · exact hc
    · refine ⟨turns ++ [replied], ?_⟩
      simp [block]

instance : Decidable (Complete es) := decidable_of_iff _ complete_iff_pending.symm

/-- A turn that comes too early spoils a transcript. -/
theorem pending_turn : pending (es ++ [.turn asks]) = if Complete es then some asks else none := by
  rw [pending_concat]
  cases h : pending es with
  | none => rw [if_neg (by rw [complete_iff_pending, h]; simp)]; rfl
  | some before =>
    by_cases hnil : before = []
    · subst hnil
      rw [if_pos (complete_iff_pending.2 h)]
      rfl
    · rw [if_neg (by rw [complete_iff_pending, h]; simpa using hnil)]
      simp [step, hnil]

/-- One reply completes a transcript if just its question is pending. -/
theorem complete_reply (h : pending es = some asks) :
    Complete (es ++ [.reply k]) ↔ asks = [k] := by
  rw [complete_iff_pending, pending_concat, h, Option.bind_some]
  cases asks with
  | nil => simp [step]
  | cons a rest =>
    by_cases hk : k = a
    · simp [step, hk]
    · simp [step, hk, Ne.symm hk]

/-- A turn with its replies changes nothing. -/
theorem complete_append_block (asks : List κ) : Complete (es ++ block asks) ↔ Complete es := by
  rw [complete_iff_pending, complete_iff_pending, pending_append]
  constructor
  · intro h
    obtain ⟨before, hbefore, hrest⟩ := Option.bind_eq_some_iff.1 h
    cases before with
    | nil => exact hbefore
    | cons a rest => simp [block, step] at hrest
  · intro h
    rw [h, Option.bind_some, foldlM_block]

end

end Backplane.Transcript
