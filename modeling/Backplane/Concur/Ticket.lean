import Backplane.Concur.Pool

/-!
# Tickets

A ticket is issued, lies open, and is spent once: an invitation, a request that waits for a decision,
a token that can be redeemed.

* `Tickets` : which tickets are open in a state, and which events issue and spend them.
* `Tickets.Step` : what one event may do to a ticket.
* `TicketState` : not issued, open, or spent exactly once.
* `Tickets.Step.of_iff` : a step by what is open after it.
* `Tickets.of_run` : if every event keeps to `Step`, every ticket is in one of these states in every
  run.
-/

namespace Backplane.Concur

variable {A : Type → Type 1} {E S C R K V : Type}

/-- How tickets `K` show in a system; a `V` is a way to spend one. -/
structure Tickets (A : Type → Type 1) (S K V : Type) where
  /-- The ticket can be spent. -/
  isOpen : S → K → Prop
  /-- The ticket the event issues, or finds open. -/
  issues : Event A → Option K
  /-- The ticket the event spends, and how. -/
  spends : Event A → Option (K × V)

/-- Where a ticket is. -/
inductive TicketState (issued isOpen : Prop) (spent : List V) : Prop
  /-- It was never issued. -/
  | fresh (hi : ¬ issued) (ho : ¬ isOpen) (hs : spent = [])
  /-- It lies open. -/
  | waiting (hi : issued) (ho : isOpen) (hs : spent = [])
  | spent (hi : issued) (ho : ¬ isOpen) (v : V) (hs : spent = [v])

namespace Tickets

variable (T : Tickets A S K V)

/-- The ticket was open at the start, or an event has issued it. -/
def Issued (s₀ : S) (log : Log A) (k : K) : Prop :=
  T.isOpen s₀ k ∨ ∃ x ∈ log, T.issues x.2 = some k

instance [DecidableEq K] (s₀ : S) (log : Log A) (k : K) [Decidable (T.isOpen s₀ k)] :
    Decidable (T.Issued s₀ log k) :=
  inferInstanceAs (Decidable (T.isOpen s₀ k ∨ ∃ x ∈ log, T.issues x.2 = some k))

/-- How the ticket was spent. -/
def spent [DecidableEq K] (log : Log A) (k : K) : List V :=
  log.filterMap fun x => (T.spends x.2).bind fun p => if p.1 = k then some p.2 else none

/-- What an event may do to a ticket: issue one that is new, or find it open; spend one that is open;
or leave it. -/
structure Step (s₀ s s' : S) (log : Log A) (x : Event A) (k : K) : Prop where
  /-- What is issued was open or new, and is open. -/
  issue : T.issues x = some k → T.isOpen s' k ∧ (T.isOpen s k ∨ ¬ T.Issued s₀ log k)
  /-- What is spent was open and no longer is. -/
  spend : ∀ v, T.spends x = some (k, v) → T.isOpen s k ∧ ¬ T.isOpen s' k
  /-- Everything else is as it was. -/
  keep : T.issues x ≠ some k → (∀ v, T.spends x ≠ some (k, v)) → (T.isOpen s' k ↔ T.isOpen s k)

variable {T} {s₀ s s' : S} {log : Log A} {i : ℕ} {x : Event A} {k : K}

theorem issued_snoc :
    T.Issued s₀ (log ++ [(i, x)]) k ↔ T.Issued s₀ log k ∨ T.issues x = some k := by
  simp only [Issued, List.mem_append, List.mem_singleton, or_and_right, exists_or, or_assoc,
    exists_eq_left]

variable [DecidableEq K]

theorem spent_snoc : T.spent (log ++ [(i, x)]) k =
    T.spent log k ++ ((T.spends x).bind fun p => if p.1 = k then some p.2 else none).toList := by
  rw [spent, List.filterMap_append]
  cases h : (T.spends x).bind fun p => if p.1 = k then some p.2 else none with
  | none => simp [spent, h]
  | some v => simp [spent, h]

/-- What is open afterwards was issued, or was open before and has not been spent. -/
theorem Step.of_iff
    (h : T.isOpen s' k ↔ T.issues x = some k ∨ T.isOpen s k ∧ ∀ v, T.spends x ≠ some (k, v))
    (hissue : T.issues x = some k → T.isOpen s k ∨ ¬ T.Issued s₀ log k)
    (hspend : ∀ v, T.spends x = some (k, v) → T.isOpen s k ∧ T.issues x ≠ some k) :
    T.Step s₀ s s' log x k := by
  constructor
  · intro hi
    exact ⟨h.2 (.inl hi), hissue hi⟩
  · intro v hv
    refine ⟨(hspend v hv).1, fun ho => ?_⟩
    rcases h.1 ho with hi | ⟨-, hno⟩
    · exact (hspend v hv).2 hi
    · exact hno v hv
  · intro hi hv
    rw [h, or_iff_right hi, and_iff_left hv]

/-- One event keeps a ticket in its states. -/
theorem Step.state (h : T.Step s₀ s s' log x k)
    (hk : TicketState (T.Issued s₀ log k) (T.isOpen s k) (T.spent log k)) :
    TicketState (T.Issued s₀ (log ++ [(i, x)]) k) (T.isOpen s' k)
      (T.spent (log ++ [(i, x)]) k) := by
  rw [issued_snoc, spent_snoc]
  by_cases hs : ∃ v, T.spends x = some (k, v)
  · obtain ⟨v, hv⟩ := hs
    obtain ⟨hopen, hclosed⟩ := h.spend v hv
    cases hk with
    | waiting hi _ hn => exact .spent (.inl hi) hclosed v (by simp [hn, hv])
    | fresh _ ho => exact absurd hopen ho
    | spent _ ho => exact absurd hopen ho
  · have hnone : (T.spends x).bind (fun p => if p.1 = k then some p.2 else none) = none := by
      rw [Option.bind_eq_none_iff]
      rintro ⟨k', v⟩ hv
      refine if_neg fun he : k' = k => hs ⟨v, ?_⟩
      rw [hv, he]
    rw [hnone, Option.toList_none, List.append_nil]
    by_cases hi : T.issues x = some k
    · obtain ⟨hopen, hor⟩ := h.issue hi
      refine .waiting (.inr hi) hopen ?_
      cases hk with
      | fresh _ _ hn => exact hn
      | waiting _ _ hn => exact hn
      | spent hiss ho => exact (hor.elim ho fun hnew => hnew hiss).elim
    · have hkeep := h.keep hi fun v hv => hs ⟨v, hv⟩
      rw [hkeep, or_iff_left hi]
      exact hk

/-- **In every run a ticket was never issued, or is open, or was spent exactly once.** -/
theorem of_run {M : Machine A E S C R} {g : Guard A E S C R} {P : Pool A S C R}
    (h : Run M g (.init s₀) P)
    (hstep : ∀ {Q : Pool A S C R} {i : ℕ} {c : C} {β : Type} {a : A β} {e : E} {s : S} {b : β},
      Run M g (.init s₀) Q → g.fire Q i c a e → M.exec a e Q.shared = some (s, b) →
      ∀ k, T.Step s₀ Q.shared s Q.log ⟨a, b⟩ k) (k : K) :
    TicketState (T.Issued s₀ P.log k) (T.isOpen P.shared k) (T.spent P.log k) := by
  induction h with
  | refl =>
    have hiss : T.Issued s₀ [] k ↔ T.isOpen s₀ k := by simp [Issued]
    by_cases ho : T.isOpen s₀ k
    · exact .waiting (hiss.2 ho) ho rfl
    · exact .fresh (fun hi => ho (hiss.1 hi)) ho rfl
  | start _ _ _ ih => exact ih
  | step hrun _ hg he ih => exact (hstep hrun hg he k).state ih

theorem mem_spent {y : ℕ × Event A} {v : V} (hy : y ∈ log) (hv : T.spends y.2 = some (k, v)) :
    v ∈ T.spent log k := by
  refine List.mem_filterMap.2 ⟨y, hy, ?_⟩
  rw [hv, Option.bind_some, if_pos rfl]

/-- Whoever has spent a ticket is the only one. -/
theorem spent_eq {issued isOpen : Prop} {v : V}
    (hk : TicketState issued isOpen (T.spent log k)) {y : ℕ × Event A} (hy : y ∈ log)
    (hv : T.spends y.2 = some (k, v)) : T.spent log k = [v] := by
  have hmem := mem_spent hy hv
  cases hk with
  | fresh _ _ hs => exact absurd hmem (by simp [hs])
  | waiting _ _ hs => exact absurd hmem (by simp [hs])
  | spent _ _ w hs =>
    rw [hs] at hmem ⊢
    rw [List.mem_singleton.1 hmem]

end Tickets

end Backplane.Concur
