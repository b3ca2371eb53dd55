import Backplane.Llm.FallbackChain

/-!
# Setting up a stream

The deltas of a streamed call are handed on as they come, so it does not fall back on other presets.
Until the first delta it may be set up again; the consumer is told so.

* `generateStreamWithSetupRetry` : the generator.
* `setup_retries` : when it sets the stream up again, and how it ends.
-/

namespace Backplane

open Concur Prog Discipline Attempts

/-- `RETRIABLE_LLM_CODES` -/
def retriableLlmCodes : List String :=
  ["upstream_timeout", "upstream_rate_limited", "upstream_unavailable", "auth_lookup_failed",
    "internal_error"]

/-- What the iterator of an adapter answers. -/
inductive Pulled (ε D : Type)
  | delta (d : D)
  | stopped
  | raised (exc : ε)

/-- What the generator does.  The consumer resumes it after a delta, or closes it. -/
inductive StreamAct (ε D : Type) : Type → Type 1
  | aclose : StreamAct ε D Unit
  /-- `adapter.generate` -/
  | generate : StreamAct ε D (Except ε Unit)
  /-- `iterator.__anext__`, for the first delta. -/
  | first : StreamAct ε D (Pulled ε D)
  /-- The same, for those that follow. -/
  | next : StreamAct ε D (Pulled ε D)
  | yieldMeta (attempt maxAttempts : ℕ) (hint : RetryHint) : StreamAct ε D Bool
  | yieldDelta (d : D) : StreamAct ε D Bool
  | sleep (attemptIdx : ℕ) (retryAfterSeconds : Option ℚ) : StreamAct ε D Unit

/-- How the generator ends, if it does not return. -/
inductive StreamError (ε : Type)
  /-- What `adapter.generate` raised, as it is. -/
  | raw (exc : ε)
  /-- `LlmUpstreamError` -/
  | upstream (hint : RetryHint) (cause : ε)
  /-- `StreamInterrupted` -/
  | interrupted (afterNDeltas : ℕ) (upstreamClass : String) (cause : ε)
  | closed
  /-- It is still running after as many deltas as are followed. -/
  | unfinished

/-- Generators of deltas. -/
abbrev DeltaStream (ε D : Type) := ExceptT (StreamError ε) (Prog (StreamAct ε D))

section

variable {ε D : Type} (classifier : Option (ε → Option RetryHint))

/-- Yield, and go on if the consumer does. -/
def yielding (a : StreamAct ε D Bool) (rest : DeltaStream ε D Unit) : DeltaStream ε D Unit := do
  if ← ExceptT.lift (perform a) then rest else throw .closed

/-- The deltas after the first. -/
def relayDeltas : ℕ → ℕ → DeltaStream ε D Unit
  | 0, _ => throw .unfinished
  | fuel + 1, n => do
    match ← ExceptT.lift (perform .next) with
    | .stopped => pure ()
    | .raised exc => throw (.interrupted n (safeClassify classifier exc).upstreamClass exc)
    | .delta d => yielding (.yieldDelta d) (relayDeltas fuel (n + 1))

/-- One attempt; the rest of the loop decides about an error before the first delta. -/
def setUpOnce (fuel : ℕ) (rest : RetryHint → ε → DeltaStream ε D Unit) : DeltaStream ε D Unit := do
  match ← ExceptT.lift (perform .generate) with
  -- outside of the `try`
  | .error exc => throw (.raw exc)
  | .ok () =>
    match ← ExceptT.lift (perform .first) with
    | .stopped => pure ()
    | .raised exc => rest (safeClassify classifier exc) exc
    | .delta d => yielding (.yieldDelta d) (relayDeltas classifier fuel 1)

/-- After an error before the first delta: `again`, unless it is raised. -/
def retrySetUp (maxRetries idx : ℕ) (again : DeltaStream ε D Unit) (hint : RetryHint) (exc : ε) :
    DeltaStream ε D Unit :=
  if idx < maxRetries ∧ hint.code ∈ retriableLlmCodes then
    yielding (.yieldMeta (idx + 1) (maxRetries + 1) hint) do
      ExceptT.lift (perform (.sleep idx hint.retryAfterSeconds))
      again
  else throw (.upstream hint exc)

/-- The attempts that are left. -/
def setUp (maxRetries fuel : ℕ) : ℕ → ℕ → DeltaStream ε D Unit
  | 0, _ => pure ()
  | left + 1, idx => do
    if idx ≠ 0 then ExceptT.lift (perform .aclose)
    setUpOnce classifier fuel (retrySetUp maxRetries idx (setUp maxRetries fuel left (idx + 1)))

/-- `_generate_stream_with_setup_retry`, as far as this many deltas after the first. -/
def generateStreamWithSetupRetry (preset : PresetFields) (fuel : ℕ) : DeltaStream ε D Unit :=
  setUp classifier (max 0 preset.maxRetries).toNat fuel ((max 0 preset.maxRetries).toNat + 1) 0

/-! ### When it is set up again -/

/-- How an attempt to set the stream up ends, if it yields no delta. -/
inductive Setup (ε : Type)
  | uncreated (exc : ε)
  | failed (hint : RetryHint) (exc : ε)
  | empty

/-- The attempts to set the stream up; what they yield is handed on to the consumer. -/
def setupAttempts : Attempts (StreamAct ε D) Unit (Setup ε) where
  begins
    | .generate => some ()
    | _ => none
  hands
    | .yieldDelta _ => true
    | _ => false
  ends
    | .generate, .error exc => some (.uncreated exc)
    | .first, .raised exc => some (.failed (safeClassify classifier exc) exc)
    | .first, .stopped => some .empty
    | _, _ => none
  again
    | .failed hint _ => hint.code ∈ retriableLlmCodes
    | _ => false

/-- How the generator ends: with the classified error of the last attempt, if that may not be made
again, or with a raw one if the stream was not even created. -/
def StreamEnds (maxRetries : ℕ) (q : Tally Unit (Setup ε)) : Except (StreamError ε) Unit → Prop
  | .ok () => q.handed = true ∨ q.last = some .empty
  | .error (.raw exc) => q.handed = false ∧ q.last = some (.uncreated exc)
  | .error (.upstream hint exc) => q.handed = false ∧ q.last = some (.failed hint exc) ∧
      (hint.code ∈ retriableLlmCodes → q.made.length = maxRetries + 1)
  | .error .closed => True
  | .error _ => q.handed = true

variable {classifier} {schedule : List Unit} {q : Tally Unit (Setup ε)} {maxRetries fuel idx : ℕ}

theorem obeys_yielding {a : StreamAct ε D Bool} {rest : DeltaStream ε D Unit}
    (ha : (setupAttempts classifier).begins a = none)
    (hrest : ((setupAttempts classifier).following schedule).Obeys
      ((setupAttempts classifier).next q a true) rest.run (StreamEnds maxRetries)) :
    ((setupAttempts classifier).following schedule).Obeys q (yielding a rest).run
      (StreamEnds maxRetries) := by
  rw [yielding, obeys_lift_bind]
  refine ⟨ok_of_neutral ha, fun resumed _ => ?_⟩
  cases resumed with
  | true => exact hrest
  | false => trivial

theorem obeys_relayDeltas {n : ℕ} (hq : q.handed = true) :
    ((setupAttempts classifier).following schedule).Obeys q
      (relayDeltas (D := D) classifier fuel n).run (StreamEnds maxRetries) := by
  induction fuel generalizing q n with
  | zero => exact hq
  | succ fuel ih =>
    rw [relayDeltas, obeys_lift_bind]
    refine ⟨ok_of_neutral rfl, fun pulled _ => ?_⟩
    rw [following_next, next_of_neutral rfl rfl rfl]
    cases pulled with
    | stopped => exact .inl hq
    | raised exc => exact hq
    | delta d => exact obeys_yielding rfl (ih (by rw [Attempts.next, hq]; rfl))

theorem obeys_setUpOnce {rest : RetryHint → ε → DeltaStream ε D Unit}
    (hnext : q.made ++ [()] <+: schedule) (hopen : (setupAttempts (D := D) classifier).Open q)
    (hrest : ∀ hint exc, ((setupAttempts classifier).following schedule).Obeys
      ⟨q.made ++ [()], some (.failed hint exc), false⟩ (rest hint exc).run (StreamEnds maxRetries)) :
    ((setupAttempts classifier).following schedule).Obeys q (setUpOnce classifier fuel rest).run
      (StreamEnds maxRetries) := by
  obtain ⟨made, last, handed⟩ := q
  obtain rfl : handed = false := hopen.1
  rw [setUpOnce, obeys_lift_bind]
  refine ⟨fun i hi => ?_, fun r _ => ?_⟩
  · obtain rfl := Option.some.inj hi
    exact ⟨hnext, hopen⟩
  · cases r with
    | error exc => exact ⟨rfl, rfl⟩
    | ok u =>
      cases u
      refine obeys_lift_bind.2 ⟨ok_of_neutral rfl, fun pulled _ => ?_⟩
      cases pulled with
      | stopped => exact .inr rfl
      | raised exc =>
        rw [following_next, next_of_ends rfl rfl rfl]
        exact hrest (safeClassify classifier exc) exc
      | delta d => exact obeys_yielding rfl (obeys_relayDeltas rfl)

theorem obeys_setUp {left : ℕ} {last : Option (Setup ε)} (hidx : idx ≤ maxRetries)
    (hleft : left + idx = maxRetries + 1)
    (hopen : (setupAttempts (D := D) classifier).Open ⟨List.replicate idx (), last, false⟩) :
    ((setupAttempts classifier).following (List.replicate (maxRetries + 1) ())).Obeys
      ⟨List.replicate idx (), last, false⟩ (setUp (D := D) classifier maxRetries fuel left idx).run
      (StreamEnds maxRetries) := by
  induction left generalizing idx last with
  | zero => omega
  | succ left ih =>
    have hmade : List.replicate idx () ++ [()] = List.replicate (idx + 1) () :=
      List.replicate_succ'.symm
    have hattempt : ((setupAttempts classifier).following (List.replicate (maxRetries + 1) ())).Obeys
        ⟨List.replicate idx (), last, false⟩ (setUpOnce (D := D) classifier fuel
          (retrySetUp maxRetries idx (setUp classifier maxRetries fuel left (idx + 1)))).run
        (StreamEnds maxRetries) := by
      refine obeys_setUpOnce ?_ hopen fun hint exc => ?_
      · rw [hmade, List.prefix_replicate_iff, List.length_replicate]
        exact ⟨by omega, rfl⟩
      · rw [hmade, retrySetUp]
        split_ifs with hretry
        · refine obeys_yielding rfl (obeys_lift_bind.2 ⟨ok_of_neutral rfl, fun _ _ => ?_⟩)
          rw [following_next, next_of_neutral rfl rfl rfl, next_of_neutral rfl rfl rfl]
          exact ih hretry.1 (by omega) ⟨rfl, .inr ⟨_, rfl, decide_eq_true hretry.2⟩⟩
        · refine ⟨rfl, rfl, fun hcode => ?_⟩
          rw [List.length_replicate]
          by_contra hne
          exact hretry ⟨by omega, hcode⟩
    rw [setUp]
    split_ifs
    · refine ⟨ok_of_neutral rfl, fun _ _ => ?_⟩
      rw [following_next, next_of_neutral rfl rfl rfl]
      exact hattempt
    · exact hattempt

variable {preset : PresetFields} {tr : List (Event (StreamAct ε D))}
  {p' : Prog (StreamAct ε D) (Except (StreamError ε) Unit)}

/-- **A stream is set up again only before its first delta**, after an error that allows it and at
most as often as the preset says; once a delta has been handed on there is no other attempt.  An
error before the first delta is raised with its class, except that of the creation of the stream. -/
theorem setup_retries
    (h : After (generateStreamWithSetupRetry classifier preset fuel).run tr p') :
    ((setupAttempts classifier).begun tr).length ≤ (max 0 preset.maxRetries).toNat + 1 ∧
    (setupAttempts classifier).Orderly tr ∧
    ∀ r, p' = .ret r →
      StreamEnds (max 0 preset.maxRetries).toNat ((setupAttempts classifier).tally tr) r := by
  have hp : ((setupAttempts classifier).following
      (List.replicate ((max 0 preset.maxRetries).toNat + 1) ())).Obeys {}
      (generateStreamWithSetupRetry (D := D) classifier preset fuel).run _ :=
    obeys_setUp (Nat.zero_le _) rfl ⟨rfl, .inl rfl⟩
  refine ⟨?_, orderly h hp, ?_⟩
  · simpa using (begun_scheduled h hp).length_le
  · rintro r rfl
    exact fin_tally h hp

end

/-- Every error is a rate limit. -/
def Sample.rateLimited : Option (Unit → Option RetryHint) :=
  some fun _ => some { code := "upstream_rate_limited" }

/-- The first attempt fails, and the second one yields a delta. -/
def Sample.retriedStream : List (Event (StreamAct Unit ℕ)) :=
  [⟨.generate, .ok ()⟩, ⟨.first, .raised ()⟩,
    ⟨.yieldMeta 1 2 { code := "upstream_rate_limited" }, true⟩, ⟨.sleep 0 none, ()⟩, ⟨.aclose, ()⟩,
    ⟨.generate, .ok ()⟩, ⟨.first, .delta 5⟩, ⟨.yieldDelta 5, true⟩, ⟨.next, .stopped⟩]

theorem setup_retries_once :
    ((setupAttempts Sample.rateLimited).begun Sample.retriedStream).length ≤ 2 ∧
      (setupAttempts Sample.rateLimited).Orderly Sample.retriedStream ∧
      StreamEnds 1 ((setupAttempts Sample.rateLimited).tally Sample.retriedStream) (.ok ()) := by
  have hrun : After (generateStreamWithSetupRetry Sample.rateLimited Sample.primary 1).run
      Sample.retriedStream (.ret (.ok ())) :=
    .cons (.cons (.cons (.cons (.cons (.cons (.cons (.cons (.cons (.nil _)))))))))
  have h := setup_retries hrun
  exact ⟨h.1, h.2.1, h.2.2 _ rfl⟩

end Backplane
