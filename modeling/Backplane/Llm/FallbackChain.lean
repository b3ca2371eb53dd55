import Backplane.Concur.Attempts
import Backplane.Llm.PresetPolicy

/-!
# Calling a model

A call that fails is made again, as often as its preset says, and then with the preset that this one
falls back on.  Presets that the caller may not use are passed over, and so are those of another
provider when the conversation has ids of tool calls.

* `walkFallbackChain` : the presets to try; `fallbacksEnd_iff_leads` : when that is all of them.
* `LlmService.callWithFallback` : the call; `LlmService.schedule` : the attempts it may make.
* `callWithFallback_congr` : when the level of the caller does not matter.
* `attempts_scheduled`, `attempted_allowed` : what a call attempts, and what it answers.
* `served_chains_whole` : requests that change presets never lead a call in a circle.
-/

namespace Backplane

open Concur Prog Discipline Attempts

/-! ### The chain -/

/-- `walk_fallback_chain`, past the presets that were seen. -/
def walkFrom (presets : Table String PresetFields) :
    ℕ → List String → Option String → List (String × PresetFields)
  | 0, _, _ => []
  | _ + 1, _, none => []
  | fuel + 1, seen, some cur =>
    match presets.lookup cur with
    | none => []
    | some preset =>
      if cur ∈ seen then []
      else (cur, preset) :: walkFrom presets fuel (cur :: seen) preset.fallbackPreset

/-- `walk_fallback_chain`; no more presets are seen than there are. -/
def walkFallbackChain (presets : Table String PresetFields) (start : String) :
    List (String × PresetFields) :=
  walkFrom presets (presets.keys.length + 1) [] (some start)

/-- `chain_needs_tier` -/
def LlmService.chainNeedsTier (svc : LlmService) (name : String) : Bool :=
  (svc.presets.lookup name).isSome &&
    (walkFallbackChain svc.presets name).any fun x => x.2.minUserLevel ≠ "*"

variable {presets : Table String PresetFields} {fuel : ℕ} {seen : List String} {cur : Option String}
  {x : String × PresetFields}

theorem mem_walkFrom (h : x ∈ walkFrom presets fuel seen cur) :
    presets.lookup x.1 = some x.2 ∧ x.1 ∉ seen := by
  induction fuel generalizing seen cur with
  | zero => cases h
  | succ fuel ih =>
    cases cur with
    | none => cases h
    | some cur =>
      rw [walkFrom] at h
      split at h
      · cases h
      · rename_i preset hlookup
        split_ifs at h with hseen
        · cases h
        · rcases List.mem_cons.1 h with rfl | h
          · exact ⟨hlookup, hseen⟩
          · exact ⟨(ih h).1, fun hmem => (ih h).2 (List.mem_cons_of_mem _ hmem)⟩

theorem nodup_walkFrom : ((walkFrom presets fuel seen cur).map Prod.fst).Nodup := by
  induction fuel generalizing seen cur with
  | zero => exact List.nodup_nil
  | succ fuel ih =>
    cases cur with
    | none => exact List.nodup_nil
    | some cur =>
      rw [walkFrom]
      split
      · exact List.nodup_nil
      · split_ifs
        · exact List.nodup_nil
        · refine List.nodup_cons.2 ⟨fun hmem => ?_, ih⟩
          obtain ⟨x, hx, rfl⟩ := List.mem_map.1 hmem
          exact (mem_walkFrom hx).2 List.mem_cons_self

/-- The presets follow one another as fallbacks, and the last has none that is known. -/
inductive Leads (presets : Table String PresetFields) :
    Option String → List (String × PresetFields) → Prop
  | none : Leads presets none []
  | unknown {n : String} (h : presets.lookup n = none) : Leads presets (some n) []
  | next {n : String} {p : PresetFields} {chain : List (String × PresetFields)}
      (h : presets.lookup n = some p) (hrest : Leads presets p.fallbackPreset chain) :
      Leads presets (some n) ((n, p) :: chain)

theorem Leads.chainEnds {n : String} {chain : List (String × PresetFields)}
    (h : Leads presets (some n) chain) : ChainEnds presets n := by
  generalize hcur : some n = cur at h
  induction h generalizing n with
  | none => cases hcur
  | unknown h =>
    obtain rfl := Option.some.inj hcur
    exact .of_none (fallbackOf_of_none h)
  | @next m p chain h hrest ih =>
    obtain rfl := Option.some.inj hcur
    have hpar : fallbackOf presets n = p.fallbackPreset := by rw [fallbackOf, h]; rfl
    cases hnext : p.fallbackPreset with
    | none => exact .of_none (hpar.trans hnext)
    | some next =>
      obtain ⟨k, hk⟩ := ih hnext.symm
      exact ⟨_, .child (hpar.trans hnext) hk⟩

theorem leads_walkFrom (hacyclic : Acyclic (fallbackOf presets)) (hnodup : seen.Nodup)
    (hkeys : ∀ n ∈ seen, n ∈ presets.keys)
    (hseen : ∀ n, cur = some n → ∀ x ∈ seen, Forest.Below (fallbackOf presets) n x)
    (hfuel : presets.keys.length < fuel + seen.length) :
    Leads presets cur (walkFrom presets fuel seen cur) := by
  induction fuel generalizing seen cur with
  | zero =>
    have hle := (List.subperm_of_subset hnodup hkeys).length_le
    omega
  | succ fuel ih =>
    cases cur with
    | none => exact .none
    | some n =>
      rw [walkFrom]
      cases hlookup : presets.lookup n with
      | none => exact .unknown hlookup
      | some p =>
        have hn : n ∉ seen := fun hmem => hacyclic n (hseen n rfl n hmem)
        have hmem : n ∈ presets.keys :=
          AList.mem_keys.1 (AList.lookup_isSome.1 (by rw [hlookup]; rfl))
        dsimp only
        rw [if_neg hn]
        refine .next hlookup (ih (List.nodup_cons.2 ⟨hn, hnodup⟩)
          (List.forall_mem_cons.2 ⟨hmem, hkeys⟩) (fun next hnext => ?_) ?_)
        · have hpar : fallbackOf presets n = some next := by rw [fallbackOf, hlookup]; exact hnext
          exact List.forall_mem_cons.2 ⟨.single hpar,
            fun x hx => (Forest.Below.single hpar).trans (hseen n rfl x hx)⟩
        · rw [List.length_cons]
          omega

theorem Acyclic.leads (hacyclic : Acyclic (fallbackOf presets)) (start : String) :
    Leads presets (some start) (walkFallbackChain presets start) :=
  leads_walkFrom hacyclic List.nodup_nil (fun _ h => absurd h List.not_mem_nil)
    (fun _ _ _ h => absurd h List.not_mem_nil) (Nat.lt_succ_self _)

/-- **The check for circles passes exactly when every walk is whole**: each preset falls back on the
next, and the last on none that is known.  In any case a walk visits no preset twice. -/
theorem fallbacksEnd_iff_leads :
    (∀ start, ((walkFallbackChain presets start).map Prod.fst).Nodup ∧
      ∀ x ∈ walkFallbackChain presets start, presets.lookup x.1 = some x.2) ∧
    (fallbacksEnd presets = true ↔
      ∀ start, Leads presets (some start) (walkFallbackChain presets start)) := by
  refine ⟨fun start => ⟨nodup_walkFrom, fun x hx => (mem_walkFrom hx).1⟩, fallbacksEnd_iff.trans
    ⟨fun h start => h.leads start, fun h n hbelow => ?_⟩⟩
  obtain ⟨k, hk⟩ := (h n).chainEnds
  exact hk.not_below_self hbelow

/-! ### The call -/

/-- `RetryHint` -/
structure RetryHint where
  code : String := "internal_error"
  retryAfterSeconds : Option ℚ := none
  upstreamClass : String := ""
  deriving DecidableEq, Repr

/-- `safe_classify`; an adapter may be missing, or unable to tell. -/
def safeClassify {ε : Type} (classifier : Option (ε → Option RetryHint)) (exc : ε) : RetryHint :=
  (classifier.bind fun classify => classify exc).getD {}

/-- `PresetUnknownError`, `PresetNotAllowedError` -/
inductive PresetRefusal
  | unknown (name : String)
  | notAllowed (name : String) (userLevel : Option String) (required : String)
  deriving DecidableEq, Repr

/-- How a call fails. -/
inductive CallError (ε : Type)
  | preset (e : PresetRefusal)
  /-- `LlmUpstreamError`, raised from the last error. -/
  | upstream (hint : RetryHint) (cause : ε)

/-- What an attempt comes to. -/
inductive Attempted (ε V : Type)
  | returned (v : V)
  | refused (e : PresetRefusal)
  | raised (exc : ε)

/-- What a call does: it builds the adapter of a preset, makes an attempt, and waits. -/
inductive LlmCallAct (ε V : Type) : Type → Type 1
  | resolveOne (preset : String) : LlmCallAct ε V (Option (ε → Option RetryHint))
  | attempt (preset : String) : LlmCallAct ε V (Attempted ε V)
  | sleep (attemptIdx : ℕ) (retryAfterSeconds : Option ℚ) : LlmCallAct ε V Unit

/-- Programs that call models. -/
abbrev LlmCall (ε V : Type) := ExceptT (CallError ε) (Prog (LlmCallAct ε V))

namespace PresetFields

/-- `attempts_for_this_preset` -/
def attempts (p : PresetFields) : ℕ := (max 0 p.maxRetries + 1).toNat

/-- Whether `_call_with_fallback` passes over the preset. -/
def isSkipped (rootProvider : String) (level : Option String) (hasToolCallHistory : Bool) (idx : ℕ)
    (p : PresetFields) : Bool :=
  decide (0 < idx) && (!userLevelSatisfies level p.minUserLevel ||
    (hasToolCallHistory && p.provider ≠ rootProvider))

end PresetFields

section

variable {ε V : Type}

/-- The attempts on a preset that are left; answers with the result, or with the last error. -/
def attemptsOn (name : String) (adapterForClassify : Option (ε → Option RetryHint)) :
    ℕ → ℕ → Option (RetryHint × ε) → LlmCall ε V (V ⊕ Option (RetryHint × ε))
  | 0, _, last => pure (.inr last)
  | left + 1, idx, _ => do
    match ← ExceptT.lift (perform (.attempt name)) with
    | .returned v => pure (.inl v)
    | .refused e => throw (.preset e)
    | .raised exc =>
      let hint := safeClassify adapterForClassify exc
      -- there is no wait before the next preset
      if left ≠ 0 then ExceptT.lift (perform (.sleep idx hint.retryAfterSeconds))
      attemptsOn name adapterForClassify left (idx + 1) (some (hint, exc))

/-- The presets of the chain that are left. -/
def tryPresets (name rootProvider : String) (level : Option String) (hasToolCallHistory : Bool) :
    ℕ → List (String × PresetFields) → Option (RetryHint × ε) → LlmCall ε V (String × V)
  | _, [], some (hint, exc) => throw (.upstream hint exc)
  | _, [], none => throw (.preset (.unknown name))
  | idx, (n, p) :: chain, last =>
    if p.isSkipped rootProvider level hasToolCallHistory idx then
      tryPresets name rootProvider level hasToolCallHistory (idx + 1) chain last
    else do
      let adapterForClassify ← ExceptT.lift (perform (.resolveOne n))
      match ← attemptsOn n adapterForClassify p.attempts 0 last with
      | .inl v => pure (n, v)
      | .inr last => tryPresets name rootProvider level hasToolCallHistory (idx + 1) chain last

/-- `_call_with_fallback` -/
def LlmService.callWithFallback (svc : LlmService) (name : String) (level : Option String)
    (hasToolCallHistory : Bool) : LlmCall ε V (String × V) :=
  match svc.presets.lookup name with
  | none => throw (.preset (.unknown name))
  | some first =>
    if userLevelSatisfies level first.minUserLevel then
      tryPresets name first.provider level hasToolCallHistory 0 (walkFallbackChain svc.presets name)
        none
    else throw (.preset (.notAllowed name level first.minUserLevel))

end

/-! ### The level of the caller -/

theorem tryPresets_congr {ε V : Type} {name root : String} {level level' : Option String}
    {history : Bool} {idx : ℕ} {chain : List (String × PresetFields)}
    {last : Option (RetryHint × ε)} (h : ∀ x ∈ chain, x.2.minUserLevel = "*") :
    (tryPresets name root level history idx chain last : LlmCall ε V (String × V)) =
      tryPresets name root level' history idx chain last := by
  induction chain generalizing idx last with
  | nil => cases last <;> rfl
  | cons x chain ih =>
    obtain ⟨hx, hchain⟩ := List.forall_mem_cons.1 h
    have hskip : x.2.isSkipped root level history idx = x.2.isSkipped root level' history idx := by
      simp [PresetFields.isSkipped, hx, userLevelSatisfies]
    simp only [tryPresets, hskip, ih hchain]

/-- **A call whose chain has no gate does not depend on the level of its caller**, which need not be
looked up. -/
theorem callWithFallback_congr {ε V : Type} {svc : LlmService} {name : String}
    (h : svc.chainNeedsTier name = false) (level level' : Option String) (history : Bool) :
    (svc.callWithFallback name level history : LlmCall ε V (String × V)) =
      svc.callWithFallback name level' history := by
  rw [LlmService.callWithFallback, LlmService.callWithFallback]
  cases hfirst : svc.presets.lookup name with
  | none => rfl
  | some first =>
    rw [LlmService.chainNeedsTier, hfirst, Option.isSome_some, Bool.true_and,
      List.any_eq_false] at h
    have hgate : ∀ x ∈ walkFallbackChain svc.presets name, x.2.minUserLevel = "*" :=
      fun x hx => by simpa using h x hx
    have hmem : (name, first) ∈ walkFallbackChain svc.presets name := by
      simp [walkFallbackChain, walkFrom, hfirst]
    have hstar : first.minUserLevel = "*" := hgate _ hmem
    simp only [hstar, userLevelSatisfies, if_true]
    exact tryPresets_congr hgate

/-! ### The schedule -/

/-- The caller may fall back on the preset. -/
def PresetFields.eligible (rootProvider : String) (level : Option String)
    (hasToolCallHistory : Bool) (p : PresetFields) : Bool :=
  userLevelSatisfies level p.minUserLevel && (!hasToolCallHistory || p.provider = rootProvider)

/-- The attempts on these presets. -/
def attemptsOf (chain : List (String × PresetFields)) : List String :=
  chain.flatMap fun x => List.replicate x.2.attempts x.1

/-- The attempts that a call may make, in order. -/
def LlmService.schedule (svc : LlmService) (name : String) (level : Option String)
    (hasToolCallHistory : Bool) : List String :=
  match svc.presets.lookup name with
  | none => []
  | some first =>
    if userLevelSatisfies level first.minUserLevel then
      attemptsOf ((walkFallbackChain svc.presets name).filter fun x =>
        x.2.eligible first.provider level hasToolCallHistory)
    else []

section

variable {ε V : Type}

/-- The attempts of a call; the next is made after an error of the provider. -/
def callAttempts : Attempts (LlmCallAct ε V) String (String × Attempted ε V) where
  begins
    | .attempt n => some n
    | _ => none
  hands _ := false
  ends
    | .attempt n, o => some (n, o)
    | _, _ => none
  again
    | (_, .raised _) => true
    | _ => false

/-- What is known of the attempts of a call. -/
abbrev CallTally (ε V : Type) := Tally String (String × Attempted ε V)

/-- The answer is what the last attempt came to; an error of the provider is raised only after all
attempts. -/
def AnswersLast (schedule : List String) (q : CallTally ε V)
    (r : Except (CallError ε) (String × V)) : Prop :=
  ∃ n o, q.last = some (n, o) ∧ match o with
    | .returned v => r = .ok (n, v)
    | .refused e => r = .error (.preset e)
    | .raised exc => q.made = schedule ∧ ∃ hint, r = .error (.upstream hint exc)

/-- So far all attempts have failed, the last one with this error. -/
def AllFailed (q : CallTally ε V) (last : Option (RetryHint × ε)) : Prop :=
  q.handed = false ∧ match last with
    | none => q.made = []
    | some (_, exc) => ∃ n, q.last = some (n, .raised exc)

variable {q : CallTally ε V} {last : Option (RetryHint × ε)}
  {schedule rest : List String}

theorem AllFailed.isOpen (h : AllFailed q last) : callAttempts.Open q := by
  obtain ⟨hhanded, h⟩ := h
  cases last with
  | none => exact ⟨hhanded, .inl h⟩
  | some last =>
    obtain ⟨n, hn⟩ := h
    exact ⟨hhanded, .inr ⟨_, hn, rfl⟩⟩

/-- What the attempts on a preset come to, if these are then the attempts that were made. -/
def Tried (n : String) (made : List String) (q : CallTally ε V) :
    Except (CallError ε) (V ⊕ Option (RetryHint × ε)) → Prop
  | .ok (.inl v) => q.last = some (n, .returned v)
  | .ok (.inr last) => AllFailed q last ∧ q.made = made
  | .error e => ∃ e', q.last = some (n, .refused e') ∧ e = .preset e'

theorem obeys_attemptsOn {n : String} {adapter : Option (ε → Option RetryHint)} {left idx : ℕ}
    (hq : AllFailed q last) (hsched : q.made ++ List.replicate left n ++ rest = schedule) :
    (callAttempts.following schedule).Obeys q (attemptsOn (V := V) n adapter left idx last).run
      (Tried n (q.made ++ List.replicate left n)) := by
  induction left generalizing q idx last with
  | zero => exact ⟨hq, (List.append_nil _).symm⟩
  | succ left ih =>
    rw [List.replicate_succ, List.append_cons] at hsched ⊢
    rw [attemptsOn, obeys_lift_bind]
    refine ⟨fun i hi => ?_, fun o _ => ?_⟩
    · obtain rfl := Option.some.inj hi
      exact ⟨⟨_, (List.append_assoc _ _ _).symm.trans hsched⟩, hq.isOpen⟩
    · cases o with
      | returned v => rfl
      | refused e => exact ⟨e, rfl, rfl⟩
      | raised exc =>
        have hq' : AllFailed (callAttempts.next q (.attempt n) (.raised exc))
            (some (safeClassify adapter exc, exc)) :=
          ⟨by rw [Attempts.next, hq.1]; rfl, n, rfl⟩
        have hloop := @ih (callAttempts.next q (.attempt n) (.raised exc)) _ (idx + 1) hq' hsched
        dsimp only
        split_ifs
        · refine ⟨fun _ hi => (by cases hi), fun _ _ => ?_⟩
          rw [following_next, next_of_neutral rfl rfl rfl]
          exact hloop
        · exact hloop

theorem isSkipped_eq {root : String} {level : Option String} {history : Bool} {idx : ℕ}
    {p : PresetFields} (h : idx = 0 → p.eligible root level history = true) :
    p.isSkipped root level history idx = !p.eligible root level history := by
  cases idx with
  | zero => simp [h rfl, PresetFields.isSkipped]
  | succ idx => cases history <;> simp [PresetFields.isSkipped, PresetFields.eligible]

theorem obeys_tryPresets {name root : String} {level : Option String} {history : Bool} {idx : ℕ}
    {chain : List (String × PresetFields)} (hne : schedule ≠ []) (hq : AllFailed q last)
    (hfirst : idx = 0 → ∀ x ∈ chain.head?, x.2.eligible root level history = true)
    (hsched : q.made ++ attemptsOf (chain.filter fun x => x.2.eligible root level history) =
      schedule) :
    (callAttempts.following schedule).Obeys q
      (tryPresets (V := V) name root level history idx chain last).run (AnswersLast schedule) := by
  induction chain generalizing q idx last with
  | nil =>
    rw [List.filter_nil, attemptsOf, List.flatMap_nil, List.append_nil] at hsched
    cases last with
    | none => exact absurd (hsched.symm.trans hq.2) hne
    | some last =>
      obtain ⟨n, hn⟩ := hq.2
      exact ⟨n, _, hn, hsched, last.1, rfl⟩
  | cons x chain ih =>
    obtain ⟨n, p⟩ := x
    have hskip : p.isSkipped root level history idx = !p.eligible root level history :=
      isSkipped_eq fun h => hfirst h (n, p) rfl
    rw [tryPresets, hskip]
    by_cases hp : p.eligible root level history = true
    · rw [List.filter_cons, if_pos hp, attemptsOf, List.flatMap_cons, ← List.append_assoc] at hsched
      rw [hp, Bool.not_true, if_neg Bool.false_ne_true, obeys_lift_bind]
      refine ⟨fun i hi => (by cases hi), fun adapter _ => obeys_except_bind.2 ?_⟩
      rw [following_next, next_of_neutral rfl rfl rfl]
      refine (obeys_attemptsOn hq hsched).mono fun q' r h => ?_
      cases r with
      | error e =>
        obtain ⟨e', hlast, rfl⟩ := h
        exact ⟨n, _, hlast, rfl⟩
      | ok r =>
        cases r with
        | inl v => exact ⟨n, _, h, rfl⟩
        | inr last' =>
          exact ih h.1 (fun h => absurd h (Nat.succ_ne_zero _)) (by rw [h.2]; exact hsched)
    · rw [List.filter_cons, if_neg hp] at hsched
      rw [Bool.not_eq_true] at hp
      rw [hp, Bool.not_false, if_pos rfl]
      exact ih hq (fun h => absurd h (Nat.succ_ne_zero _)) hsched

variable {svc : LlmService} {name : String} {level : Option String} {history : Bool}
  {tr : List (Event (LlmCallAct ε V))}
  {p' : Prog (LlmCallAct ε V) (Except (CallError ε) (String × V))}

/-- What a call answers: without any attempt it is refused. -/
def Settles (schedule : List String) (q : CallTally ε V)
    (r : Except (CallError ε) (String × V)) : Prop :=
  if schedule = [] then ∃ e, r = .error (.preset e) else AnswersLast schedule q r

theorem obeys_callWithFallback :
    (callAttempts.following (svc.schedule name level history)).Obeys {}
      (svc.callWithFallback (V := V) (ε := ε) name level history).run
      (Settles (svc.schedule name level history)) := by
  rw [LlmService.callWithFallback, LlmService.schedule]
  cases hfirst : svc.presets.lookup name with
  | none => exact ⟨_, rfl⟩
  | some first =>
    dsimp only
    split_ifs with hlevel
    · have hchain : ∃ rest, walkFallbackChain svc.presets name = (name, first) :: rest :=
        ⟨_, by rw [walkFallbackChain, walkFrom, hfirst]; exact if_neg List.not_mem_nil⟩
      obtain ⟨rest, hchain⟩ := hchain
      have heligible : first.eligible first.provider level history = true := by
        simp [PresetFields.eligible, hlevel]
      have hattempts : 0 < first.attempts := by
        rw [PresetFields.attempts]
        omega
      have hne : attemptsOf ((walkFallbackChain svc.presets name).filter fun x =>
          x.2.eligible first.provider level history) ≠ [] := by
        rw [hchain, List.filter_cons, if_pos heligible, attemptsOf, List.flatMap_cons]
        simp [hattempts.ne']
      refine (obeys_tryPresets (q := {}) hne ⟨rfl, rfl⟩ (fun _ x hx => ?_)
        (List.nil_append _)).mono fun q r h => (if_neg hne).mpr h
      rw [hchain] at hx
      obtain rfl := Option.some.inj hx
      exact heligible
    · exact ⟨_, rfl⟩

/-- **What a call attempts, and what it answers**, whatever its attempts come to: the attempts are
the first ones of the schedule, another is made only after an error of the provider, and the answer
is what the last one came to; such an error is raised only when the schedule is exhausted. -/
theorem attempts_scheduled (h : After (svc.callWithFallback name level history).run tr p') :
    callAttempts.begun tr <+: svc.schedule name level history ∧
    callAttempts.Orderly tr ∧
    ∀ r, p' = .ret r →
      Settles (svc.schedule name level history) (callAttempts.tally tr) r := by
  refine ⟨begun_scheduled h obeys_callWithFallback, orderly h obeys_callWithFallback, ?_⟩
  rintro r rfl
  exact fin_tally h obeys_callWithFallback

theorem count_attemptsOf {chain : List (String × PresetFields)} {n : String} {p : PresetFields}
    (hnodup : (chain.map Prod.fst).Nodup) (hmem : (n, p) ∈ chain) :
    (attemptsOf chain).count n = p.attempts := by
  induction chain with
  | nil => cases hmem
  | cons x chain ih =>
    obtain ⟨hx, hnodup⟩ := List.nodup_cons.1 hnodup
    rw [attemptsOf, List.flatMap_cons, List.count_append, List.count_replicate]
    rcases List.mem_cons.1 hmem with rfl | hmem
    · rw [if_pos (beq_self_eq_true n), List.count_eq_zero_of_not_mem, Nat.add_zero]
      intro hn
      obtain ⟨y, hy, hn⟩ := List.mem_flatMap.1 hn
      exact hx (List.mem_map.2 ⟨y, hy, (List.eq_of_mem_replicate hn).symm⟩)
    · have hne : x.1 ≠ n := fun h => hx (List.mem_map.2 ⟨_, hmem, h.symm⟩)
      rw [if_neg (by simpa using hne), Nat.zero_add]
      exact ih hnodup hmem

/-- **Who is asked**: a preset on the chain of the one that was asked for, which the caller may use,
of the same provider if the conversation has ids of tool calls, and as often as it says. -/
theorem attempted_allowed (h : After (svc.callWithFallback name level history).run tr p')
    {n : String} (hn : n ∈ callAttempts.begun tr) :
    ∃ first p, svc.presets.lookup name = some first ∧ (n, p) ∈ walkFallbackChain svc.presets name ∧
      userLevelSatisfies level p.minUserLevel = true ∧
      (history = true → p.provider = first.provider) ∧
      (callAttempts.begun tr).count n ≤ p.attempts := by
  have hprefix := begun_scheduled h obeys_callWithFallback
  have hmem := hprefix.subset hn
  have hcount : (callAttempts.begun tr).count n ≤ (svc.schedule name level history).count n :=
    hprefix.sublist.count_le n
  rw [LlmService.schedule] at hmem hcount
  cases hfirst : svc.presets.lookup name with
  | none => rw [hfirst] at hmem; cases hmem
  | some first =>
    rw [hfirst] at hmem hcount
    dsimp only at hmem hcount
    split_ifs at hmem hcount
    · obtain ⟨⟨m, p⟩, hp, hm⟩ := List.mem_flatMap.1 hmem
      obtain rfl := List.eq_of_mem_replicate hm
      obtain ⟨hchain, heligible⟩ := List.mem_filter.1 hp
      rw [PresetFields.eligible, Bool.and_eq_true, Bool.or_eq_true, Bool.not_eq_true',
        decide_eq_true_eq] at heligible
      exact ⟨first, p, rfl, hchain, heligible.1,
        fun ht => heligible.2.resolve_left (by rw [ht]; exact Bool.noConfusion), hcount.trans_eq
          (count_attemptsOf (nodup_walkFrom.sublist (List.filter_sublist.map _)) hp)⟩
    · cases hmem

end

namespace Sample

/-- A preset that is tried twice. -/
def primary : PresetFields where
  provider := "gemini"
  concreteModel := "m"
  fallbackPreset := some "b"
  maxRetries := 1

/-- A preset that not everybody may use. -/
def secondary : PresetFields where
  provider := "gemini"
  concreteModel := "n"
  minUserLevel := "tier1"

/-- One preset falls back on the other. -/
def guardedFallback : LlmService where
  presets := AList.insert "a" primary (AList.insert "b" secondary ∅)

/-- The other one is not there. -/
def unguarded : LlmService where
  presets := AList.insert "a" primary ∅

/-- Both attempts on the first preset fail. -/
def rescuedCall : List (Event (LlmCallAct Unit ℕ)) :=
  [⟨.resolveOne "a", none⟩, ⟨.attempt "a", .raised ()⟩, ⟨.sleep 0 none, ()⟩,
    ⟨.attempt "a", .raised ()⟩, ⟨.resolveOne "b", none⟩, ⟨.attempt "b", .returned 7⟩]

theorem after_rescuedCall :
    After (guardedFallback.callWithFallback "a" (some "tier0") true).run rescuedCall
      (.ret (.ok ("b", 7))) :=
  .cons (.cons (.cons (.cons (.cons (.cons (.nil _))))))

end Sample

theorem attempts_scheduled_rescued :
    callAttempts.begun Sample.rescuedCall <+:
      Sample.guardedFallback.schedule "a" (some "tier0") true ∧
    Settles (Sample.guardedFallback.schedule "a" (some "tier0") true)
      (callAttempts.tally Sample.rescuedCall) (.ok ("b", 7)) :=
  have h := attempts_scheduled Sample.after_rescuedCall
  ⟨h.1, h.2.2 _ rfl⟩

theorem attempted_allowed_rescued : ∃ first p,
    Sample.guardedFallback.presets.lookup "a" = some first ∧
      ("b", p) ∈ walkFallbackChain Sample.guardedFallback.presets "a" ∧
      userLevelSatisfies (some "tier0") p.minUserLevel = true ∧
      (true = true → p.provider = first.provider) ∧
      (callAttempts.begun Sample.rescuedCall).count "b" ≤ p.attempts :=
  attempted_allowed Sample.after_rescuedCall (by decide)

theorem callWithFallback_congr_ungated :
    (Sample.unguarded.callWithFallback "a" none false : LlmCall Unit ℕ (String × ℕ)) =
      Sample.unguarded.callWithFallback "a" (some "admin") false :=
  callWithFallback_congr (by decide) _ _ _

/-! ### The map that calls are served from -/

theorem PresetState.svc_finish {s : PresetState} {rid : ℕ} {asked : Table String PresetFields}
    {o : Option PresetTable} : (s.finish rid asked o).svc = s.svc := by
  cases o <;> rfl

/-- Only a reload that has found no circle publishes what it has read. -/
theorem PresetState.svc_step {net : Net} {catalog : ℕ → List PresetEntry} {s s' : PresetState}
    {e : PresetEvent} (h : s.step net catalog e = some s') :
    s'.svc = s.svc ∨ fallbacksEnd s'.svc.presets = true := by
  cases e
  case publish rid =>
    simp only [step] at h
    split at h <;> cases h
    split
    · exact .inr ‹_›
    · exact .inl rfl
  -- the others leave the map; some branch on the outcome of a check or of the re-sync
  all_goals
    left
    simp only [step] at h
    split at h <;> cases h <;> first | rfl | exact svc_finish | skip
    all_goals split <;> first | rfl | exact svc_finish

/-- **Every walk is whole at any time**, whatever is requested of the presets and however the
requests interleave: the map that calls are served from has no circle, even where the table has
one. -/
theorem served_chains_whole {net : Net} {catalog : ℕ → List PresetEntry} {table : PresetTable}
    {s : PresetState}
    (h : (presetSystem net catalog { table }).Reaches (fun _ _ => True) s) (start : String) :
    Leads s.svc.presets (some start) (walkFallbackChain s.svc.presets start) := by
  have hinv : (presetSystem net catalog { table }).Invariant (fun _ _ => True)
      fun s => fallbacksEnd s.svc.presets = true := {
    init := rfl
    step := fun hs _ hstep => (PresetState.svc_step hstep).elim (fun h => by rw [h]; exact hs) id }
  exact (fallbacksEnd_iff.1 (hinv.of_reaches h)).leads start

/-- An admin creates a preset, which is published. -/
def Sample.creation : List PresetEvent :=
  [.create 0 0 "b" Sample.secondary "admin", .resync 0 0 0, .load 0, .publish 0]

theorem served_chains_whole_created : ∃ s : PresetState,
    (s.svc.presets.lookup "b").isSome = true ∧
      Leads s.svc.presets (some "b") (walkFallbackChain s.svc.presets "b") := by
  have hrun : ((presetSystem Sample.twoHosts (fun _ => []) { table := noPresets }).run
      (fun _ _ => true) { table := noPresets } Sample.creation).map
      (fun s => (s.svc.presets.lookup "b").isSome) = some true := by decide +kernel
  obtain ⟨s, hs, hb⟩ := Option.map_eq_some_iff.1 hrun
  exact ⟨s, hb, served_chains_whole (.of_run (fun _ _ _ => trivial) hs) "b"⟩

end Backplane
