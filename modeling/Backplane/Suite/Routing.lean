import Backplane.Suite.Delegation

/-!
# Whether the channel knows who has the conversation

* `SuiteAct.routes` : the steps that change `delegated_to`; no agent takes one.
* `dispatchTurn_solo` : what a turn does to `delegated_to`.
* `Conversation.Routed` : only specialists are ever named.
* `owner`, `Tracks` : who should have the conversation after a turn, and when the channel gets it
  right.
* `delegation_tracked` : exactly then, in every run.
-/

namespace Backplane

open Concur Prog

/-- The step changes who has the conversation. -/
def SuiteAct.routes {β : Type} : SuiteAct β → Bool
  | updateDelegatedTo _ | applyFoldBack _ _ | applyDelegation _ _ => true
  | _ => false

section

variable {s s' : SuiteState} {e : SuiteEnv} {β : Type} {a : SuiteAct β} {b : β}

/-- What a step does to the record, if it writes. -/
theorem SuiteAct.exec_delegatedTo (ha : a.routes = false) (he : a.exec e s = some (s', b)) :
    s'.conv.delegatedTo = s.conv.delegatedTo := by
  cases a with
  | appendHistory =>
    simp only [exec] at he
    obtain ⟨-, rfl⟩ | ⟨-, rfl⟩ := write_eq he <;> rfl
  | applySummary =>
    simp only [exec] at he
    obtain ⟨-, rfl⟩ | ⟨-, rfl⟩ := write_eq he
    · rfl
    · exact Conversation.delegatedTo_applySummary
  | appendSeed | retireSeed | retireEpisode =>
    simp only [exec] at he
    split at he <;> cases he <;> rfl
  | updateDelegatedTo | applyFoldBack | applyDelegation => cases ha
  | beginTurn => cases he; rfl
  | _ => rw [exec_reads rfl he]

/-- No step removes the row of the session. -/
theorem SuiteAct.exec_info (he : a.exec e s = some (s', b)) :
    s'.conv.info.isSome = s.conv.info.isSome := by
  cases a with
  | appendHistory | updateDelegatedTo | applySummary | applyFoldBack | applyDelegation =>
    simp only [exec] at he
    obtain ⟨-, rfl⟩ | ⟨-, rfl⟩ := write_eq he
    · rfl
    · simp [Conversation.appendHistory, Conversation.updateSessionInfo, Conversation.applySummary,
        Conversation.applyFoldBack, Conversation.applyDelegation, Conversation.demoteThread,
        Conversation.demoteIncumbentThrough, Conversation.demote]
  | appendSeed | retireSeed | retireEpisode =>
    simp only [exec] at he
    split at he <;> cases he <;> rfl
  | beginTurn => cases he; rfl
  | _ => rw [exec_reads rfl he]

end

/-! ### Agents do not route -/

/-- The program does not change who has the conversation. -/
abbrev Unrouted {α : Type} (p : Prog SuiteAct α) : Prop := p.Only fun a => a.routes = false

section

variable {cfg : SuiteConfig} {agentId : AgentId} {chain : List AgentId}

theorem unrouted_persistToolExchanges (xs : List (String × String)) :
    Unrouted (persistToolExchanges agentId xs).run := by
  induction xs with
  | nil => trivial
  | cons x xs ih => exact Fallible.only_write rfl (Fallible.only_write rfl ih)

theorem unrouted_persistTurn (reply : LoopReply) : Unrouted (persistTurn agentId reply).run :=
  Fallible.only_bind (unrouted_persistToolExchanges _) fun _ => ⟨rfl, fun b => by cases b <;> trivial⟩

theorem unrouted_reported {p : Handler TurnResult} (hp : Unrouted p.run) :
    Unrouted (reported agentId p) := by
  refine hp.bind fun r => ?_
  cases r with
  | ok => trivial
  | error => exact ⟨rfl, fun _ => trivial⟩

theorem unrouted_runDelegatedTurn {handBack : EndDelegation → Prog SuiteAct TurnResult}
    (hb : ∀ args, Unrouted (handBack args)) :
    Unrouted (runDelegatedTurn agentId chain handBack).run := by
  refine Fallible.only_query rfl fun _ => Fallible.only_query rfl fun rows =>
    Fallible.only_query rfl fun _ => Fallible.only_query rfl fun reply => ?_
  split
  · refine Fallible.only_lift ⟨rfl, fun _ => trivial⟩ fun answer => ?_
    cases answer with
    | accepted => exact Fallible.only_lifted (hb _)
    | refused => trivial
    | raised => trivial
  · split
    · exact Fallible.only_write rfl trivial
    · exact Fallible.only_bind (unrouted_persistTurn _) fun _ => trivial

theorem unrouted_firstTurn : Unrouted (firstTurn agentId chain) :=
  unrouted_reported (unrouted_runDelegatedTurn fun _ => ⟨rfl, fun _ => trivial⟩)

theorem unrouted_doHandOff (userPrompt : String) (args : HandOff) (tokens : ℕ) :
    Unrouted (doHandOff chain userPrompt args tokens).run := by
  refine Fallible.only_query rfl fun seedId => Fallible.only_lift ⟨rfl, fun _ => trivial⟩ fun answer => ?_
  cases answer with
  | accepted => exact Fallible.only_lifted ⟨rfl, fun _ => unrouted_firstTurn⟩
  | refused =>
    exact Fallible.only_write rfl (Fallible.only_query rfl fun reply =>
      Fallible.only_bind (unrouted_persistTurn reply) fun _ => trivial)
  | raised => trivial

theorem unrouted_runOrchestratorMessage (userPrompt : String) :
    Unrouted (runOrchestratorMessage cfg chain userPrompt).run := by
  refine Fallible.only_query rfl fun _ => Fallible.only_query rfl fun _ =>
    Fallible.only_query rfl fun _ => Fallible.only_query rfl fun reply => ?_
  split
  · exact unrouted_doHandOff _ _ _
  · exact Fallible.only_bind (unrouted_persistTurn reply) fun _ => trivial

theorem unrouted_runOrchestratorEndDelegation (args : EndDelegation) :
    Unrouted (runOrchestratorEndDelegation cfg agentId args).run := by
  refine Fallible.only_write rfl (Fallible.only_write rfl (Fallible.only_write rfl ?_))
  split
  · exact Fallible.only_write rfl (unrouted_runOrchestratorMessage _)
  · trivial

/-- **No agent decides who has the conversation.** -/
theorem unrouted_serveTurn (dest : AgentId) (prompt : String) :
    Unrouted (serveTurn cfg dest prompt) := by
  unfold serveTurn
  split
  · exact unrouted_reported (unrouted_runOrchestratorMessage _)
  · exact unrouted_reported (unrouted_runDelegatedTurn fun args =>
      unrouted_reported (unrouted_runOrchestratorEndDelegation args))

theorem unrouted_recordInbound (dest : AgentId) (text : String) (names : List String) :
    Unrouted (recordInbound dest text names).run := by
  induction names with
  | nil =>
    unfold recordInbound
    split
    · trivial
    · exact ⟨rfl, fun b => by cases b <;> trivial⟩
  | cons name names ih =>
    refine Fallible.only_bind (Fallible.only_lift ⟨rfl, fun _ => trivial⟩ fun got => ?_) fun _ => ih
    cases got with
    | false => trivial
    | true => exact ⟨rfl, fun b => by cases b <;> trivial⟩

theorem unrouted_maybeSummarize (tokens : Option ℕ) :
    Unrouted (maybeSummarize agentId tokens).run := by
  unfold maybeSummarize
  split
  · trivial
  · trivial
  refine Fallible.only_query rfl fun info => ?_
  cases info with
  | none => trivial
  | some info =>
    refine Fallible.only_query rfl fun limit => ?_
    split
    · trivial
    refine Fallible.only_query rfl fun rows => ?_
    split
    · trivial
    refine Fallible.only_lift ((summaryTask_reads _ _ _).mono fun a ha => ?_) fun run => ?_
    · cases a <;> first | rfl | cases ha
    · cases run with
      | none => trivial
      | some run => exact Fallible.only_write rfl trivial

/-! ### A turn -/

variable {s s' : SuiteState} {text : String} {files : List String} {rep : TurnReport}

/-- What does not route leaves the conversation with whom it is. -/
theorem Unrouted.keeps {α : Type} {p : Prog SuiteAct α} {x : α} (hp : Unrouted p)
    (h : Solo (suite cfg) p s x s') : s'.conv.delegatedTo = s.conv.delegatedTo :=
  h.keeps hp (fun s => s.conv.delegatedTo) fun ha he => SuiteAct.exec_delegatedTo ha he

theorem solo_info {α : Type} {p : Prog SuiteAct α} {x : α} (h : Solo (suite cfg) p s x s') :
    s'.conv.info.isSome = s.conv.info.isSome :=
  h.keeps (Only.of_forall (P := fun _ => True) (fun _ => trivial) p)
    (fun s => s.conv.info.isSome) fun _ he => SuiteAct.exec_info he

theorem updateDelegation_solo {dest : AgentId} {r : TurnResult} {done : Bool}
    (hinfo : s.conv.info.isSome = true)
    (h : Solo (suite cfg) (updateDelegation dest r) s done s') :
    s'.conv.delegatedTo =
      if done then (delegationUpdate dest r).getD s.conv.delegatedTo else s.conv.delegatedTo := by
  unfold updateDelegation at h
  split at h
  · rename_i hnone
    obtain ⟨rfl, rfl⟩ := Solo.ret_iff.1 h
    rw [hnone]
    rfl
  · rename_i v hv
    obtain ⟨e, he⟩ := Solo.perform_iff.1 h
    obtain ⟨rfl, rfl⟩ | ⟨rfl, rfl⟩ := SuiteAct.write_eq
      (f := fun c => c.updateSessionInfo fun i => { i with delegatedTo := v }) he
    · rfl
    · rw [hv, if_pos rfl]
      exact Conversation.delegatedTo_update hinfo fun _ => rfl

/-- What a turn does to `delegated_to`: what the result says, if that was noted. -/
structure TurnRouted (s s' : SuiteState) (rep : TurnReport) : Prop where
  /-- Nothing, if it was not. -/
  unnoted : rep.noted = false → s'.conv.delegatedTo = s.conv.delegatedTo
  /-- Without a result there is nothing to note. -/
  idle : rep.result = none → rep.noted = false
  noted : ∀ r, rep.result = some r → rep.noted = true → s'.conv.delegatedTo =
    (delegationUpdate (routeTo s.conv.info) r).getD s.conv.delegatedTo

theorem TurnRouted.of_unnoted {r : Option TurnResult}
    (h : s'.conv.delegatedTo = s.conv.delegatedTo) (hrep : rep = { result := r }) :
    TurnRouted s s' rep := by
  subst hrep
  exact ⟨fun _ => h, fun _ => rfl, fun _ _ hn => by cases hn⟩

/-- An errand that is left alone. -/
theorem solo_errand {what : Errand} {r : TurnReport}
    (h : Solo (suite cfg) (perform (.attempt what) >>= fun _ => pure r) s rep s') :
    rep = r ∧ s' = s := by
  obtain ⟨e, s₁, _, he, hend⟩ := Solo.perform_bind_iff.1 h
  obtain rfl := SuiteAct.exec_reads (a := .attempt what) rfl he
  exact Solo.ret_iff.1 hend

theorem dispatchTurn_solo (hinfo : s.conv.info.isSome = true)
    (h : Solo (suite cfg) (cfg.dispatchTurn text files) s rep s') : TurnRouted s s' rep := by
  obtain ⟨e₀, s₀, _, he₀, h⟩ := Solo.perform_bind_iff.1 h
  obtain rfl : s₀ = ⟨s.conv, {}⟩ := (Prod.mk.inj (Option.some.inj he₀)).1.symm
  obtain ⟨e₁, s₁, info, he₁, h⟩ := Solo.perform_bind_iff.1 h
  obtain rfl := SuiteAct.exec_reads (a := .getSessionInfo) rfl he₁
  cases info with
  | none =>
    obtain ⟨hrep, rfl⟩ := Solo.ret_iff.1 h
    exact .of_unnoted rfl hrep
  | some info =>
    obtain rfl : s.conv.info = info := query_answer he₁
    obtain ⟨saved, s₂, hsaved, h⟩ := Solo.bind_iff.1 h
    have hd₂ := (unrouted_recordInbound _ _ _).keeps hsaved
    change s₂.conv.delegatedTo = s.conv.delegatedTo at hd₂
    have hi₂ := solo_info hsaved
    cases saved with
    | error =>
      obtain ⟨hrep, rfl⟩ := Solo.ret_iff.1 h
      exact .of_unnoted hd₂ hrep
    | ok =>
      obtain ⟨e₃, s₃, sent, he₃, h⟩ := Solo.perform_bind_iff.1 h
      obtain rfl := SuiteAct.exec_reads (a := .attempt .spawn) rfl he₃
      cases sent with
      | false =>
        obtain ⟨hrep, rfl⟩ := solo_errand h
        exact .of_unnoted hd₂ hrep
      | true =>
        obtain ⟨r, s₄, hserve, h⟩ := Solo.bind_iff.1 h
        have hd₄ := Unrouted.keeps (Only.interruptible (unrouted_serveTurn _ _) rfl) hserve
        have hi₄ := solo_info hserve
        rw [hd₂] at hd₄
        obtain ⟨e₅, s₅, result, he₅, h⟩ := Solo.perform_bind_iff.1 h
        obtain rfl := SuiteAct.exec_reads (a := .awaitResult r) rfl he₅
        cases result with
        | none =>
          obtain ⟨hrep, rfl⟩ := solo_errand h
          exact .of_unnoted hd₄ hrep
        | some result =>
          obtain ⟨e₆, s₆, told, he₆, h⟩ := Solo.perform_bind_iff.1 h
          obtain rfl := SuiteAct.exec_reads (a := .attempt .sendMessage) rfl he₆
          cases told with
          | false =>
            obtain ⟨hrep, rfl⟩ := Solo.ret_iff.1 h
            exact .of_unnoted hd₄ hrep
          | true =>
            obtain ⟨noted, s₇, hnoted, h⟩ := Solo.bind_iff.1 h
            have hd₇ := updateDelegation_solo (by rw [hi₄, hi₂]; exact hinfo) hnoted
            rw [hd₄] at hd₇
            cases noted with
            | false =>
              obtain ⟨hrep, rfl⟩ := Solo.ret_iff.1 h
              exact .of_unnoted hd₇ hrep
            | true =>
              obtain ⟨_, s₈, hsum, h⟩ := Solo.bind_iff.1 h
              obtain ⟨rfl, rfl⟩ := Solo.ret_iff.1 h
              refine ⟨fun hn => (by cases hn), fun hn => (by cases hn), fun r hr _ => ?_⟩
              obtain rfl := Option.some.inj hr
              rw [(unrouted_maybeSummarize _).keeps hsum, hd₇]
              rfl

/-! ### Who is named -/

/-- The step gives the conversation to specialists only. -/
def SuiteAct.Names {β : Type} : SuiteAct β → Prop
  | updateDelegatedTo v => ∀ a ∈ v, IsSpecialist a
  | applyDelegation target _ => IsSpecialist target
  | _ => True

/-- The session has its row, and nobody but a specialist is said to have the conversation. -/
structure Conversation.Routed (c : Conversation) : Prop where
  info : c.info.isSome = true
  specialist : ∀ a ∈ c.delegatedTo, IsSpecialist a

theorem names_of_unrouted {α : Type} {p : Prog SuiteAct α} (hp : Unrouted p) :
    p.Only fun a => a.Names :=
  hp.mono fun a ha => by cases a <;> first | cases ha; done | trivial

theorem delegationUpdate_names {dest : AgentId} {r : TurnResult} {v : Option AgentId}
    (h : delegationUpdate dest r = some v) : ∀ a ∈ v, IsSpecialist a := by
  unfold delegationUpdate at h
  split at h
  · cases h
    exact fun a ha => by cases ha
  · split at h
    · rename_i hhand
      cases h
      intro a ha
      obtain rfl := Option.some.inj ha
      simpa [IsSpecialist] using hhand.2
    · split at h
      · cases h
        exact fun a ha => by cases ha
      · cases h

theorem names_updateDelegation (dest : AgentId) (r : TurnResult) :
    (updateDelegation dest r).Only fun a => a.Names := by
  unfold updateDelegation
  split
  · trivial
  · rename_i v hv
    exact ⟨delegationUpdate_names hv, fun _ => trivial⟩

theorem names_dispatchTurn : (cfg.dispatchTurn text files).Only fun a => a.Names := by
  have herrand (r : TurnReport) (what : Errand) :
      (perform (.attempt what) >>= fun _ => (pure r : Prog SuiteAct TurnReport)).Only
        fun a => a.Names := ⟨trivial, fun _ => trivial⟩
  refine ⟨trivial, fun _ => ⟨trivial, fun info => ?_⟩⟩
  cases info with
  | none => trivial
  | some info =>
    show ((recordInbound (routeTo info) text files).run >>= _).Only _
    refine Only.bind (names_of_unrouted (unrouted_recordInbound _ _ _)) fun saved => ?_
    cases saved with
    | error => trivial
    | ok =>
      refine ⟨trivial, fun sent => ?_⟩
      cases sent with
      | false => exact herrand _ _
      | true =>
        show ((serveTurn cfg (routeTo info) _).interruptible .strike >>= _).Only _
        have hstrike : SuiteAct.strike.Names := trivial
        refine Only.bind ((names_of_unrouted (unrouted_serveTurn _ _)).interruptible hstrike)
          fun r => ⟨trivial, fun result => ?_⟩
        cases result with
        | none => exact herrand _ _
        | some result =>
          refine ⟨trivial, fun told => ?_⟩
          cases told with
          | false => trivial
          | true =>
            show (updateDelegation (routeTo info) result >>= _).Only _
            refine Only.bind (names_updateDelegation _ _) fun noted => ?_
            cases noted with
            | false => trivial
            | true =>
              show ((maybeSummarize _ _).run >>= _).Only _
              exact Only.bind (names_of_unrouted (unrouted_maybeSummarize _)) fun _ => trivial

theorem unrouted_summarizeThread (previous : Option String) :
    Unrouted (summarizeThread agentId previous).run :=
  (summarizeThread_reads _ _).mono fun a ha => by cases a <;> first | rfl | cases ha

theorem names_foldBack (info : Option SessionInfo) :
    (foldBack agentId info).run.Only fun a => a.Names :=
  Fallible.only_bind (names_of_unrouted (unrouted_summarizeThread _)) fun _ =>
    ⟨trivial, fun b => by cases b <;> trivial⟩

theorem names_delegateTo (target : AgentId) :
    (delegateTo cfg target).run.Only fun a => a.Names := by
  unfold delegateTo
  split
  · rename_i htarget
    have hseed (info : Option SessionInfo) (seed : String → String) :
        (summarizeThread orchestratorAgentId (info.bind SessionInfo.historySummary) >>= fun summary =>
          Fallible.write (.applyDelegation target (seed summary))).run.Only fun a => a.Names :=
      Fallible.only_bind (names_of_unrouted (unrouted_summarizeThread _)) fun _ =>
        ⟨cfg.specialists _ (List.mem_append_right _ htarget), fun b => by cases b <;> trivial⟩
    refine Fallible.only_query trivial fun info => ?_
    dsimp only
    split
    · trivial
    · split
      · exact hseed _ _
      · exact Fallible.only_bind (names_foldBack _) fun _ =>
          Fallible.only_query trivial fun info => hseed _ _
  · trivial

/-- A step that names specialists only keeps the record routed. -/
theorem Conversation.Routed.exec {β : Type} {a : SuiteAct β} {e : SuiteEnv} {b : β}
    (h : s.conv.Routed) (ha : a.Names) (he : a.exec e s = some (s', b)) : s'.conv.Routed := by
  refine ⟨by rw [SuiteAct.exec_info he, h.info], ?_⟩
  cases hr : a.routes with
  | false =>
    rw [SuiteAct.exec_delegatedTo hr he]
    exact h.specialist
  | true =>
    cases a with
    | updateDelegatedTo v =>
      simp only [SuiteAct.exec] at he
      obtain ⟨-, rfl⟩ | ⟨-, rfl⟩ := SuiteAct.write_eq he
      · exact h.specialist
      · have hv := Conversation.delegatedTo_update h.info (v := v)
          (f := fun i => { i with delegatedTo := v }) fun _ => rfl
        exact fun a hin => ha a (hv ▸ hin)
    | applyFoldBack delegate recap =>
      simp only [SuiteAct.exec] at he
      obtain ⟨-, rfl⟩ | ⟨-, rfl⟩ := SuiteAct.write_eq he
      · exact h.specialist
      · simp
    | applyDelegation target seed =>
      simp only [SuiteAct.exec] at he
      obtain ⟨-, rfl⟩ | ⟨-, rfl⟩ := SuiteAct.write_eq he
      · exact h.specialist
      · rw [Conversation.delegatedTo_applyDelegation h.info]
        intro a hin
        obtain rfl := Option.some.inj hin
        exact ha
    | _ => cases hr

/-- Whatever is done to a session, it names specialists only. -/
theorem names_body (c : SuiteCall) : (c.body cfg).Only fun a => a.Names := by
  cases c with
  | message text files => exact names_dispatchTurn
  | delegate target => exact Only.bind (names_delegateTo target) fun _ => trivial
  | undelegate =>
    refine Only.bind (Fallible.only_query trivial fun info => ?_) fun _ => trivial
    split
    · trivial
    · exact names_foldBack _
  | straggle agentId text => exact ⟨trivial, fun _ => trivial⟩

theorem Conversation.Routed.serial {s₀ : SuiteState}
    {ops : List (Performed SuiteState SuiteCall TurnReport)} (h₀ : s₀.conv.Routed)
    (h : Serial (suite cfg) s₀ ops s) :
    s.conv.Routed ∧ ∀ d ∈ ops, d.before.conv.Routed ∧ d.after.conv.Routed := by
  refine h.invariant (I := fun s => s.conv.Routed) (P := fun _ => True) h₀
    (fun _ _ => trivial) fun d hd _ hb => ?_
  refine hd.preserves (I := fun s => s.conv.Routed) (names_body d.call) hb ?_
  intro β a e s s₁ b ha hs he
  exact hs.exec ha he

/-! ### Tracking -/

/-- Who has the conversation after a turn that has ended so: the specialist that has reported
success, or else nobody. -/
def owner : Option TurnResult → Option AgentId
  | some r => if r.status = .succeeded ∧ IsSpecialist r.agentId then some r.agentId else none
  | none => none

/-- The channel gets to know who has the conversation after a turn: `before` had it, and it has
noted the result of the turn, or not. -/
def Tracks (before : Option AgentId) (rep : TurnReport) : Prop :=
  match rep.result with
  | none => before = none
  | some r =>
    if rep.noted then
      match before with
      | none => r.status = .succeeded ∨ ¬ IsSpecialist r.agentId
      | some d => r.status = .succeeded → r.agentId = orchestratorAgentId ∨ r.agentId = d
    else owner (some r) = before

instance (before : Option AgentId) (rep : TurnReport) : Decidable (Tracks before rep) := by
  unfold Tracks
  split
  · infer_instance
  · split
    · split <;> infer_instance
    · infer_instance

theorem delegationUpdate_orchestrator {r : TurnResult} :
    delegationUpdate orchestratorAgentId r =
      if IsSpecialist r.agentId then some (some r.agentId) else none := by
  have hmem : r.agentId ∉ [orchestratorAgentId, routerAgentId] ↔ IsSpecialist r.agentId := by
    simp [IsSpecialist]
  simp only [delegationUpdate, ne_eq, not_true_eq_false, and_false, if_false, true_and, hmem,
    false_and]

theorem delegationUpdate_specialist {dest : AgentId} {r : TurnResult}
    (h : dest ≠ orchestratorAgentId) : delegationUpdate dest r =
      if r.status = .succeeded ∧ r.agentId ≠ orchestratorAgentId then none else some none := by
  by_cases hs : r.status = .succeeded <;> simp [delegationUpdate, h, hs]

/-- What the channel notes is right exactly when it tracks. -/
theorem noted_iff {before : Option AgentId} {r : TurnResult}
    (hbefore : ∀ a ∈ before, IsSpecialist a) :
    (delegationUpdate (before.getD orchestratorAgentId) r).getD before = owner (some r) ↔
      Tracks before { result := some r, noted := true } := by
  cases before with
  | none =>
    rw [Option.getD_none, delegationUpdate_orchestrator]
    by_cases hs : r.status = .succeeded <;> by_cases hr : IsSpecialist r.agentId <;>
      simp [owner, Tracks, hs, hr]
  | some d =>
    have hd := hbefore d rfl
    rw [Option.getD_some, delegationUpdate_specialist hd.1]
    by_cases hs : r.status = .succeeded
    · by_cases ho : r.agentId = orchestratorAgentId
      · have hr : ¬ IsSpecialist orchestratorAgentId := fun h => h.1 rfl
        simp [owner, Tracks, hs, ho, hr]
      · by_cases hp : r.agentId = d
        · simp [owner, Tracks, hs, hp, hd, hd.1]
        · by_cases hr : IsSpecialist r.agentId <;>
            simp [owner, Tracks, hs, ho, hp, hr, Ne.symm hp]
    · simp [owner, Tracks, hs]

/-- **After a turn the channel knows who has the conversation exactly when the turn tracks**, in
every run of turns and commands. -/
theorem delegation_tracked {s₀ : SuiteState} {ops : List (Performed SuiteState SuiteCall TurnReport)}
    (h : Serial (suite cfg) s₀ ops s) (h₀ : s₀.conv.Routed) :
    ∀ d ∈ ops, ∀ text files, d.call = .message text files →
      (d.after.conv.delegatedTo = owner d.answer.result ↔
        Tracks d.before.conv.delegatedTo d.answer) := by
  rintro ⟨c, s, rep, s'⟩ hd text files (rfl : c = _)
  have hs := ((h₀.serial h).2 _ hd).1
  have hrouted := dispatchTurn_solo hs.info (h.performed hd)
  obtain ⟨result, noted⟩ := rep
  cases result with
  | none =>
    obtain rfl : noted = false := hrouted.idle rfl
    rw [hrouted.unnoted rfl]
    exact Iff.rfl
  | some r =>
    cases noted with
    | false =>
      rw [hrouted.unnoted rfl]
      exact eq_comm
    | true =>
      rw [hrouted.noted r rfl rfl]
      exact noted_iff hs.specialist

end

namespace Sample

def deployed : SuiteConfig where
  destinations := ["research"]
  delegatable := ["research"]
  specialists := by decide

/-- A session that has just been opened. -/
def opened : SuiteState where
  conv := { info := some { userId := "ada" } }

/-- Nothing goes wrong in `n` steps. -/
def calm (n : ℕ) : List SuiteEnv := List.replicate n {}

/-- A message is handed off to the specialist, whose loop of calls to the model ends or fails. -/
def handingOff (fails : Bool) : List SuiteEnv :=
  calm 11 ++ [{ reply := { handOff := some { agentId := "research" } } }] ++
    calm 13 ++ [{ fails := fails, reply := { text := "Here it is." } }] ++ calm 10

end Sample

/-- A turn that is handed off is tracked. -/
theorem delegation_tracked_of_handOff : ∃ d s, Serial (suite Sample.deployed) Sample.opened [d] s ∧
    d.answer.noted = true ∧ s.conv.delegatedTo = some "research" ∧
    d.after.conv.delegatedTo = owner d.answer.result := by
  have hplay : ((Sample.deployed.dispatchTurn "hi" []).play (suite Sample.deployed) Sample.opened
      (Sample.handingOff false)).map (fun r => (r.1, r.2.conv.delegatedTo)) =
      some (⟨some ⟨"research", .succeeded, some 0⟩, true⟩, some "research") := by
    decide +kernel
  obtain ⟨⟨rep, s'⟩, hr, hend⟩ := Option.map_eq_some_iff.1 hplay
  obtain ⟨hrep, hto⟩ := Prod.mk.inj hend
  have hrun := Serial.nil.snoc (c := .message "hi" []) (M := suite Sample.deployed) (Solo.of_play hr)
  refine ⟨_, s', hrun, congrArg TurnReport.noted hrep, hto, ?_⟩
  refine (delegation_tracked hrun ⟨rfl, by decide⟩ _ (List.mem_singleton.2 rfl) "hi" [] rfl).2 ?_
  rw [show rep = _ from hrep]
  exact Or.inl rfl

/-- A specialist that fails in its first turn gets the conversation. -/
theorem failed_handOff_kept : ∃ d s, Serial (suite Sample.deployed) Sample.opened [d] s ∧
    (∃ text files, d.call = .message text files) ∧ d.answer.noted = true ∧
    d.answer.result.map TurnResult.status = some .failed ∧
    s.conv.delegatedTo = some "research" ∧ owner d.answer.result = none ∧
    d.after.conv.delegatedTo ≠ owner d.answer.result := by
  have hplay : ((Sample.deployed.dispatchTurn "hi" []).play (suite Sample.deployed) Sample.opened
      (Sample.handingOff true)).map (fun r => (r.1, r.2.conv.delegatedTo)) =
      some (⟨some ⟨"research", .failed, none⟩, true⟩, some "research") := by
    decide +kernel
  obtain ⟨⟨rep, s'⟩, hr, hend⟩ := Option.map_eq_some_iff.1 hplay
  obtain ⟨hrep, hto⟩ := Prod.mk.inj hend
  have hrun := Serial.nil.snoc (c := .message "hi" []) (M := suite Sample.deployed) (Solo.of_play hr)
  have hrep : rep = ⟨some ⟨"research", .failed, none⟩, true⟩ := hrep
  subst hrep
  refine ⟨_, s', hrun, ⟨_, _, rfl⟩, rfl, rfl, hto, rfl, ?_⟩
  rw [show s'.conv.delegatedTo = _ from hto]
  exact Option.some_ne_none _

end Backplane
