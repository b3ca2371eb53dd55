import Backplane.Suite.Routing

/-!
# Nothing is left of a delegation

While a specialist has the conversation its thread has incumbent rows, and its summary is kept in
the row of the session.  When the delegation ends, all of that has to go.

* `Stage`, `episode` : who may write a thread while a task is handed on, as a discipline.
* `Holds` : what a stage says about the record; `Holds.next` : one step.
* `Conversation.Kept` : the invariant between operations.
* `TurnSettled`, `CallSettled` : the operations that leave nothing.
* `no_episode_left` : in runs of these nothing is left of a delegation that has ended.
-/

namespace Backplane

open Concur Prog Discipline

/-! ### Stages of a task -/

/-- Who has the task of a turn. -/
inductive Stage
  /-- The agent it was sent to, or an agent that this one cannot hand it to. -/
  | serving
  /-- The orchestrator, to which it was handed back. -/
  | returned
  /-- The seed row of a hand-off has been written. -/
  | seeded (back : Bool) (target : AgentId) (seedId : ℕ)
  | handed (back : Bool) (target : AgentId)

namespace Stage

/-- The specialist whose thread may have incumbent rows; the task was sent to `dest`. -/
def holder (dest : AgentId) : Stage → Option AgentId
  | serving => some dest
  | returned => none
  | seeded _ target _ | handed _ target => some target

/-- The agent may append to its thread. -/
def Permits (dest : AgentId) : Stage → AgentId → Prop
  | seeded _ _ _, _ => False
  | q, a => a = orchestratorAgentId ∨ q.holder dest = some a

/-- The orchestrator has the task, and it may hand it off. -/
def Hands (dest : AgentId) : Stage → Prop
  | serving => dest = orchestratorAgentId
  | returned => True
  | _ => False

/-- The task has been handed back. -/
def back : Stage → Bool
  | serving => false
  | returned => true
  | seeded back _ _ | handed back _ => back

/-- What the record of the turn says. -/
def course : Stage → Course
  | serving => {}
  | returned => { handedBack := true }
  | seeded back target _ | handed back target => { handedTo := some target, handedBack := back }

/-- The router has accepted that a task is handed on. -/
def accepted : Stage → Stage
  | seeded back target _ => handed back target
  | q => q

/-- The seed row has been retired. -/
def unseeded : Stage → Stage
  | seeded true _ _ => returned
  | seeded false _ _ => serving
  | q => q

end Stage

/-- What the agents that serve a turn may do. -/
def episode (dest : AgentId) : Discipline SuiteAct Stage where
  ok q a := match a with
    | .appendHistory a _ _ _ _ => q.Permits dest a
    | .appendSeed target _ => q.Hands dest ∧ IsSpecialist target
    | .retireSeed target seedId => ∃ back, q = .seeded back target seedId
    | .retireEpisode delegate => q = .serving ∧ delegate = dest
    | a => a.writes = false
  ans _ _ := True
  next q a b := match a, b with
    | .appendSeed target _, some seedId => .seeded q.back target seedId
    | .handOn _ _, .accepted => q.accepted
    | .retireSeed _ _, true => q.unseeded
    | .retireEpisode _, true => .returned
    | _, _ => q

/-- The program keeps to the discipline from this stage on. -/
abbrev Follows (dest : AgentId) (q : Stage) {α : Type} (p : Prog SuiteAct α) : Prop :=
  (episode dest).Obeys q p fun _ _ => True

/-! ### The agents -/

section

variable {cfg : SuiteConfig} {dest agentId : AgentId} {chain : List AgentId} {q : Stage} {α β : Type}

theorem Stage.Permits.accepted_eq (h : q.Permits dest agentId) : q.accepted = q := by
  cases q with
  | seeded => exact h.elim
  | _ => rfl

/-- The end of a turn does not change who has the task. -/
theorem keeps_persistTurn (h : q.Permits dest agentId) (reply : LoopReply) :
    (episode dest).Keeps (· = q) (persistTurn agentId reply).run := by
  have hsafe (role : Role) (message : String) (incumbent hidden : Bool) :
      (episode dest).Safe (· = q) (.appendHistory agentId role message incumbent hidden) := by
    rintro q' rfl
    exact ⟨h, fun b _ => rfl⟩
  have hexchanges (xs : List (String × String)) :
      (persistToolExchanges agentId xs).run.Only ((episode dest).Safe (· = q)) := by
    induction xs with
    | nil => trivial
    | cons x xs ih => exact Fallible.only_write (hsafe _ _ _ _) (Fallible.only_write (hsafe _ _ _ _) ih)
  refine Keeps.of_only (Fallible.only_bind (hexchanges _) fun _ => ?_)
  exact ⟨hsafe _ _ _ _, fun b => by cases b <;> trivial⟩

theorem follows_persistTurn (h : q.Permits dest agentId) (reply : LoopReply) {r : TurnResult} :
    Follows dest q (do persistTurn agentId reply; pure r : Handler TurnResult).run := by
  refine obeys_except_bind.2 ((keeps_persistTurn h reply q rfl).mono fun q' x _ => ?_)
  cases x <;> trivial

theorem follows_reported {p : Handler TurnResult} (hp : Follows dest q p.run) :
    Follows dest q (reported agentId p) := by
  refine obeys_bind.2 (hp.mono fun q' r _ => ?_)
  cases r with
  | ok => trivial
  | error => exact ⟨rfl, fun _ _ => trivial⟩

theorem follows_runDelegatedTurn {handBack : EndDelegation → Prog SuiteAct TurnResult}
    (h : q.Permits dest agentId) (hb : ∀ args, Follows dest q (handBack args)) :
    Follows dest q (runDelegatedTurn agentId chain handBack).run := by
  refine Fallible.obeys_query rfl trivial fun _ => Fallible.obeys_query rfl trivial fun rows =>
    Fallible.obeys_query rfl trivial fun _ => Fallible.obeys_query rfl trivial fun reply => ?_
  show Follows dest q _
  split
  · refine obeys_lift_bind.2 ⟨rfl, fun answer _ => ?_⟩
    cases answer with
    | accepted =>
      show Follows dest q.accepted _
      rw [h.accepted_eq]
      exact obeys_except_lift.2 (hb _)
    | refused => trivial
    | raised => trivial
  · split
    · exact Fallible.obeys_write rfl trivial trivial
    · exact follows_persistTurn h _

theorem follows_doHandOff (h : q.Hands dest) {args : HandOff} (hspec : IsSpecialist args.agentId)
    (userPrompt : String) (tokens : ℕ) :
    Follows dest q (doHandOff chain userPrompt args tokens).run := by
  refine Fallible.obeys_query ⟨h, hspec⟩ trivial fun seedId => ?_
  show Follows dest (.seeded q.back args.agentId seedId) _
  refine obeys_lift_bind.2 ⟨rfl, fun answer _ => ?_⟩
  cases answer with
  | accepted =>
    refine obeys_except_lift.2 ⟨.inl rfl, fun _ _ => ?_⟩
    exact follows_reported (follows_runDelegatedTurn (.inr rfl) fun _ => ⟨rfl, fun _ _ => trivial⟩)
  | refused =>
    refine Fallible.obeys_write ⟨_, rfl⟩ trivial (Fallible.obeys_query rfl trivial fun reply => ?_)
    refine follows_persistTurn ?_ reply
    cases q with
    | seeded => exact h.elim
    | handed => exact h.elim
    | _ => exact .inl rfl
  | raised => trivial

theorem follows_runOrchestratorMessage (h : q.Hands dest) (userPrompt : String) :
    Follows dest q (runOrchestratorMessage cfg chain userPrompt).run := by
  refine Fallible.obeys_query rfl trivial fun _ => Fallible.obeys_query rfl trivial fun _ =>
    Fallible.obeys_query rfl trivial fun _ => Fallible.obeys_query rfl trivial fun reply => ?_
  show Follows dest q _
  split
  · rename_i args hargs
    have hmem := of_decide_eq_true (Option.filter_eq_some_iff.1 hargs).2
    exact follows_doHandOff h (cfg.specialists _ (List.mem_append_left _ hmem)) _ _
  · refine follows_persistTurn ?_ reply
    cases q with
    | seeded => exact h.elim
    | handed => exact h.elim
    | _ => exact .inl rfl

theorem follows_runOrchestratorEndDelegation (args : EndDelegation) :
    Follows dest .serving (runOrchestratorEndDelegation cfg dest args).run := by
  refine Fallible.obeys_write (.inl rfl) trivial (Fallible.obeys_write (.inl rfl) trivial
    (Fallible.obeys_write ⟨rfl, rfl⟩ trivial ?_))
  show Follows dest .returned _
  split
  · exact Fallible.obeys_write (.inl rfl) trivial (follows_runOrchestratorMessage (q := .returned) trivial _)
  · trivial

/-- The agents keep to the discipline. -/
theorem follows_serveTurn (prompt : String) : Follows dest .serving (serveTurn cfg dest prompt) := by
  unfold serveTurn
  split
  · rename_i hdest
    exact follows_reported (follows_runOrchestratorMessage (q := .serving) hdest _)
  · exact follows_reported (follows_runDelegatedTurn (.inr rfl) fun args =>
      follows_reported (follows_runOrchestratorEndDelegation args))

theorem keeps_recordInbound (text : String) (names : List String) :
    (episode dest).Keeps (· = .serving) (recordInbound dest text names).run := by
  have hsafe (message : String) (incumbent hidden : Bool) : (episode dest).Safe (· = .serving)
      (.appendHistory dest .user message incumbent hidden) := by
    rintro q rfl
    exact ⟨.inr rfl, fun b _ => rfl⟩
  have hload : (episode dest).Safe (· = .serving) (.attempt .download) := by
    rintro q rfl
    exact ⟨rfl, fun b _ => rfl⟩
  refine Keeps.of_only ?_
  induction names with
  | nil =>
    unfold recordInbound
    split
    · trivial
    · exact ⟨hsafe _ _ _, fun b => by cases b <;> trivial⟩
  | cons name names ih =>
    refine Fallible.only_bind (Fallible.only_lift ⟨hload, fun _ => trivial⟩ fun got => ?_) fun _ => ih
    cases got with
    | false => trivial
    | true => exact ⟨hsafe _ _ _, fun b => by cases b <;> trivial⟩

end

/-! ### What a stage says about the record -/

namespace Conversation

variable {s : Conversation}

/-- The next `id` is above those of all rows. -/
def Numbered (s : Conversation) : Prop := ∀ r ∈ s.history, r.id < s.nextId

theorem Numbered.appendHistory (h : s.Numbered) {now : ℕ} {a : AgentId} {role : Role}
    {message : String} {incumbent hidden : Bool} :
    (s.appendHistory now a role message incumbent hidden).1.Numbered := by
  intro r hr
  obtain hr | hr := List.mem_append.1 hr
  · exact (h r hr).trans (Nat.lt_succ_self _)
  · rw [List.mem_singleton.1 hr]
    exact Nat.lt_succ_self _

theorem Numbered.demote (h : s.Numbered) {p : HistoryRow → Bool} : (s.demote p).Numbered := by
  intro r hr
  obtain ⟨r', hr', rfl⟩ := List.mem_map.1 hr
  have hlt := h r' hr'
  split <;> exact hlt

/-- If all rows are up to `n`, then none is left of the thread. -/
theorem not_active_demoteIncumbentThrough (h : s.Numbered) {a : AgentId} {n : ℕ}
    (hn : s.nextId = n + 1) : ¬ (s.demoteIncumbentThrough a n).Active a := by
  intro hactive
  obtain ⟨r, hr, ha, hi, hp⟩ := active_demote.1 hactive
  have hlt := h r hr
  have hle : r.id ≤ n := by omega
  simp [ha, hi, hle] at hp

end Conversation

/-- **What a stage says about the record**: the thread of the specialist that has the task is the
only one with incumbent rows, beside the orchestrator's. -/
structure Holds (info : Option SessionInfo) (dest : AgentId) (q : Stage) (s : SuiteState) : Prop where
  /-- The row of the session has not changed. -/
  info : s.conv.info = info
  /-- The record of the turn is that of the stage. -/
  course : s.course = q.course
  /-- Rows have been numbered. -/
  numbered : s.conv.Numbered
  /-- Other threads have no incumbent rows. -/
  threads : ∀ a, a ≠ orchestratorAgentId → s.conv.Active a → q.holder dest = some a
  /-- The seed row is the last one. -/
  fresh : ∀ back target seedId, q = .seeded back target seedId → s.conv.nextId = seedId + 1
  /-- Tasks are handed off to specialists. -/
  specialist : ∀ target ∈ q.course.handedTo, IsSpecialist target

section

variable {cfg : SuiteConfig} {i₀ : Option SessionInfo} {dest : AgentId} {q : Stage}
  {s s' : SuiteState} {e : SuiteEnv} {β : Type} {a : SuiteAct β} {b : β}

/-- The thread that is appended to is permitted to have incumbent rows. -/
theorem Stage.Permits.holder {a : AgentId} (h : q.Permits dest a) (ha : a ≠ orchestratorAgentId) :
    q.holder dest = some a := by
  cases q with
  | seeded => exact h.elim
  | _ => exact h.resolve_left ha

theorem Holds.append (h : Holds i₀ dest q s) {a : AgentId} (ha : q.Permits dest a) {now : ℕ}
    {role : Role} {message : String} {incumbent hidden : Bool} :
    Holds i₀ dest q ⟨(s.conv.appendHistory now a role message incumbent hidden).1, s.course⟩ where
  info := h.info
  course := h.course
  numbered := h.numbered.appendHistory
  threads b hb hactive := by
    obtain hactive | ⟨rfl, -⟩ := Conversation.active_append.1 hactive
    · exact h.threads b hb hactive
    · exact ha.holder hb
  fresh back target seedId hq := by
    subst hq
    exact ha.elim
  specialist := h.specialist

/-- The seed row of a hand-off. -/
theorem Holds.seed (h : Holds i₀ dest q s) {target : AgentId} (hq : q.Hands dest)
    (ht : IsSpecialist target) {now : ℕ} {seed : String} :
    Holds i₀ dest (.seeded q.back target s.conv.nextId)
      ⟨(s.conv.appendHistory now target .user seed true false).1,
        { s.course with handedTo := some target }⟩ where
  info := h.info
  course := by
    rw [h.course]
    cases q with
    | seeded => exact hq.elim
    | handed => exact hq.elim
    | _ => rfl
  numbered := h.numbered.appendHistory
  threads a ha hactive := by
    obtain hactive | ⟨rfl, -⟩ := Conversation.active_append.1 hactive
    · have hholder := h.threads a ha hactive
      cases q with
      | serving => exact absurd ((Option.some.inj hholder).symm.trans hq) ha
      | returned => cases hholder
      | seeded => exact hq.elim
      | handed => exact hq.elim
    · rfl
  fresh back target' seedId heq := by
    obtain ⟨-, -, rfl⟩ := Stage.seeded.inj heq
    rfl
  specialist target' htarget := by
    obtain rfl := Option.some.inj htarget
    exact ht

/-- The seed row is retired, and nothing is left of it. -/
theorem Holds.unseed {back : Bool} {target : AgentId} {seedId : ℕ}
    (h : Holds i₀ dest (.seeded back target seedId) s) :
    Holds i₀ dest (Stage.seeded back target seedId).unseeded
      ⟨s.conv.demoteIncumbentThrough target seedId, { s.course with handedTo := none }⟩ := by
  have hnone (a : AgentId) (ha : a ≠ orchestratorAgentId)
      (hactive : (s.conv.demoteIncumbentThrough target seedId).Active a) : False := by
    obtain rfl := Option.some.inj (h.threads a ha hactive.of_demote)
    exact Conversation.not_active_demoteIncumbentThrough h.numbered (h.fresh _ _ _ rfl) hactive
  refine ⟨h.info, ?_, h.numbered.demote, fun a ha hactive => (hnone a ha hactive).elim, ?_, ?_⟩
  · rw [h.course]
    cases back <;> rfl
  · cases back <;> rintro _ _ _ ⟨⟩
  · cases back <;> rintro _ ⟨⟩

/-- The episode is retired, and nothing is left of it. -/
theorem Holds.retire (h : Holds i₀ dest .serving s) :
    Holds i₀ dest .returned
      ⟨s.conv.demoteThread dest, { s.course with handedBack := true }⟩ where
  info := h.info
  course := by
    rw [h.course]
    rfl
  numbered := h.numbered.demote
  threads a ha hactive := by
    obtain ⟨hne, hactive⟩ := Conversation.active_demoteThread.1 hactive
    exact absurd (Option.some.inj (h.threads a ha hactive)).symm hne
  fresh := by rintro _ _ _ ⟨⟩
  specialist := by rintro _ ⟨⟩

theorem Holds.accept (h : Holds i₀ dest q s) : Holds i₀ dest q.accepted s := by
  cases q with
  | seeded back target seedId => exact ⟨h.info, h.course, h.numbered, h.threads, by rintro _ _ _ ⟨⟩, h.specialist⟩
  | _ => exact h

/-- **Every permitted step keeps what the stage says.** -/
theorem Holds.next (h : Holds i₀ dest q s) (hok : (episode dest).ok q a)
    (he : a.exec e s = some (s', b)) : Holds i₀ dest ((episode dest).next q a b) s' := by
  cases a with
  | appendHistory a role message incumbent hidden =>
    simp only [SuiteAct.exec] at he
    obtain ⟨-, rfl⟩ | ⟨-, rfl⟩ := SuiteAct.write_eq he
    · exact h
    · exact h.append hok
  | appendSeed target seed =>
    simp only [SuiteAct.exec] at he
    split at he <;> cases he
    · exact h
    · exact h.seed hok.1 hok.2
  | retireSeed target seedId =>
    obtain ⟨back, rfl⟩ := hok
    simp only [SuiteAct.exec] at he
    split at he <;> cases he
    · exact h
    · exact h.unseed
  | retireEpisode delegate =>
    obtain ⟨rfl, rfl⟩ := hok
    simp only [SuiteAct.exec] at he
    split at he <;> cases he
    · exact h
    · exact h.retire
  | handOn chain target =>
    rw [SuiteAct.exec_reads rfl he]
    cases b with
    | accepted => exact h.accept
    | _ => exact h
  | updateDelegatedTo | applySummary | applyFoldBack | applyDelegation | beginTurn => cases hok
  | _ => rwa [SuiteAct.exec_reads rfl he]

theorem Holds.solo {α : Type} {p : Prog SuiteAct α} {x : α} {fin : Stage → α → Prop}
    (hp : (episode dest).Obeys q p fin) (hq : Holds i₀ dest q s) (h : Solo (suite cfg) p s x s') :
    ∃ q', Holds i₀ dest q' s' ∧ fin q' x := by
  refine hp.solo h hq ?_
  intro β a e q s s₁ b hq hok he
  exact ⟨trivial, hq.next hok he⟩

end

/-! ### Between operations -/

/-- The stored summary of the thread of the specialist. -/
def Conversation.delegateSummary (c : Conversation) : Option String :=
  c.info.bind SessionInfo.delegateSummary

/-- **What holds between operations**: only the thread of the specialist that has the conversation
has incumbent rows, beside the orchestrator's; without one there is no summary. -/
structure Conversation.Kept (c : Conversation) : Prop where
  /-- Only specialists are named. -/
  routed : c.Routed
  /-- Rows have been numbered. -/
  numbered : c.Numbered
  /-- A thread with incumbent rows has the conversation. -/
  threads : ∀ a, a ≠ orchestratorAgentId → c.Active a → c.delegatedTo = some a
  summary : c.delegatedTo = none → c.delegateSummary = none

/-- **A turn that leaves nothing**: a hand-off that has been accepted is noted, of a conversation
that no specialist had; and what ends a delegation has retired its thread, which was never
summarised. -/
structure TurnSettled (before : Conversation) (course : Course) (rep : TurnReport) : Prop where
  handedTo : ∀ target ∈ course.handedTo,
    before.delegatedTo = none ∧ rep.noted = true ∧ rep.result.map TurnResult.agentId = some target
  /-- The specialist fails, or the orchestrator reports. -/
  ended : course.handedTo = none → before.delegatedTo ≠ none → ∀ r ∈ rep.result, rep.noted = true →
    (r.status ≠ .succeeded ∨ r.agentId = orchestratorAgentId) →
    course.handedBack = true ∧ before.delegateSummary = none

instance (before : Conversation) (course : Course) (rep : TurnReport) :
    Decidable (TurnSettled before course rep) :=
  decidable_of_iff ((∀ target ∈ course.handedTo, before.delegatedTo = none ∧ rep.noted = true ∧
      rep.result.map TurnResult.agentId = some target) ∧
    (course.handedTo = none → before.delegatedTo ≠ none → ∀ r ∈ rep.result, rep.noted = true →
      (r.status ≠ .succeeded ∨ r.agentId = orchestratorAgentId) →
      course.handedBack = true ∧ before.delegateSummary = none))
    ⟨fun h => ⟨h.1, h.2⟩, fun h => ⟨h.handedTo, h.ended⟩⟩

section

variable {cfg : SuiteConfig} {s s' : SuiteState} {dest : AgentId} {q : Stage} {text : String}
  {files : List String} {rep : TurnReport}

/-- A turn begins with the thread of the agent it is sent to. -/
theorem Conversation.Kept.holds (h : s.conv.Kept) :
    Holds s.conv.info (routeTo s.conv.info) .serving ⟨s.conv, {}⟩ where
  info := rfl
  course := rfl
  numbered := h.numbered
  threads a ha hactive := by
    have hto := h.threads a ha hactive
    show some ((s.conv.info.bind SessionInfo.delegatedTo).getD _) = some a
    rw [show s.conv.info.bind SessionInfo.delegatedTo = some a from hto]
    rfl
  fresh := by rintro _ _ _ ⟨⟩
  specialist := by rintro _ ⟨⟩

theorem routeTo_eq : routeTo s.conv.info = s.conv.delegatedTo.getD orchestratorAgentId := rfl

theorem Stage.holder_of_handedTo {target : AgentId} (h : q.course.handedTo = some target) :
    q.holder dest = some target := by
  cases q with
  | serving | returned => cases h
  | _ => exact h

theorem delegatedTo_of_route {i₀ : Option SessionInfo} {a : AgentId} (ha : a ≠ orchestratorAgentId)
    (h : routeTo i₀ = a) : i₀.bind SessionInfo.delegatedTo = some a := by
  unfold routeTo at h
  cases hto : i₀.bind SessionInfo.delegatedTo with
  | none => exact absurd (by rw [← h, hto]; rfl) ha
  | some b => rw [← h, hto, Option.getD_some]

/-- Without a hand-off, only the specialist that has the conversation has incumbent rows. -/
theorem Holds.delegatedTo {i₀ : Option SessionInfo} (h : Holds i₀ (routeTo i₀) q s)
    (hto : q.course.handedTo = none) {a : AgentId} (ha : a ≠ orchestratorAgentId)
    (hactive : s.conv.Active a) : q = .serving ∧ i₀.bind SessionInfo.delegatedTo = some a := by
  have hholder := h.threads a ha hactive
  cases q with
  | serving => exact ⟨rfl, delegatedTo_of_route ha (Option.some.inj hholder)⟩
  | returned => cases hholder
  | seeded => cases hto
  | handed => cases hto

/-- A turn that has handed off to nobody and has changed nothing in the row of the session. -/
theorem Holds.kept (h : Holds s.conv.info (routeTo s.conv.info) q s') (hs : s.conv.Kept)
    (hto : q.course.handedTo = none) : s'.conv.Kept where
  routed := ⟨h.info ▸ hs.routed.info, by
    show ∀ a ∈ s'.conv.info.bind _, _
    rw [h.info]
    exact hs.routed.specialist⟩
  numbered := h.numbered
  threads a ha hactive := by
    show s'.conv.info.bind _ = _
    rw [h.info]
    exact (h.delegatedTo hto ha hactive).2
  summary := by
    show s'.conv.info.bind _ = _ → s'.conv.info.bind _ = _
    rw [h.info]
    exact hs.summary

theorem updateDelegation_state {r : TurnResult} {done : Bool}
    (h : Solo (suite cfg) (updateDelegation dest r) s done s') :
    s' = s ∧ (done = true → delegationUpdate dest r = none) ∨
      ∃ v, delegationUpdate dest r = some v ∧ done = true ∧
        s' = ⟨s.conv.updateSessionInfo fun i => { i with delegatedTo := v }, s.course⟩ := by
  unfold updateDelegation at h
  split at h
  · rename_i hnone
    exact .inl ⟨(Solo.ret_iff.1 h).2, fun _ => hnone⟩
  · rename_i v hv
    obtain ⟨e, he⟩ := Solo.perform_iff.1 h
    obtain ⟨rfl, rfl⟩ | ⟨rfl, rfl⟩ := SuiteAct.write_eq
      (f := fun c => c.updateSessionInfo fun i => { i with delegatedTo := v }) he
    · exact .inl ⟨rfl, fun hdone => by cases hdone⟩
    · exact .inr ⟨v, hv, rfl, rfl⟩

/-- What is noted of a turn that leaves nothing. -/
theorem Holds.noted {r : TurnResult} {v : Option AgentId}
    (h : Holds s.conv.info (routeTo s.conv.info) q s') (hs : s.conv.Kept)
    (hset : TurnSettled s.conv q.course { result := some r, noted := true })
    (hv : delegationUpdate (routeTo s.conv.info) r = some v) :
    (s'.conv.updateSessionInfo fun i => { i with delegatedTo := v }).Kept := by
  have hinfo : s'.conv.info.isSome = true := h.info ▸ hs.routed.info
  have hto : (s'.conv.updateSessionInfo fun i => { i with delegatedTo := v }).delegatedTo = v :=
    Conversation.delegatedTo_update hinfo fun _ => rfl
  have hsum : (s'.conv.updateSessionInfo fun i => { i with delegatedTo := v }).delegateSummary =
      s.conv.delegateSummary := by
    show (s'.conv.info.map _).bind _ = s.conv.info.bind _
    rw [h.info]
    cases s.conv.info <;> rfl
  have hrouted : (s'.conv.updateSessionInfo fun i => { i with delegatedTo := v }).Routed :=
    ⟨(Option.isSome_map ..).trans hinfo, by rw [hto]; exact delegationUpdate_names hv⟩
  cases hhanded : q.course.handedTo with
  | some target =>
    -- The specialist has reported, and it is noted.
    obtain ⟨hbefore, -, htarget⟩ := hset.handedTo target hhanded
    obtain rfl : r.agentId = target := Option.some.inj htarget
    have hv' : v = some r.agentId := by
      rw [show routeTo s.conv.info = orchestratorAgentId by rw [routeTo_eq, hbefore]; rfl,
        delegationUpdate_orchestrator, if_pos (h.specialist _ hhanded)] at hv
      exact (Option.some.inj hv).symm
    refine ⟨hrouted, h.numbered, fun a ha hactive => ?_, fun hnone => ?_⟩
    · rw [hto, hv', ← Stage.holder_of_handedTo hhanded]
      exact h.threads a ha hactive
    · rw [hto, hv'] at hnone
      cases hnone
  | none =>
    have hended (d : AgentId) (hd : s.conv.delegatedTo = some d) :
        q.course.handedBack = true ∧ s.conv.delegateSummary = none := by
      have hdest := (hs.routed.specialist d hd).1
      rw [show routeTo s.conv.info = d by rw [routeTo_eq, hd]; rfl,
        delegationUpdate_specialist hdest] at hv
      refine hset.ended hhanded (by simp [hd]) r rfl rfl ?_
      by_contra hno
      push Not at hno
      rw [if_pos hno] at hv
      cases hv
    refine ⟨hrouted, h.numbered, fun a ha hactive => ?_, fun _ => ?_⟩
    · obtain ⟨rfl, hd⟩ := h.delegatedTo hhanded ha hactive
      exact absurd (hended a hd).1 (by simp [Stage.course])
    · rw [hsum]
      cases hd : s.conv.delegatedTo with
      | none => exact hs.summary hd
      | some d => exact (hended d hd).2

theorem maybeSummarize_course {a : AgentId} {tokens : Option ℕ}
    {x : Except Unit (Option SummaryRun)}
    (h : Solo (suite cfg) (maybeSummarize a tokens).run s x s') : s'.course = s.course := by
  obtain ⟨-, rfl⟩ | ⟨run, info, -, -, -, -, -, rfl⟩ := maybeSummarize_solo h <;> rfl

theorem maybeSummarize_kept {a : AgentId} {tokens : Option ℕ} {x : Except Unit (Option SummaryRun)}
    (hs : s.conv.Kept) (h : Solo (suite cfg) (maybeSummarize a tokens).run s x s') :
    s'.conv.Kept := by
  obtain ⟨-, rfl⟩ | ⟨run, info, -, hinfo, hlen, -, -, rfl⟩ := maybeSummarize_solo h
  · exact hs
  refine ⟨⟨?_, ?_⟩, hs.numbered.demote, fun b hb hactive => ?_, fun hnone => ?_⟩
  · exact (Option.isSome_map ..).trans hs.routed.info
  · rw [Conversation.delegatedTo_applySummary]
    exact hs.routed.specialist
  · rw [Conversation.delegatedTo_applySummary]
    exact hs.threads b hb hactive.of_demote
  · rw [Conversation.delegatedTo_applySummary] at hnone
    by_cases ha : a = orchestratorAgentId
    · rw [← hs.summary hnone]
      show (s.conv.info.map _).bind _ = s.conv.info.bind _
      cases s.conv.info with
      | none => rfl
      | some i => simp [ha]
    · -- There are rows to summarise, so the specialist has the conversation.
      obtain ⟨row, hrow⟩ := List.exists_mem_of_length_pos
        (show 0 < (s.conv.reloadIncumbent a none).length by unfold minRowsToSummarize at hlen; omega)
      obtain ⟨hmem, hra, hi, -⟩ := Conversation.mem_reloadIncumbent.1 hrow
      exact absurd (hs.threads a ha ⟨row, hmem, hra, hi⟩) (by simp [hnone])

/-- A turn that is not noted has handed off to nobody. -/
theorem Holds.unnoted (h : Holds s.conv.info (routeTo s.conv.info) q s') (hs : s.conv.Kept)
    (hset : TurnSettled s.conv s'.course rep) (hrep : rep.noted = false) : s'.conv.Kept := by
  refine h.kept hs ?_
  cases hto : q.course.handedTo with
  | none => rfl
  | some target =>
    obtain ⟨-, hnoted, -⟩ := hset.handedTo target (by rw [h.course, hto]; rfl)
    rw [hrep] at hnoted
    cases hnoted

/-- A hand-off that is noted changes who has the conversation. -/
theorem Holds.quiet {r : TurnResult} (h : Holds s.conv.info (routeTo s.conv.info) q s')
    (hset : TurnSettled s.conv q.course { result := some r, noted := true })
    (hquiet : delegationUpdate (routeTo s.conv.info) r = none) : q.course.handedTo = none := by
  cases hto : q.course.handedTo with
  | none => rfl
  | some target =>
    obtain ⟨hbefore, -, htarget⟩ := hset.handedTo target hto
    obtain rfl : r.agentId = target := Option.some.inj htarget
    rw [show routeTo s.conv.info = orchestratorAgentId by rw [routeTo_eq, hbefore]; rfl,
      delegationUpdate_orchestrator, if_pos (h.specialist _ hto)] at hquiet
    cases hquiet

theorem Holds.serve {i₀ : Option SessionInfo} {prompt : String} {r : Option TurnResult}
    (h : Holds i₀ dest .serving s)
    (hserve : Solo (suite cfg) ((serveTurn cfg dest prompt).interruptible .strike) s r s') :
    ∃ q, Holds i₀ dest q s' := by
  have hstrike (q : Stage) : (episode dest).ok q .strike ∧ (episode dest).next q .strike false = q :=
    ⟨rfl, rfl⟩
  obtain ⟨q, hq, -⟩ := Holds.solo (Obeys.interruptible hstrike (follows_serveTurn prompt)) h hserve
  exact ⟨q, hq⟩

/-- **A turn that leaves nothing keeps the invariant.** -/
theorem dispatchTurn_kept (hs : s.conv.Kept)
    (h : Solo (suite cfg) (cfg.dispatchTurn text files) s rep s')
    (hset : TurnSettled s.conv s'.course rep) : s'.conv.Kept := by
  obtain ⟨e₀, s₀, _, he₀, h⟩ := Solo.perform_bind_iff.1 h
  obtain rfl : s₀ = ⟨s.conv, {}⟩ := (Prod.mk.inj (Option.some.inj he₀)).1.symm
  obtain ⟨e₁, s₁, info, he₁, h⟩ := Solo.perform_bind_iff.1 h
  obtain rfl := SuiteAct.exec_reads (a := .getSessionInfo) rfl he₁
  cases info with
  | none =>
    obtain ⟨rfl, rfl⟩ := Solo.ret_iff.1 h
    exact hs
  | some info =>
    obtain rfl : s.conv.info = info := query_answer he₁
    obtain ⟨saved, s₂, hsaved, h⟩ := Solo.bind_iff.1 h
    obtain ⟨q, h₂, rfl⟩ := Holds.solo (keeps_recordInbound text files _ rfl) hs.holds hsaved
    cases saved with
    | error =>
      obtain ⟨rfl, rfl⟩ := Solo.ret_iff.1 h
      exact h₂.unnoted hs hset rfl
    | ok =>
      obtain ⟨e₃, s₃, sent, he₃, h⟩ := Solo.perform_bind_iff.1 h
      obtain rfl := SuiteAct.exec_reads (a := .attempt .spawn) rfl he₃
      cases sent with
      | false =>
        obtain ⟨rfl, rfl⟩ := solo_errand h
        exact h₂.unnoted hs hset rfl
      | true =>
        obtain ⟨r, s₄, hserve, h⟩ := Solo.bind_iff.1 h
        obtain ⟨q, h₄⟩ := h₂.serve hserve
        obtain ⟨e₅, s₅, result, he₅, h⟩ := Solo.perform_bind_iff.1 h
        obtain rfl := SuiteAct.exec_reads (a := .awaitResult r) rfl he₅
        cases result with
        | none =>
          obtain ⟨rfl, rfl⟩ := solo_errand h
          exact h₄.unnoted hs hset rfl
        | some result =>
          obtain ⟨e₆, s₆, told, he₆, h⟩ := Solo.perform_bind_iff.1 h
          obtain rfl := SuiteAct.exec_reads (a := .attempt .sendMessage) rfl he₆
          cases told with
          | false =>
            obtain ⟨rfl, rfl⟩ := Solo.ret_iff.1 h
            exact h₄.unnoted hs hset rfl
          | true =>
            obtain ⟨noted, s₇, hnoted, h⟩ := Solo.bind_iff.1 h
            cases noted with
            | false =>
              obtain ⟨rfl, rfl⟩ := Solo.ret_iff.1 h
              obtain ⟨rfl, -⟩ | ⟨v, -, hdone, -⟩ := updateDelegation_state hnoted
              · exact h₄.unnoted hs hset rfl
              · cases hdone
            | true =>
              obtain ⟨_, s₈, hsum, h⟩ := Solo.bind_iff.1 h
              obtain ⟨rfl, rfl⟩ := Solo.ret_iff.1 h
              have hcourse := maybeSummarize_course hsum
              obtain ⟨rfl, hquiet⟩ | ⟨v, hv, -, rfl⟩ := updateDelegation_state hnoted
              · rw [hcourse, h₄.course] at hset
                exact maybeSummarize_kept (h₄.kept hs (h₄.quiet hset (hquiet rfl))) hsum
              · rw [hcourse, h₄.course] at hset
                exact maybeSummarize_kept (h₄.noted hs hset hv) hsum

/-! ### Commands -/

theorem Conversation.Kept.append {c : Conversation} (h : c.Kept) {a : AgentId}
    (ha : a = orchestratorAgentId ∨ c.delegatedTo = some a) {now : ℕ} {role : Role}
    {message : String} {incumbent hidden : Bool} :
    (c.appendHistory now a role message incumbent hidden).1.Kept where
  routed := ⟨h.routed.info, h.routed.specialist⟩
  numbered := h.numbered.appendHistory
  threads b hb hactive := by
    obtain hactive | ⟨rfl, -⟩ := active_append.1 hactive
    · exact h.threads b hb hactive
    · exact ha.resolve_left hb
  summary := h.summary

theorem Conversation.Kept.foldBack {c : Conversation} (h : c.Kept) {delegate : AgentId}
    (hto : c.delegatedTo = some delegate) {now : ℕ} {recap : String} :
    (c.applyFoldBack now delegate recap).Kept where
  routed := ⟨(Option.isSome_map ..).trans h.routed.info, by simp⟩
  numbered := h.numbered.appendHistory.appendHistory.demote
  threads a ha hactive := by
    -- No other thread was active, and the orchestrator's does not count.
    obtain ⟨hne, hactive⟩ := active_demoteThread.1 hactive
    obtain hactive | ⟨rfl, -⟩ := active_append.1 hactive
    · obtain hactive | ⟨rfl, -⟩ := active_append.1 hactive
      · have hsame := h.threads a ha hactive
        rw [hto] at hsame
        exact absurd (Option.some.inj hsame).symm hne
      · exact absurd rfl ha
    · exact absurd rfl ha
  summary _ := by
    show (c.info.map _).bind _ = none
    cases c.info <;> rfl

theorem Conversation.Kept.delegation {c : Conversation} (h : c.Kept) (hto : c.delegatedTo = none)
    {target : AgentId} (ht : IsSpecialist target) {now : ℕ} {seed : String} :
    (c.applyDelegation now target seed).Kept := by
  have hto' : (c.applyDelegation now target seed).delegatedTo = some target :=
    delegatedTo_applyDelegation h.routed.info
  refine ⟨⟨(Option.isSome_map ..).trans h.routed.info, ?_⟩, h.numbered.appendHistory,
    fun a ha hactive => ?_, fun hnone => ?_⟩
  · rw [hto']
    rintro a ⟨⟩
    exact ht
  · rw [hto']
    obtain hactive | ⟨rfl, -⟩ := active_append.1 hactive
    · have hhad := h.threads a ha hactive
      rw [hto] at hhad
      cases hhad
    · rfl
  · rw [hto'] at hnone
    cases hnone

theorem foldBack_kept {delegate : AgentId} {info : Option SessionInfo} {x : Except Unit Unit}
    (hs : s.conv.Kept) (hto : s.conv.delegatedTo = some delegate)
    (h : Solo (suite cfg) (foldBack delegate info).run s x s') :
    s'.conv.Kept ∧ (x = .ok () → s'.conv.delegatedTo = none) := by
  obtain ⟨summary, s₁, hsummary, h⟩ := Fallible.solo_bind.1 h
  obtain rfl : s₁ = s := hsummary.keeps (summarizeThread_reads _ _) id SuiteAct.exec_reads
  cases summary with
  | error =>
    obtain ⟨rfl, rfl⟩ := h
    exact ⟨hs, fun hx => by cases hx⟩
  | ok summary =>
    obtain ⟨e, s₂, done, he, hend⟩ := Solo.perform_bind_iff.1 h
    obtain ⟨rfl, rfl⟩ | ⟨rfl, rfl⟩ := SuiteAct.write_eq
      (f := fun c => c.applyFoldBack e.now delegate _) he
    · obtain ⟨rfl, rfl⟩ := Solo.ret_iff.1 hend
      exact ⟨hs, fun hx => by cases hx⟩
    · obtain ⟨rfl, rfl⟩ := Solo.ret_iff.1 hend
      exact ⟨hs.foldBack hto, fun _ => Conversation.delegatedTo_applyFoldBack⟩

theorem undelegate_kept {x : Except Unit Unit} (hs : s.conv.Kept)
    (h : Solo (suite cfg) undelegate.run s x s') : s'.conv.Kept := by
  obtain ⟨e, s₁, info, he, h⟩ := Fallible.solo_query.1 h
  obtain rfl := SuiteAct.exec_reads (a := .getSessionInfo) rfl he
  cases info with
  | none =>
    obtain ⟨-, rfl⟩ := h
    exact hs
  | some info =>
    obtain rfl : s₁.conv.info = info := query_answer he
    dsimp only at h
    split at h
    · obtain ⟨-, rfl⟩ := Solo.ret_iff.1 h
      exact hs
    · rename_i hto
      exact (foldBack_kept hs hto h).1

/-- The delegation itself, when no specialist has the conversation. -/
theorem seedDelegation_kept {target : AgentId} {previous : Option String} {seed : String → String}
    {x : Except Unit Unit} (hs : s.conv.Kept) (hto : s.conv.delegatedTo = none)
    (ht : IsSpecialist target)
    (h : Solo (suite cfg) (summarizeThread orchestratorAgentId previous >>= fun summary =>
      Fallible.write (.applyDelegation target (seed summary))).run s x s') : s'.conv.Kept := by
  obtain ⟨summary, s₁, hsummary, h⟩ := Fallible.solo_bind.1 h
  obtain rfl : s₁ = s := hsummary.keeps (summarizeThread_reads _ _) id SuiteAct.exec_reads
  cases summary with
  | error =>
    obtain ⟨-, rfl⟩ := h
    exact hs
  | ok summary =>
    obtain ⟨e, s₂, done, he, hend⟩ := Solo.perform_bind_iff.1 h
    obtain ⟨rfl, rfl⟩ | ⟨rfl, rfl⟩ := SuiteAct.write_eq
      (f := fun c => c.applyDelegation e.now target _) he
    · obtain ⟨-, rfl⟩ := Solo.ret_iff.1 hend
      exact hs
    · obtain ⟨-, rfl⟩ := Solo.ret_iff.1 hend
      exact hs.delegation hto ht

theorem delegateTo_kept {target : AgentId} {x : Except Unit Unit} (hs : s.conv.Kept)
    (h : Solo (suite cfg) (delegateTo cfg target).run s x s') : s'.conv.Kept := by
  unfold delegateTo at h
  split at h
  · rename_i htarget
    have ht := cfg.specialists _ (List.mem_append_right _ htarget)
    obtain ⟨e, s₁, info, he, h⟩ := Fallible.solo_query.1 h
    obtain rfl := SuiteAct.exec_reads (a := .getSessionInfo) rfl he
    cases info with
    | none =>
      obtain ⟨-, rfl⟩ := h
      exact hs
    | some info =>
      obtain rfl : s₁.conv.info = info := query_answer he
      dsimp only at h
      split at h
      · obtain ⟨-, rfl⟩ := Solo.ret_iff.1 h
        exact hs
      · split at h
        · rename_i hto
          exact seedDelegation_kept hs hto ht h
        · rename_i current hto
          obtain ⟨y, s₂, hfold, h⟩ := Fallible.solo_bind.1 h
          obtain ⟨hs₂, hnone⟩ := foldBack_kept hs hto hfold
          cases y with
          | error =>
            obtain ⟨-, rfl⟩ := h
            exact hs₂
          | ok =>
            obtain ⟨e', s₃, info', he', h⟩ := Fallible.solo_query.1 h
            obtain rfl := SuiteAct.exec_reads (a := .getSessionInfo) rfl he'
            cases info' with
            | none =>
              obtain ⟨-, rfl⟩ := h
              exact hs₂
            | some info' => exact seedDelegation_kept hs₂ (hnone rfl) ht h
  · obtain ⟨-, rfl⟩ := Solo.ret_iff.1 h
    exact hs

/-! ### Runs -/

/-- **An operation that leaves nothing**: turns that are settled, all commands, and late rows of the
orchestrator or of the specialist that has the conversation. -/
def CallSettled (d : Performed SuiteState SuiteCall TurnReport) : Prop :=
  match d.call with
  | .message _ _ => TurnSettled d.before.conv d.after.course d.answer
  | .delegate _ | .undelegate => True
  | .straggle a _ => a = orchestratorAgentId ∨ d.before.conv.delegatedTo = some a

instance : (d : Performed SuiteState SuiteCall TurnReport) → Decidable (CallSettled d)
  | ⟨.message _ _, _, _, _⟩ => inferInstanceAs (Decidable (TurnSettled _ _ _))
  | ⟨.delegate _, _, _, _⟩ | ⟨.undelegate, _, _, _⟩ => inferInstanceAs (Decidable True)
  | ⟨.straggle a _, _, _, _⟩ => inferInstanceAs (Decidable (a = orchestratorAgentId ∨ _ = some a))

/-- **Nothing is left of a delegation that has ended**: no specialist's thread has incumbent rows,
there is no summary of it, and a new delegation starts from its own seed row. -/
structure Conversation.EpisodeOver (c : Conversation) : Prop where
  /-- No thread but the orchestrator's has incumbent rows. -/
  threads : ∀ a, a ≠ orchestratorAgentId → ¬ c.Active a
  /-- There is no summary. -/
  summary : c.delegateSummary = none
  /-- The seed row of a new delegation is all its specialist is shown. -/
  seedOnly : ∀ now target seed hidden, target ≠ orchestratorAgentId →
    (c.appendHistory now target .user seed true hidden).1.reloadIncumbent target none =
      [⟨c.nextId, target, .user, seed, now, true, hidden⟩]

theorem Conversation.Kept.episodeOver {c : Conversation} (h : c.Kept) (hto : c.delegatedTo = none) :
    c.EpisodeOver := by
  have hthreads (a : AgentId) (ha : a ≠ orchestratorAgentId) : ¬ c.Active a := by
    intro hactive
    have hhas := h.threads a ha hactive
    rw [hto] at hhas
    cases hhas
  refine ⟨hthreads, h.summary hto, fun now target seed hidden ht => ?_⟩
  have hold : c.history.filter (fun r => decide (r.agentId = target) && r.incumbent &&
      r.role.reloaded && (none : Option ℕ).all fun n => decide (r.id ≤ n)) = [] := by
    refine List.filter_eq_nil_iff.2 fun r hr hp => hthreads target ht ⟨r, hr, ?_⟩
    simp only [Bool.and_eq_true, decide_eq_true_eq] at hp
    exact ⟨hp.1.1.1, hp.1.1.2⟩
  simp only [reloadIncumbent, appendHistory, List.filter_append, hold]
  simp [Role.reloaded]

theorem settled_kept {d : Performed SuiteState SuiteCall TurnReport}
    (h : Solo (suite cfg) (d.call.body cfg) d.before d.answer d.after) (hset : CallSettled d)
    (hs : d.before.conv.Kept) : d.after.conv.Kept := by
  obtain ⟨c, s, rep, s'⟩ := d
  cases c with
  | message text files => exact dispatchTurn_kept hs h hset
  | delegate target =>
    obtain ⟨x, s₁, hx, hend⟩ := Solo.bind_iff.1 h
    obtain ⟨-, rfl⟩ := Solo.ret_iff.1 hend
    exact delegateTo_kept hs hx
  | undelegate =>
    obtain ⟨x, s₁, hx, hend⟩ := Solo.bind_iff.1 h
    obtain ⟨-, rfl⟩ := Solo.ret_iff.1 hend
    exact undelegate_kept hs hx
  | straggle a text =>
    change Solo (suite cfg) (SuiteCall.body cfg (.straggle a text)) s rep s' at h
    obtain ⟨e, s₁, done, he, hend⟩ := Solo.perform_bind_iff.1 h
    obtain ⟨-, rfl⟩ := Solo.ret_iff.1 hend
    obtain ⟨-, rfl⟩ | ⟨-, rfl⟩ := SuiteAct.write_eq
      (f := fun c => (c.appendHistory e.now a .assistant text true false).1) he
    · exact hs
    · exact hs.append hset

/-- **Where every operation is settled, nothing is left of a delegation that has ended**: whenever no
specialist has the conversation, in every state between the operations of every run. -/
theorem no_episode_left {s₀ : SuiteState} {ops : List (Performed SuiteState SuiteCall TurnReport)}
    (h : Serial (suite cfg) s₀ ops s) (h₀ : s₀.conv.Kept) (hset : ∀ d ∈ ops, CallSettled d) :
    (s.conv.delegatedTo = none → s.conv.EpisodeOver) ∧
      ∀ d ∈ ops, (d.before.conv.delegatedTo = none → d.before.conv.EpisodeOver) ∧
        (d.after.conv.delegatedTo = none → d.after.conv.EpisodeOver) := by
  obtain ⟨hs, hall⟩ := h.invariant (I := fun s => s.conv.Kept) h₀ hset
    fun d hd hok hb => settled_kept hd hok hb
  exact ⟨hs.episodeOver, fun d hd => ⟨(hall d hd).1.episodeOver, (hall d hd).2.episodeOver⟩⟩

end

namespace Sample

/-- The next message goes to the specialist, whose loop of calls to the model ends so. -/
def delegated (loop : SuiteEnv) : List SuiteEnv := calm 11 ++ [loop] ++ calm 40

/-- A conversation is handed off to a specialist, and in the next turn this is how its loop ends. -/
def episodeOf (loop : SuiteEnv) : List (SuiteCall × List SuiteEnv) :=
  [(.message "hi" [], handingOff false), (.message "more" [], delegated loop)]

end Sample

theorem Sample.opened_kept : Sample.opened.conv.Kept where
  routed := ⟨rfl, by decide⟩
  numbered := by rintro r ⟨⟩
  threads := by rintro a - ⟨r, hr, -⟩; cases hr
  summary _ := rfl

/-- A delegation that is handed back leaves nothing. -/
theorem no_episode_left_of_handBack : ∃ ops s,
    Serial (suite Sample.deployed) Sample.opened ops s ∧ ops.length = 2 ∧
    (∀ d ∈ ops, d.answer.noted = true) ∧ s.conv.delegatedTo = none ∧ s.conv.EpisodeOver := by
  have hplay : ((suite Sample.deployed).playAll Sample.opened (Sample.episodeOf
      { reply := { endDelegation := some { delegationSummary := "Done." } } })).map (fun r =>
        (r.1.length, r.1.all (fun d => decide (CallSettled d) && d.answer.noted), r.2.conv.delegatedTo)) =
      some (2, true, none) := by
    decide +kernel
  obtain ⟨⟨ops, s⟩, hops, hend⟩ := Option.map_eq_some_iff.1 hplay
  obtain ⟨hlen, hrest⟩ := Prod.mk.inj hend
  obtain ⟨hall, hto⟩ := Prod.mk.inj hrest
  have heach (d) (hd : d ∈ ops) : CallSettled d ∧ d.answer.noted = true := by
    have hd := List.all_eq_true.1 hall d hd
    simpa using hd
  have hrun : Serial (suite Sample.deployed) Sample.opened ops s := Serial.of_playAll .nil hops
  exact ⟨ops, s, hrun, hlen, fun d hd => (heach d hd).2, hto,
    (no_episode_left hrun Sample.opened_kept fun d hd => (heach d hd).1).1 hto⟩

/-- A specialist fails: the conversation is taken from it, and its thread keeps its rows. -/
theorem episode_left_behind : ∃ ops s,
    Serial (suite Sample.deployed) Sample.opened ops s ∧ ops.length = 2 ∧
    s.conv.delegatedTo = none ∧ s.conv.Active "research" ∧
    ¬ (s.conv.delegatedTo = none → s.conv.EpisodeOver) := by
  have hplay : ((suite Sample.deployed).playAll Sample.opened (Sample.episodeOf
      { fails := true })).map (fun r => (r.1.length, r.2.conv.delegatedTo,
        decide (r.2.conv.Active "research"))) = some (2, none, true) := by
    decide +kernel
  obtain ⟨⟨ops, s⟩, hops, hend⟩ := Option.map_eq_some_iff.1 hplay
  obtain ⟨hlen, hrest⟩ := Prod.mk.inj hend
  obtain ⟨hto, hactive⟩ := Prod.mk.inj hrest
  have hactive : s.conv.Active "research" := of_decide_eq_true hactive
  exact ⟨ops, s, Serial.of_playAll .nil hops, hlen, hto, hactive,
    fun hover => (hover hto).threads "research" (by decide) hactive⟩

end Backplane
