import Backplane.Suite.Statements

/-!
# Summaries of threads

When the context of a thread has grown past its limit, the channel has the older part of it
summarised, stores the summary and demotes the rows it has folded in.  The summariser is a task like
any other; it may fail, be cancelled or answer nothing.

* `runSummarizeIncumbent` : the summariser.
* `maybeSummarize`, `summarizeThread` : what the channel does with it.
* `SummaryKept` : no row is lost.
* `maybeSummarize_eq` : what `maybeSummarize` does to the record, in one step.
* `summary_kept_iff` : exactly when nothing is lost.
-/

namespace Backplane

open Concur Prog

/-! ### The summariser -/

/-- `_SYSTEM` of the summariser. -/
def summarizerSystem : String :=
  "You are a conversation summarizer. Produce a concise, faithful summary of " ++
  "the conversation below, written so an assistant can use it as background " ++
  "context for continuing the conversation. Preserve key facts, decisions, " ++
  "the user's stated preferences, and any open threads. Drop small talk and " ++
  "redundant detail. If a previous summary is provided, integrate it rather " ++
  "than repeating it. Output only the summary text."

/-- A line of `_transcript`. -/
def transcriptLine (r : HistoryRow) : String := r.role.value ++ ": " ++ r.message

/-- `_transcript` -/
def transcript (rows : List HistoryRow) : String := "\n".intercalate (rows.map transcriptLine)

/-- The parts of what the summariser asks the model. -/
def summaryParts (rows : List HistoryRow) (previousSummary : Option String) : List String :=
  (match previousSummary with
    | some p => if p = "" then [] else ["## Previous summary\n" ++ p]
    | none => []) ++ ["## Conversation\n" ++ transcript rows]

/-- What a task of the summariser was given, and how it has ended. -/
structure SummaryRun where
  rows : List HistoryRow := []
  previous : Option String := none
  status : TaskStatus
  content : Option String := none
  deriving DecidableEq, Repr

/-- `_summarize` -/
def summarize (rows : List HistoryRow) (previousSummary : Option String) : Handler String :=
  if rows = [] then pure (previousSummary.getD "")
  else Fallible.query (.generate
    [summarizerSystem, "\n\n".intercalate (summaryParts rows previousSummary)])

/-- `run_summarize_incumbent`, with the rows it has read. -/
def runSummarizeIncumbent (agentId : AgentId) (upTo : ℕ) (previousSummary : Option String) :
    Handler (List HistoryRow × String) := do
  let rows ← Fallible.query (.reloadIncumbent agentId (some upTo))
  let text ← summarize rows previousSummary
  pure (rows, text)

/-- The task of the summariser, as the channel gets to know its end; `none`: the channel has given up
on it. -/
def summaryTask (agentId : AgentId) (upTo : ℕ) (previousSummary : Option String) :
    Prog SuiteAct (Option SummaryRun) := do
  if ← perform (.attempt .spawn) then
    match ← (runSummarizeIncumbent agentId upTo previousSummary).run.interruptible .strike with
    | some (.ok (rows, text)) => do
      let r ← perform (.awaitResult (some { agentId := "history_summarizer", status := .succeeded }))
      pure (r.map fun _ => ⟨rows, previousSummary, .succeeded, some text⟩)
    | some (.error ()) => do
      let status ← perform .failure
      let r ← perform (.awaitResult (some { agentId := "history_summarizer", status := status }))
      pure (r.map fun r => ⟨[], previousSummary, r.status, none⟩)
    | none => do
      let r ← perform (.awaitResult none)
      pure (r.map fun r => ⟨[], previousSummary, r.status, none⟩)
  else pure none

/-! ### The channel -/

/-- `_DEFAULT_CONTEXT_LIMIT` -/
def defaultContextLimit : ℕ := 120000

/-- `_MIN_ROWS_TO_SUMMARIZE` -/
def minRowsToSummarize : ℕ := 6

/-- `cutoff_idx`: about 70% of the rows, and one at least. -/
def cutoffIdx (n : ℕ) : ℕ := max 1 (n * 7 / 10)

/-- `up_to`: the row up to which the rows are folded in. -/
def summaryCutoff (rows : List HistoryRow) : ℕ :=
  (rows[cutoffIdx rows.length - 1]?.map HistoryRow.id).getD 0

/-- `maybe_summarize`.  It returns the task whose result it has applied, if it has. -/
def maybeSummarize (agentId : AgentId) (contextTokens : Option ℕ) : Handler (Option SummaryRun) := do
  match contextTokens with
  | none | some 0 => pure none
  | some tokens =>
    let info ← Fallible.query .getSessionInfo
    match info with
    | none => pure none
    | some info =>
      let limit ← Fallible.query .getUserConfig
      if tokens ≤ limit.getD defaultContextLimit then pure none
      else
        let rows ← Fallible.query (.reloadIncumbent agentId none)
        if rows.length < minRowsToSummarize then pure none
        else
          let upTo := summaryCutoff rows
          let previous :=
            if agentId = orchestratorAgentId then info.historySummary else info.delegateSummary
          match ← Fallible.lift (summaryTask agentId upTo previous) with
          | none => pure none
          | some run =>
            Fallible.write (.applySummary agentId (run.content.getD "") upTo)
            pure (some run)

/-- `_summarize_thread` -/
def summarizeThread (agentId : AgentId) (previous : Option String) : Handler String := do
  let rows ← Fallible.query (.reloadIncumbent agentId none)
  match rows.getLast? with
  | none => pure (previous.getD "")
  | some last =>
    match ← Fallible.lift (summaryTask agentId last.id previous) with
    | none => pure (previous.getD "")
    | some run =>
      let content := run.content.getD ""
      pure (if content = "" then previous.getD "" else content)

/-! ### What the task of the summariser is given -/

section

variable {C R : Type} {body : C → Prog SuiteAct R} {s s' : SuiteState} {a : AgentId} {upTo : ℕ}
  {previous : Option String}

theorem summaryTask_reads (a : AgentId) (upTo : ℕ) (previous : Option String) :
    (summaryTask a upTo previous).Only fun act => act.writes = false := by
  have hrun : (runSummarizeIncumbent a upTo previous).run.Only fun act => act.writes = false := by
    rw [runSummarizeIncumbent, Fallible.run_query]
    refine ⟨rfl, fun rows => ?_⟩
    cases rows with
    | none => trivial
    | some rows =>
      show (ExceptT.run (summarize rows previous >>= fun text => pure (rows, text))).Only _
      unfold summarize
      split
      · trivial
      · rw [Fallible.run_query]
        exact ⟨rfl, fun text => by cases text <;> trivial⟩
  refine ⟨rfl, fun sent => ?_⟩
  cases sent with
  | false => trivial
  | true =>
    show ((runSummarizeIncumbent a upTo previous).run.interruptible .strike >>= _).Only _
    refine Only.bind (hrun.interruptible rfl) fun r => ?_
    match r with
    | some (.ok _) => exact ⟨rfl, fun _ => trivial⟩
    | some (.error ()) => exact ⟨rfl, fun _ => ⟨rfl, fun _ => trivial⟩⟩
    | none => exact ⟨rfl, fun _ => trivial⟩

theorem summarizeThread_reads (a : AgentId) (previous : Option String) :
    (summarizeThread a previous).run.Only fun act => act.writes = false := by
  refine Fallible.only_query rfl fun rows => ?_
  split
  · trivial
  · refine Fallible.only_lift (summaryTask_reads _ _ _) fun run => ?_
    cases run <;> trivial

/-- The rows that are summarised are those that were read. -/
theorem runSummarizeIncumbent_solo {rows : List HistoryRow} {text : String}
    (h : Solo (suiteOf body) (runSummarizeIncumbent a upTo previous).run s (.ok (rows, text)) s') :
    rows = s.conv.reloadIncumbent a (some upTo) := by
  obtain ⟨e, s₁, read, he, h⟩ := Fallible.solo_query.1 h
  obtain ⟨-, hread⟩ := Prod.mk.inj (Option.some.inj he)
  cases read with
  | none => exact absurd h.1 (by simp)
  | some read =>
    split at hread
    · cases hread
    · obtain rfl := Option.some.inj hread
      dsimp only at h
      unfold summarize at h
      split at h
      · exact (Prod.mk.inj (Except.ok.inj (Solo.ret_iff.1 h).1)).1
      · obtain ⟨e', s₂, written, -, h⟩ := Fallible.solo_query.1 h
        cases written with
        | none => exact absurd h.1 (by simp)
        | some _ => exact (Prod.mk.inj (Except.ok.inj (Solo.ret_iff.1 h).1)).1

/-- A task that has failed is not reported as a success. -/
theorem awaitResult_status {e : SuiteEnv} {r : Option TurnResult} {r' : TurnResult}
    (h : (SuiteAct.awaitResult r).exec e s = some (s', some r'))
    (hr : ∀ x ∈ r, x.status ≠ .succeeded) : r'.status ≠ .succeeded := by
  simp only [SuiteAct.exec] at h
  split at h
  · cases h
  · split at h
    · cases h
      exact hr _ rfl
    · split at h
      · cases h
      · rename_i hst
        cases h
        exact hst

/-- A task of the summariser writes nothing, and one that succeeds has been given the rows that are
incumbent. -/
theorem summaryTask_solo {r : Option SummaryRun}
    (h : Solo (suiteOf body) (summaryTask a upTo previous) s r s') :
    s' = s ∧ ∀ run ∈ r, run.previous = previous ∧
      (run.status = .succeeded → run.rows = s.conv.reloadIncumbent a (some upTo)) := by
  refine ⟨h.keeps (summaryTask_reads a upTo previous) id fun ha he => SuiteAct.exec_reads ha he, ?_⟩
  obtain ⟨e, s₁, sent, he, h⟩ := Solo.perform_bind_iff.1 h
  obtain rfl := SuiteAct.exec_reads (a := .attempt .spawn) rfl he
  cases sent with
  | false =>
    obtain ⟨rfl, -⟩ := Solo.ret_iff.1 h
    exact fun run hrun => by cases hrun
  | true =>
    obtain ⟨ended, s₂, hended, h⟩ := Solo.bind_iff.1 h
    match ended, hended, h with
    | some (.ok (rows, text)), hended, h =>
      have hp := Solo.of_interruptible (fun he => SuiteAct.exec_reads (a := .strike) rfl he) hended
      obtain ⟨e', s₄, res, -, h⟩ := Solo.perform_bind_iff.1 h
      obtain ⟨rfl, -⟩ := Solo.ret_iff.1 h
      intro run hrun
      obtain ⟨r, -, rfl⟩ := Option.map_eq_some_iff.1 hrun
      exact ⟨rfl, fun _ => runSummarizeIncumbent_solo hp⟩
    | some (.error ()), _, h =>
      obtain ⟨e', s₄, status, hst, h⟩ := Solo.perform_bind_iff.1 h
      obtain ⟨e'', s₅, res, hres, h⟩ := Solo.perform_bind_iff.1 h
      obtain ⟨rfl, -⟩ := Solo.ret_iff.1 h
      intro run hrun
      obtain ⟨r, rfl, rfl⟩ := Option.map_eq_some_iff.1 hrun
      have hne : status ≠ .succeeded := by
        have hst' : SuiteAct.failure.exec e' s₂ = some (s₄, status) := hst
        simp only [SuiteAct.exec] at hst'
        split at hst' <;> cases hst'
        assumption
      have hres' : (SuiteAct.awaitResult (some ⟨"history_summarizer", status, none⟩)).exec e'' s₄ =
          some (s₅, some r) := hres
      refine ⟨rfl, fun hsucc => absurd hsucc (awaitResult_status hres' fun x hx => ?_)⟩
      obtain rfl := Option.some.inj hx
      exact hne
    | none, _, h =>
      obtain ⟨e'', s₅, res, hres, h⟩ := Solo.perform_bind_iff.1 h
      obtain ⟨rfl, -⟩ := Solo.ret_iff.1 h
      intro run hrun
      obtain ⟨r, rfl, rfl⟩ := Option.map_eq_some_iff.1 hrun
      exact ⟨rfl, fun hsucc => absurd hsucc (awaitResult_status (r := none) hres
        fun x hx => by cases hx)⟩

/-! ### What the channel makes of it -/

/-- The task of the summariser has succeeded, with some text. -/
structure SummaryRun.Succeeded (r : SummaryRun) : Prop where
  status : r.status = .succeeded
  /-- There is some text. -/
  text : r.content.getD "" ≠ ""

/-- What `maybe_summarize` has applied. -/
def appliedSummary (x : Except Unit (Option SummaryRun)) : Option SummaryRun :=
  x.toOption.join

/-- **No conversation is lost**: a row stops being incumbent only if it was part of what a task of
the summariser was given that has succeeded, and whose text is stored; otherwise nothing changes. -/
structure SummaryKept (a : AgentId) (s s' : Conversation) (run : Option SummaryRun) : Prop where
  /-- The rows that are demoted are in the summary. -/
  folded : ∀ (i : ℕ) (row row' : HistoryRow), s.history[i]? = some row →
    s'.history[i]? = some row' → row.incumbent = true → row'.incumbent = false →
    ∃ r text, run = some r ∧ r.status = .succeeded ∧ row ∈ r.rows ∧ r.previous = s.summary a ∧
      r.content = some text ∧ text ≠ "" ∧ s'.summary a = some text
  /-- Without one that has succeeded nothing changes. -/
  unchanged : (∀ r ∈ run, ¬ r.Succeeded) → s' = s

/-- A statement that answers, answers with what it has read. -/
theorem query_answer {α : Type} {fails : Bool} {s₁ : SuiteState} {x y : α}
    (h : some (s, if fails then none else some x) = some (s₁, some y)) : x = y := by
  obtain ⟨-, h⟩ := Prod.mk.inj (Option.some.inj h)
  split at h
  · cases h
  · exact Option.some.inj h

/-- **What `maybe_summarize` does**: it applies nothing, or the end of a task of the summariser. -/
theorem maybeSummarize_solo {tokens : Option ℕ} {x : Except Unit (Option SummaryRun)}
    (h : Solo (suiteOf body) (maybeSummarize a tokens).run s x s') :
    (appliedSummary x = none ∧ s' = s) ∨
      ∃ r info, appliedSummary x = some r ∧ s.conv.info = some info ∧
        minRowsToSummarize ≤ (s.conv.reloadIncumbent a none).length ∧
        r.previous = s.conv.summary a ∧
        (r.status = .succeeded → r.rows =
          s.conv.reloadIncumbent a (some (summaryCutoff (s.conv.reloadIncumbent a none)))) ∧
        s' = ⟨s.conv.applySummary a (r.content.getD "")
          (summaryCutoff (s.conv.reloadIncumbent a none)), s.course⟩ := by
  unfold maybeSummarize at h
  split at h
  · obtain ⟨rfl, rfl⟩ := Solo.ret_iff.1 h
    exact .inl ⟨rfl, rfl⟩
  · obtain ⟨rfl, rfl⟩ := Solo.ret_iff.1 h
    exact .inl ⟨rfl, rfl⟩
  · obtain ⟨e₁, s₁, info, he₁, h⟩ := Fallible.solo_query.1 h
    obtain rfl := SuiteAct.exec_reads (a := .getSessionInfo) rfl he₁
    have hinfo (i : Option SessionInfo) (hi : info = some i) : s₁.conv.info = i := by
      subst hi
      exact query_answer he₁
    rcases info with _ | _ | info
    · exact .inl ⟨by rw [h.1]; rfl, h.2⟩
    · exact .inl ⟨by rw [(Solo.ret_iff.1 h).1]; rfl, (Solo.ret_iff.1 h).2⟩
    obtain ⟨e₂, s₂, limit, he₂, h⟩ := Fallible.solo_query.1 h
    obtain rfl := SuiteAct.exec_reads (a := .getUserConfig) rfl he₂
    rcases limit with _ | limit
    · exact .inl ⟨by rw [h.1]; rfl, h.2⟩
    dsimp only at h
    split at h
    · exact .inl ⟨by rw [(Solo.ret_iff.1 h).1]; rfl, (Solo.ret_iff.1 h).2⟩
    obtain ⟨e₃, s₃, rows, he₃, h⟩ := Fallible.solo_query.1 h
    obtain rfl := SuiteAct.exec_reads (a := .reloadIncumbent a none) rfl he₃
    rcases rows with _ | rows
    · exact .inl ⟨by rw [h.1]; rfl, h.2⟩
    obtain rfl : s₃.conv.reloadIncumbent a none = rows := query_answer he₃
    dsimp only at h
    split at h
    · exact .inl ⟨by rw [(Solo.ret_iff.1 h).1]; rfl, (Solo.ret_iff.1 h).2⟩
    rename_i hrows
    obtain ⟨run, s₄, hrun, h⟩ := Fallible.solo_lift.1 h
    obtain ⟨rfl, hgiven⟩ := summaryTask_solo hrun
    rcases run with _ | run
    · exact .inl ⟨by rw [(Solo.ret_iff.1 h).1]; rfl, (Solo.ret_iff.1 h).2⟩
    obtain ⟨hprevious, hfolded⟩ := hgiven run rfl
    obtain ⟨e₅, s₅, done, he₅, hend⟩ := Fallible.solo_write.1 h
    obtain ⟨rfl, rfl⟩ | ⟨rfl, rfl⟩ := SuiteAct.write_eq
      (f := fun c => c.applySummary a (run.content.getD "") _) he₅
    · obtain ⟨rfl, rfl⟩ := hend
      exact .inl ⟨rfl, rfl⟩
    · obtain ⟨rfl, rfl⟩ := Solo.ret_iff.1 hend
      refine .inr ⟨run, info, rfl, hinfo _ rfl, by omega, ?_, hfolded, rfl⟩
      rw [hprevious, Conversation.summary, hinfo _ rfl]
      rfl

/-! ### When nothing is lost -/

theorem Conversation.history_demote {c : Conversation} {p : HistoryRow → Bool} (i : ℕ) :
    (c.demote p).history[i]? =
      c.history[i]?.map fun r => if p r then { r with incumbent := false } else r :=
  List.getElem?_map

theorem Conversation.history_applySummary {c : Conversation} (text : String) (upTo i : ℕ) :
    (c.applySummary a text upTo).history[i]? = c.history[i]?.map fun r =>
      if decide (r.agentId = a) && decide (r.id ≤ upTo) && r.incumbent then
        { r with incumbent := false } else r :=
  Conversation.history_demote i

theorem Conversation.summary_applySummary {c : Conversation} {text : String} {info : SessionInfo}
    (hc : c.info = some info) : (c.applySummary a text upTo).summary a = some text := by
  show ((c.info.map _).bind _) = some text
  rw [hc, Option.map_some, Option.bind_some]
  split_ifs <;> rfl

/-- The last row that is folded in is incumbent. -/
theorem exists_cutoff {rows : List HistoryRow} (h : minRowsToSummarize ≤ rows.length) :
    ∃ row ∈ rows, row.id = summaryCutoff rows := by
  have hlt : cutoffIdx rows.length - 1 < rows.length := by
    unfold minRowsToSummarize at h
    unfold cutoffIdx
    omega
  refine ⟨rows[cutoffIdx rows.length - 1], List.getElem_mem hlt, ?_⟩
  rw [summaryCutoff, List.getElem?_eq_getElem hlt]
  rfl

/-- **Exactly when nothing is lost**: if `maybe_summarize` applies the end of a task, then the task
has succeeded with some text, and every row that is demoted is one that is reloaded. -/
theorem summary_kept_iff {tokens : Option ℕ} {x : Except Unit (Option SummaryRun)}
    (h : Solo (suiteOf body) (maybeSummarize a tokens).run s x s') :
    SummaryKept a s.conv s'.conv (appliedSummary x) ↔
      ∀ r ∈ appliedSummary x, r.Succeeded ∧
        ∀ row ∈ s.conv.history, row.agentId = a → row.incumbent = true →
          row.id ≤ summaryCutoff (s.conv.reloadIncumbent a none) → row.role.reloaded = true := by
  obtain ⟨hx, rfl⟩ | ⟨r, info, hx, hinfo, hlen, hprevious, hrows, rfl⟩ := maybeSummarize_solo h
  · rw [hx]
    refine ⟨fun _ _ hr => (by cases hr), fun _ => ⟨fun i row row' hi hi' hin hout => ?_, fun _ => rfl⟩⟩
    rw [hi] at hi'
    rw [Option.some.inj hi', hout] at hin
    cases hin
  rw [hx]
  constructor
  · intro hkept r' hr'
    obtain rfl := Option.some.inj hr'
    constructor
    · -- Otherwise nothing has changed, and yet a row was demoted.
      by_contra hfail
      have hsame := hkept.unchanged fun r' hr' => by rwa [← Option.some.inj hr']
      obtain ⟨row, hrow, hid⟩ := exists_cutoff hlen
      obtain ⟨hmem, ha, hin, -⟩ := Conversation.mem_reloadIncumbent.1 hrow
      obtain ⟨i, hi⟩ := List.getElem?_of_mem hmem
      have hdem := Conversation.history_applySummary (c := s.conv) (a := a) (r.content.getD "")
        (summaryCutoff (s.conv.reloadIncumbent a none)) i
      rw [show s.conv.applySummary a _ _ = s.conv from hsame, hi, Option.map_some] at hdem
      simp [ha, hin, hid] at hdem
      rw [hdem] at hin
      cases hin
    · intro row hmem ha hin hid
      obtain ⟨i, hi⟩ := List.getElem?_of_mem hmem
      have hdem := Conversation.history_applySummary (c := s.conv) (a := a) (r.content.getD "")
        (summaryCutoff (s.conv.reloadIncumbent a none)) i
      rw [hi, Option.map_some, if_pos (by simp [ha, hin, hid])] at hdem
      obtain ⟨r', text, hr', hst, hfold, -⟩ := hkept.folded i row _ hi hdem hin rfl
      obtain rfl := Option.some.inj hr'
      rw [hrows hst] at hfold
      exact (Conversation.mem_reloadIncumbent.1 hfold).2.2.2.1
  · intro hall
    obtain ⟨hsucc, hreload⟩ := hall r rfl
    refine ⟨fun i row row' hi hi' hin hout => ?_, fun hno => absurd hsucc (hno r rfl)⟩
    obtain ⟨text, htext⟩ : ∃ text, r.content = some text := by
      cases hc : r.content with
      | none => exact absurd hsucc.text (by simp [hc])
      | some text => exact ⟨text, rfl⟩
    rw [Conversation.history_applySummary, hi, Option.map_some] at hi'
    split at hi'
    · rename_i hp
      simp only [Bool.and_eq_true, decide_eq_true_eq] at hp
      refine ⟨r, text, rfl, hsucc.status, ?_, hprevious, htext, ?_, ?_⟩
      · rw [hrows hsucc.status, Conversation.mem_reloadIncumbent]
        have hmem := List.mem_of_getElem? hi
        exact ⟨hmem, hp.1.1, hin, hreload row hmem hp.1.1 hin hp.1.2, fun n hn => by
          rw [← Option.some.inj hn]; exact hp.1.2⟩
      · have := hsucc.text
        rwa [htext] at this
      · rw [htext]
        exact Conversation.summary_applySummary hinfo
    · rw [Option.some.inj hi', hout] at hin
      cases hin

end

/-! ### A summary, and a failure -/

/-- Calls of `maybe_summarize` for the thread of an agent. -/
def summaries : Machine SuiteAct SuiteEnv SuiteState (AgentId × Option ℕ)
    (Except Unit (Option SummaryRun)) :=
  suiteOf fun c => (maybeSummarize c.1 c.2).run

namespace Sample

/-- A conversation of six rows with a summary of what was before. -/
def longTalk : SuiteState where
  conv :=
    { info := some { userId := "ada", historySummary := some "They planned a trip." }
      history := (List.range 6).map fun i =>
        ⟨i + 1, orchestratorAgentId, if i % 2 = 0 then .user else .assistant, "words", i, true, false⟩
      nextId := 7 }

/-- The summariser answers. -/
def summarised : List SuiteEnv :=
  [{}, {}, {}, {}, {}, {}, {}, { text := "They planned a trip and booked it." }, {}, {}]

/-- The model of the summariser fails. -/
def unsummarised : List SuiteEnv :=
  [{}, {}, {}, {}, {}, {}, {}, { fails := true }, {}, {}, {}]

end Sample

/-- A summary that is applied as it should be. -/
theorem summary_kept_of_success : ∃ x s',
    Solo summaries (maybeSummarize orchestratorAgentId (some 200000)).run Sample.longTalk x s' ∧
    s'.conv.summary orchestratorAgentId = some "They planned a trip and booked it." ∧
    SummaryKept orchestratorAgentId Sample.longTalk.conv s'.conv (appliedSummary x) := by
  have hplay : ((maybeSummarize orchestratorAgentId (some 200000)).run.play summaries Sample.longTalk
      Sample.summarised).map (fun r => ((appliedSummary r.1).map fun t => (t.status, t.content),
        r.2.conv.summary orchestratorAgentId)) =
      some (some (.succeeded, some "They planned a trip and booked it."),
        some "They planned a trip and booked it.") := by
    decide +kernel
  obtain ⟨⟨x, s'⟩, hr, hend⟩ := Option.map_eq_some_iff.1 hplay
  obtain ⟨hrun, hsummary⟩ := Prod.mk.inj hend
  obtain ⟨t, ht, htext⟩ := Option.map_eq_some_iff.1 hrun
  obtain ⟨hst, hcontent⟩ := Prod.mk.inj htext
  have hsolo : Solo summaries _ Sample.longTalk x s' := Solo.of_play hr
  refine ⟨x, s', hsolo, hsummary, (summary_kept_iff hsolo).2 fun r hr => ?_⟩
  rw [show appliedSummary x = some t from ht] at hr
  obtain rfl := Option.some.inj hr
  exact ⟨⟨hst, by rw [hcontent]; decide⟩, by decide⟩

/-- The summariser fails: the summary is overwritten by nothing, and the rows are demoted. -/
theorem summary_lost : ∃ x s',
    Solo summaries (maybeSummarize orchestratorAgentId (some 200000)).run Sample.longTalk x s' ∧
    (appliedSummary x).map SummaryRun.status = some .failed ∧
    s'.conv.summary orchestratorAgentId = some "" ∧
    s'.conv.history.map HistoryRow.incumbent = [false, false, false, false, true, true] ∧
    ¬ SummaryKept orchestratorAgentId Sample.longTalk.conv s'.conv (appliedSummary x) := by
  have hplay : ((maybeSummarize orchestratorAgentId (some 200000)).run.play summaries Sample.longTalk
      Sample.unsummarised).map (fun r => ((appliedSummary r.1).map SummaryRun.status,
        r.2.conv.summary orchestratorAgentId, r.2.conv.history.map HistoryRow.incumbent)) =
      some (some .failed, some "", [false, false, false, false, true, true]) := by
    decide +kernel
  obtain ⟨⟨x, s'⟩, hr, hend⟩ := Option.map_eq_some_iff.1 hplay
  obtain ⟨hrun, hrest⟩ := Prod.mk.inj hend
  obtain ⟨hsummary, hrows⟩ := Prod.mk.inj hrest
  refine ⟨x, s', Solo.of_play hr, hrun, hsummary, hrows, fun hkept => ?_⟩
  have hsame := hkept.unchanged fun r hr hsucc => ?_
  · rw [show s'.conv = _ from hsame] at hsummary
    exact absurd hsummary (by decide)
  · rw [show appliedSummary x = some r from hr, Option.map_some] at hrun
    rw [hsucc.status] at hrun
    cases hrun

end Backplane
