import Backplane.Protocol.Types
import Mathlib.Data.List.Sort

/-!
# The record of a session

A session has a row that says who has the conversation, and a history in which every agent has a
thread of its own.  Rows that are incumbent are what an agent is shown again; the others are kept
for the record, and what they said is in a summary.

* `SessionInfo`, `HistoryRow`, `Conversation` : the rows of one session.
* `appendHistory`, `reloadIncumbent`, `demoteIncumbentThrough`, `demoteThread`, `updateSessionInfo` :
  the queries.
* `applySummary`, `applyFoldBack`, `applyDelegation` : the transactions.
* `Conversation.Active` : the agents whose threads have incumbent rows, and what the queries do to
  them.
-/

namespace Backplane

/-- The agent that has the conversation unless a specialist has. -/
def orchestratorAgentId : AgentId := "orchestrator"

/-- Who is said to report a task that the router has ended. -/
def routerAgentId : AgentId := "router"

/-- The agent is neither the orchestrator nor the router. -/
def IsSpecialist (a : AgentId) : Prop := a ≠ orchestratorAgentId ∧ a ≠ routerAgentId

instance (a : AgentId) : Decidable (IsSpecialist a) :=
  inferInstanceAs (Decidable (a ≠ orchestratorAgentId ∧ a ≠ routerAgentId))

/-- Whose words a row of the history has. -/
inductive Role
  | user | assistant | toolCall | toolResult
  deriving DecidableEq, Repr

namespace Role

/-- Value in the database. -/
def value : Role → String
  | user => "user"
  | assistant => "assistant"
  | toolCall => "tool_call"
  | toolResult => "tool_result"

/-- Rows of this kind are shown to an agent again. -/
def reloaded : Role → Bool
  | user | assistant => true
  | toolCall | toolResult => false

end Role

/-- A row of `session_history`. -/
structure HistoryRow where
  id : ℕ
  agentId : AgentId
  role : Role
  message : String
  createdAt : ℕ := 0
  /-- It is shown to the agent again. -/
  incumbent : Bool := true
  hidden : Bool := false
  deriving DecidableEq, Repr

/-- What is of interest of the row in `session_info`. -/
structure SessionInfo where
  userId : UserId
  delegatedTo : Option AgentId := none
  historySummary : Option String := none
  delegateSummary : Option String := none
  deriving DecidableEq, Repr

/-- The rows of one session. -/
structure Conversation where
  /-- Its row in `session_info`. -/
  info : Option SessionInfo := none
  /-- `max_context_token_limit`, if its user has a row in `user_config`. -/
  limit : Option ℕ := none
  /-- Its rows in `session_history`. -/
  history : List HistoryRow := []
  nextId : ℕ := 1
  deriving DecidableEq, Repr

namespace Conversation

variable (s : Conversation)

/-! ### Queries -/

/-- `update_session_info` -/
def updateSessionInfo (f : SessionInfo → SessionInfo) : Conversation :=
  { s with info := s.info.map f }

/-- `append_history`, which returns the `id` of the row. -/
def appendHistory (now : ℕ) (agentId : AgentId) (role : Role) (message : String)
    (incumbent hidden : Bool) : Conversation × ℕ :=
  ({ s with
    history := s.history ++ [⟨s.nextId, agentId, role, message, now, incumbent, hidden⟩]
    nextId := s.nextId + 1 }, s.nextId)

/-- Earlier rows first. -/
def Earlier (x y : HistoryRow) : Prop :=
  x.createdAt < y.createdAt ∨ x.createdAt = y.createdAt ∧ x.id ≤ y.id

instance : DecidableRel Earlier := fun x y =>
  inferInstanceAs (Decidable (x.createdAt < y.createdAt ∨ x.createdAt = y.createdAt ∧ x.id ≤ y.id))

/-- `reload_incumbent` -/
def reloadIncumbent (agentId : AgentId) (upTo : Option ℕ) : List HistoryRow :=
  (s.history.filter fun r => decide (r.agentId = agentId) && r.incumbent && r.role.reloaded &&
    upTo.all fun n => decide (r.id ≤ n)).insertionSort Earlier

/-- The rows that satisfy `p` are demoted. -/
def demote (p : HistoryRow → Bool) : Conversation :=
  { s with history := s.history.map fun r => if p r then { r with incumbent := false } else r }

/-- `demote_incumbent_through` -/
def demoteIncumbentThrough (agentId : AgentId) (upToId : ℕ) : Conversation :=
  s.demote fun r => decide (r.agentId = agentId) && decide (r.id ≤ upToId) && r.incumbent

/-- `demote_thread` -/
def demoteThread (agentId : AgentId) : Conversation :=
  s.demote fun r => decide (r.agentId = agentId) && r.incumbent

/-! ### Transactions -/

/-- A summary is stored, and the rows it has folded in are demoted. -/
def applySummary (agentId : AgentId) (text : String) (upToId : ℕ) : Conversation :=
  (s.updateSessionInfo fun i =>
    if agentId = orchestratorAgentId then { i with historySummary := some text }
    else { i with delegateSummary := some text }).demoteIncumbentThrough agentId upToId

/-- A delegation is ended: a recap for the orchestrator, the episode, and the flags. -/
def applyFoldBack (now : ℕ) (delegate : AgentId) (recap : String) : Conversation :=
  let s := (s.appendHistory now orchestratorAgentId .user recap true true).1
  let s := (s.appendHistory now orchestratorAgentId .assistant "Acknowledged." true true).1
  (s.demoteThread delegate).updateSessionInfo fun i =>
    { i with delegateSummary := none, delegatedTo := none }

/-- A delegation is begun: a seed row for the specialist, and the flag. -/
def applyDelegation (now : ℕ) (target : AgentId) (seed : String) : Conversation :=
  (s.appendHistory now target .user seed true true).1.updateSessionInfo fun i =>
    { i with delegatedTo := some target }

/-! ### What has become of the session -/

/-- The specialist that has the conversation. -/
def delegatedTo : Option AgentId := s.info.bind SessionInfo.delegatedTo

/-- The stored summary of the thread of an agent. -/
def summary (agentId : AgentId) : Option String :=
  s.info.bind fun i =>
    if agentId = orchestratorAgentId then i.historySummary else i.delegateSummary

/-- The thread of the agent has incumbent rows. -/
def Active (agentId : AgentId) : Prop :=
  ∃ r ∈ s.history, r.agentId = agentId ∧ r.incumbent = true

instance (agentId : AgentId) : Decidable (s.Active agentId) :=
  inferInstanceAs (Decidable (∃ r ∈ s.history, r.agentId = agentId ∧ r.incumbent = true))

variable {s} {a b : AgentId} {r : HistoryRow} {p : HistoryRow → Bool} {upTo : Option ℕ}

theorem mem_reloadIncumbent : r ∈ s.reloadIncumbent a upTo ↔
    r ∈ s.history ∧ r.agentId = a ∧ r.incumbent = true ∧ r.role.reloaded = true ∧
      ∀ n ∈ upTo, r.id ≤ n := by
  simp only [reloadIncumbent, List.mem_insertionSort, List.mem_filter, Bool.and_eq_true,
    decide_eq_true_eq, and_assoc]
  refine and_congr_right fun _ => and_congr_right fun _ => and_congr_right fun _ =>
    and_congr_right fun _ => ?_
  cases upTo <;> simp

@[simp] theorem delegatedTo_demote : (s.demote p).delegatedTo = s.delegatedTo := rfl

@[simp] theorem delegatedTo_appendHistory {now : ℕ} {role : Role} {message : String}
    {incumbent hidden : Bool} :
    (s.appendHistory now a role message incumbent hidden).1.delegatedTo = s.delegatedTo := rfl

theorem delegatedTo_applySummary {text : String} {n : ℕ} :
    (s.applySummary a text n).delegatedTo = s.delegatedTo := by
  show ((s.info.map _).bind _) = s.info.bind _
  cases s.info with
  | none => rfl
  | some i =>
    rw [Option.map_some, Option.bind_some, Option.bind_some]
    split_ifs <;> rfl

theorem delegatedTo_update (hs : s.info.isSome = true) {f : SessionInfo → SessionInfo}
    {v : Option AgentId} (hf : ∀ i, (f i).delegatedTo = v) :
    (s.updateSessionInfo f).delegatedTo = v := by
  obtain ⟨i, hi⟩ := Option.isSome_iff_exists.1 hs
  simp [delegatedTo, updateSessionInfo, hi, hf]

@[simp] theorem delegatedTo_applyFoldBack {now : ℕ} {recap : String} :
    (s.applyFoldBack now a recap).delegatedTo = none := by
  show (s.info.map _).bind _ = none
  cases s.info <;> rfl

theorem delegatedTo_applyDelegation (hs : s.info.isSome = true) {now : ℕ} {seed : String} :
    (s.applyDelegation now a seed).delegatedTo = some a := by
  rw [applyDelegation]
  exact delegatedTo_update hs fun _ => rfl

theorem active_append {now : ℕ} {role : Role} {message : String} {incumbent hidden : Bool} :
    (s.appendHistory now a role message incumbent hidden).1.Active b ↔
      s.Active b ∨ a = b ∧ incumbent = true := by
  simp only [Active, appendHistory, List.mem_append, List.mem_singleton, or_and_right, exists_or,
    exists_eq_left]

theorem active_demote : (s.demote p).Active a ↔
    ∃ r ∈ s.history, r.agentId = a ∧ r.incumbent = true ∧ p r = false := by
  simp only [Active, demote, List.mem_map]
  constructor
  · rintro ⟨r', ⟨r, hr, rfl⟩, ha, hi⟩
    cases hp : p r <;> simp only [hp, Bool.false_eq_true, if_false, if_true] at ha hi
    exact ⟨r, hr, ha, hi, hp⟩
  · rintro ⟨r, hr, ha, hi, hp⟩
    exact ⟨r, ⟨r, hr, by simp [hp]⟩, ha, hi⟩

/-- Demoting makes no thread active. -/
theorem Active.of_demote (h : (s.demote p).Active a) : s.Active a := by
  obtain ⟨r, hr, ha, hi, -⟩ := active_demote.1 h
  exact ⟨r, hr, ha, hi⟩

/-- A thread that is demoted has no incumbent rows. -/
theorem active_demoteThread : (s.demoteThread a).Active b ↔ b ≠ a ∧ s.Active b := by
  rw [demoteThread, active_demote]
  constructor
  · rintro ⟨r, hr, rfl, hi, hp⟩
    refine ⟨?_, r, hr, rfl, hi⟩
    rintro rfl
    simp [hi] at hp
  · rintro ⟨hne, r, hr, rfl, hi⟩
    exact ⟨r, hr, rfl, hi, by simp [hne]⟩

end Conversation

end Backplane
