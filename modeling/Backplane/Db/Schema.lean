import Backplane.Acl.Rules
import Backplane.Data.Table
import Backplane.Data.Forest
import Mathlib.Algebra.GroupWithZero.Nat
import Mathlib.Data.List.Sort

/-!
# The database

The tables the task protocol lives in and the queries on them.

* `TaskRow`, `SessionRow`, `AgentRow`, `UserRow`, `FileRow`, `FileNameRow`, `TaskEvent`.
* `Db` : the tables together; `task_events` is a log in commit order.
* `Db.listDescendants`, `Db.countTaskChainDepth`, `Db.taskHasAncestorWithAgent` : the recursive
  queries along `parent_task_id`, each bounded by `maxTaskTreeDepth`.
* `Db.listDelegationDestinations`, `Db.findIdempotent`, `Db.findExpiredTasks` and the other reads.
-/

namespace Backplane

/-- A user. -/
structure UserRow where
  userId : UserId
  /-- `admin`, `service` or `tierN`. -/
  level : String
  suspendedAt : Option ℕ := none
  deletedAt : Option ℕ := none
  deriving DecidableEq, Repr

/-- Where an agent is in its life. -/
inductive AgentStatus
  | active | suspended | pending | removed
  deriving DecidableEq, Repr

/-- A registered agent. -/
structure AgentRow where
  agentId : AgentId
  /-- Only an active agent is given tasks. -/
  status : AgentStatus := .active
  groups : List String := []
  capabilities : List String := []
  /-- `agent_info.accepts_schema`: per mode a JSON schema, or `none` for a free-form payload. -/
  acceptsSchema : Option (List (String × Option Json)) := none
  deriving DecidableEq, Repr

/-- What the access rules see of a registered agent. -/
def AgentRow.view (r : AgentRow) : AgentView := ⟨r.agentId, r.groups, r.capabilities⟩

/-- A user's session. -/
structure SessionRow where
  sessionId : SessionId
  userId : UserId
  openedAt : ℕ
  /-- Closing time; `none` while the session is open. -/
  closedAt : Option ℕ := none
  deriving DecidableEq, Repr

/-- A task. -/
structure TaskRow where
  taskId : TaskId
  parentTaskId : Option TaskId
  rootTaskId : TaskId
  userId : UserId
  sessionId : SessionId
  agentId : AgentId
  /-- The agent that issued the task and is told how it ends. -/
  callerAgentId : AgentId
  activeAgentId : AgentId
  state : TaskState
  idempotencyKey : Option String
  priority : TaskPriority
  /-- When the task times out. -/
  deadline : ℕ
  createdAt : ℕ
  input : Json
  statusCode : Option ℕ := none
  output : Option AgentOutput := none
  error : Option Json := none
  deriving DecidableEq, Repr

/-- Kinds of task event. -/
inductive EventKind
  | admitted | transition | transitionNoop | delegated
  deriving DecidableEq, Repr

/-- A row of the task's history. -/
structure TaskEvent where
  taskId : TaskId
  kind : EventKind
  actor : Option String := none
  fromState : Option TaskState := none
  toState : Option TaskState := none
  payload : Json := []
  deriving DecidableEq, Repr

/-- An uploaded blob. -/
structure FileRow where
  fileId : String
  userId : UserId
  sha256 : String
  byteSize : ℕ
  originalFilename : Option String := none
  deriving DecidableEq, Repr

/-- A name in the file store. -/
structure FileNameRow where
  fileId : String
  byteSize : ℕ
  deriving DecidableEq, Repr

/-- Tasks by id. -/
abbrev Tasks := Table TaskId TaskRow

/-- Names by user, scope and file name. -/
abbrev FileNames := Table (UserId × String × String) FileNameRow

/-- The tables of the router. -/
structure Db where
  users : Table UserId UserRow := ∅
  agents : Table AgentId AgentRow := ∅
  sessions : Table SessionId SessionRow := ∅
  tasks : Tasks := ∅
  /-- `task_events` in commit order. -/
  events : List TaskEvent := []
  files : Table String FileRow := ∅
  fileNames : FileNames := ∅

/-- Bound of every walk along `parent_task_id`. -/
def maxTaskTreeDepth : ℕ := 64

namespace Tasks

/-- The parent of a task. -/
def parent (ts : Tasks) (t : TaskId) : Option TaskId :=
  (ts.lookup t).bind TaskRow.parentTaskId

/-- The children of a task among a user's tasks. -/
def children (ts : Tasks) (userId : UserId) (t : TaskId) : List TaskId :=
  (ts.select fun _ r => decide (r.parentTaskId = some t) && decide (r.userId = userId)).map Prod.fst

/-- The rows in a non-terminal state that satisfy `p`. -/
def openWhere (ts : Tasks) (p : TaskRow → Bool) : List TaskRow :=
  (ts.select fun _ r => p r && !r.state.isTerminal).map Prod.snd

/-- Depth of the ancestor chain of `t` within the user's tree, cut off after `fuel` rows. -/
def chainDepth (ts : Tasks) (userId : UserId) : ℕ → TaskId → ℕ
  | 0, _ => 0
  | fuel + 1, t =>
    match ts.lookup t with
    | none => 0
    | some r =>
      if r.userId = userId then
        match r.parentTaskId with
        | none => 1
        | some p => chainDepth ts userId fuel p + 1
      else 0

/-- Whether one of the first `fuel` rows of the ancestor chain of `t` was admitted for the agent. -/
def hasAncestorWithAgent (ts : Tasks) (agentId : AgentId) (userId : UserId) : ℕ → TaskId → Bool
  | 0, _ => false
  | fuel + 1, t =>
    match ts.lookup t with
    | none => false
    | some r =>
      if r.userId = userId then
        decide (r.agentId = agentId) || match r.parentTaskId with
          | none => false
          | some p => hasAncestorWithAgent ts agentId userId fuel p
      else false

end Tasks

namespace Db

variable (db : Db)

/-- Every descendant of a task in the user's tree. -/
def listDescendants (userId : UserId) (t : TaskId) : List TaskId :=
  Forest.levels (db.tasks.children userId) maxTaskTreeDepth (db.tasks.children userId t)

/-- Depth of the task's ancestor chain, the task included; `0` if the user has no such task. -/
def countTaskChainDepth (userId : UserId) (t : TaskId) : ℕ :=
  db.tasks.chainDepth userId maxTaskTreeDepth t

/-- Whether the task or one of its ancestors was admitted for the agent. -/
def taskHasAncestorWithAgent (t : TaskId) (agentId : AgentId) (userId : UserId) : Bool :=
  db.tasks.hasAncestorWithAgent agentId userId (maxTaskTreeDepth + 1) t

/-- The user's task of that id. -/
def getTask (userId : UserId) (t : TaskId) : Option TaskRow :=
  (db.tasks.lookup t).filter fun r => r.userId = userId

/-- The task an earlier request with the same key created. -/
def findIdempotent (userId : UserId) (key : String) (callerAgentId : AgentId) : Option TaskRow :=
  ((db.tasks.select fun _ r => decide (r.callerAgentId = callerAgentId) &&
    decide (r.userId = userId) && decide (r.idempotencyKey = some key)).map Prod.snd).head?

/-- Open tasks whose deadline has passed, the most overdue first. -/
def findExpiredTasks (now limit : ℕ) : List TaskRow :=
  ((db.tasks.openWhere fun r => r.deadline < now).insertionSort
    fun r r' => r.deadline ≤ r'.deadline).take limit

/-- The `to` of every delegation of the task so far, in order. -/
def delegatedTo (events : List TaskEvent) (t : TaskId) : List AgentId :=
  (events.filter fun e => decide (e.taskId = t) && decide (e.kind = .delegated)).filterMap
    fun e => e.payload.lookup "to"

/-- The first `limit` agents the user's task was delegated to. -/
def listDelegationDestinations (userId : UserId) (t : TaskId) (limit : ℕ) : List AgentId :=
  if (db.getTask userId t).isSome then
    ((db.events.filter fun e => decide (e.taskId = t) && decide (e.kind = .delegated)).take
      limit).filterMap fun e => e.payload.lookup "to"
  else []

/-- The user's session of that id. -/
def getSession (userId : UserId) (s : SessionId) : Option SessionRow :=
  (db.sessions.lookup s).filter fun r => r.userId = userId

/-- The user's blob with that hash. -/
def getFileBySha256 (userId : UserId) (sha256 : String) : Option FileRow :=
  ((db.files.select fun _ r => decide (r.userId = userId) && decide (r.sha256 = sha256)).map
    Prod.snd).head?

/-- Storage a user's names account for. -/
def countUserStorageBytes (userId : UserId) : ℕ :=
  ((db.fileNames.select fun k _ => k.1 = userId).map fun r => r.2.byteSize).sum

/-- Append an event to the history. -/
def insertEvent (e : TaskEvent) : Db := { db with events := db.events ++ [e] }

/-- Rewrite a task's row. -/
def updateTask (t : TaskId) (f : TaskRow → TaskRow) : Db :=
  { db with tasks := db.tasks.update t f }

variable {db} {u : UserId} {t : TaskId} {x : SessionId}

theorem mem_openWhere {ts : Tasks} {p : TaskRow → Bool} {r : TaskRow} :
    r ∈ ts.openWhere p ↔
      ∃ t, ts.lookup t = some r ∧ p r = true ∧ r.state.isTerminal = false := by
  simp only [Tasks.openWhere, List.mem_map, Prod.exists, exists_eq_right, Table.mem_select,
    Bool.and_eq_true, Bool.not_eq_true']

theorem mem_findExpiredTasks {now limit : ℕ} {r : TaskRow}
    (h : r ∈ db.findExpiredTasks now limit) :
    ∃ t, db.tasks.lookup t = some r ∧ r.state.isTerminal = false := by
  obtain ⟨t, hr, -, ho⟩ := mem_openWhere.1 ((List.perm_insertionSort _ _).mem_iff.1
    (List.mem_of_mem_take h))
  exact ⟨t, hr, ho⟩

/-- The row a lookup by key finds carries the key. -/
theorem findIdempotent_eq_some {key : String} {a : AgentId} {r : TaskRow}
    (h : db.findIdempotent u key a = some r) :
    (∃ t, db.tasks.lookup t = some r) ∧ r.callerAgentId = a ∧ r.userId = u ∧
      r.idempotencyKey = some key := by
  obtain ⟨⟨t, r'⟩, hm, rfl⟩ := List.mem_map.1 (List.mem_of_head? h)
  obtain ⟨hl, hp⟩ := Table.mem_select.1 hm
  simp only [Bool.and_eq_true, decide_eq_true_eq] at hp
  exact ⟨⟨t, hl⟩, hp.1.1, hp.1.2, hp.2⟩

/-- A lookup by key that finds nothing misses nothing. -/
theorem findIdempotent_eq_none {key : String} {a : AgentId} {r : TaskRow}
    (h : db.findIdempotent u key a = none) (hr : db.tasks.lookup t = some r)
    (ha : r.callerAgentId = a) (hu : r.userId = u) : r.idempotencyKey ≠ some key := by
  intro hkey
  have hp : (decide (r.callerAgentId = a) && decide (r.userId = u) &&
      decide (r.idempotencyKey = some key)) = true := by
    simp [ha, hu, hkey]
  have hm : (t, r) ∈ db.tasks.select fun _ r => decide (r.callerAgentId = a) &&
      decide (r.userId = u) && decide (r.idempotencyKey = some key) := Table.mem_select.2 ⟨hr, hp⟩
  have hrow := List.mem_map_of_mem (f := Prod.snd) hm
  rw [List.head?_eq_none_iff.1 h] at hrow
  exact absurd hrow List.not_mem_nil

theorem getTask_eq_some {r : TaskRow} :
    db.getTask u t = some r ↔ db.tasks.lookup t = some r ∧ r.userId = u := by
  simp [getTask, Option.filter_eq_some_iff]

theorem getSession_eq_some {r : SessionRow} :
    db.getSession u x = some r ↔ db.sessions.lookup x = some r ∧ r.userId = u := by
  simp [getSession, Option.filter_eq_some_iff]

end Db

end Backplane
