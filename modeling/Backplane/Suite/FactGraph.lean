import Backplane.Concur.Crash
import Backplane.Data.CappedGraph

/-!
# The memory agent

A user's facts are rows of one table, the relations between them rows of another; neither table knows
transactions.  What is stored is decided by a model, whose answers are JSON.

* `Json`, `Fact`, `FactStore` : what the model answers; the two tables.
* `FactAct`, `FactAct.exec` : calls to the tables and to the model, any of which may fail.
* `insertFact`, `updateFact`, `removeFact`, `addEdge`, `removeEdge`, `gcFacts` : the store.
* `propagate`, `reconcile`, `reconcileAndStore` : the phases of an addition.
* `MemoryCall`, `memory` : the modes that change the store, one call at a time.
-/

namespace Backplane.Memory

open Concur Prog CappedGraph

/-! ### What the model answers -/

/-- A value of JSON. -/
inductive Json
  | null
  | bool (b : Bool)
  | int (n : ℤ)
  /-- Any other number, of which the code asks only whether it is zero. -/
  | float (nonzero : Bool)
  | str (s : String)
  | arr (xs : List Json)
  | obj (fields : List (String × Json))

/-- The fields of an object; `_llm_json` answers nothing else. -/
abbrev Object := List (String × Json)

namespace Json

/-- The value counts as true. -/
def truthy : Json → Bool
  | null => false
  | bool b => b
  | int n => n ≠ 0
  | float nonzero => nonzero
  | str s => s ≠ ""
  | arr xs => !xs.isEmpty
  | obj fields => !fields.isEmpty

/-- `isinstance(j, int)`, with the number; a truth value is one. -/
def asInt : Json → Option ℤ
  | int n => some n
  | bool b => some (if b then 1 else 0)
  | _ => none

/-- What a loop over the value runs through; `none`: it raises. -/
def elements : Json → Option (List Json)
  | str s => some (s.toList.map fun c => str (String.ofList [c]))
  | arr xs => some xs
  | obj fields => some (fields.map fun f => str f.1)
  | _ => none

/-- `j[:n]`; `none`: it raises. -/
def slice (n : ℕ) : Json → Option (List Json)
  | str s => some ((s.toList.take n).map fun c => str (String.ofList [c]))
  | arr xs => some (xs.take n)
  | _ => none

end Json

/-- `d.get(key)` -/
def field (d : Object) (key : String) : Json := (d.lookup key).getD .null

/-- `d.get(key) or []` -/
def fieldOrNil (d : Object) (key : String) : Json :=
  if (field d key).truthy then field d key else .arr []

/-- The place in a list of `count` numbered facts that a number names, if it is in range. -/
def placeOf (count : ℕ) (j : Json) : Option ℕ :=
  j.asInt.bind fun n => if 1 ≤ n ∧ n ≤ count then some (n - 1).toNat else none

/-- The fact that a number names. -/
def pick {α : Type} (xs : List α) (j : Json) : Option α := (placeOf xs.length j).bind (xs[·]?)

/-- The settings of the agent, and what Python does with text. -/
structure MemoryConfig where
  /-- `memory_reconcile_candidates` -/
  candidates : ℕ := 5
  /-- `memory_gc_horizon_days`, in the unit of the clock -/
  gcHorizon : ℕ := 100
  strip : String → String := id
  lower : String → String := id
  upper : String → String := id

/-- `str(j).upper()`, which names an action only if `j` is a string. -/
def MemoryConfig.action (cfg : MemoryConfig) : Json → String
  | .str s => cfg.upper s
  | _ => ""

/-- `_VALID_KINDS` -/
def validKinds : List String := ["preference", "personal_info", "event", "project"]

/-- `j if j in _VALID_KINDS else default`; `none`: it raises, since `j` cannot be hashed. -/
def kindOf (default : String) : Json → Option String
  | .str s => some (if s ∈ validKinds then s else default)
  | .arr _ | .obj _ => none
  | _ => some default

/-- `(j or default).strip()`; `none`: it raises. -/
def MemoryConfig.textOf (cfg : MemoryConfig) (default : String) (j : Json) : Option String :=
  if j.truthy then
    match j with
    | .str s => some (cfg.strip s)
    | _ => none
  else some (cfg.strip default)

/-! ### The tables -/

/-- The name of a fact: 32 hexadecimal digits, whose order as strings is that of the numbers. -/
abbrev Uid := ℕ

/-- A row of `facts`. -/
structure Fact where
  uid : Uid
  fact : String
  kind : String
  createdAt : ℕ
  /-- When it was stored or recalled last. -/
  lastUsedAt : ℕ
  deriving DecidableEq, Repr

/-- `_DEGREE_CAP` -/
def degreeCap : ℕ := 10

/-- The number of rows after which a read of a whole table stops. -/
def rowLimit : ℕ := 1000000

/-- The tables of a user, and what has become of the facts. -/
structure FactStore where
  facts : List Fact := []
  edges : List (Edge Uid) := []
  /-- Every fact that was ever stored. -/
  known : List Uid := []
  /-- The facts whose rows a removal, a deletion or a sweep has deleted. -/
  removed : List Uid := []
  /-- The facts whose rows are deleted, while they are yet to be stored anew, or their edges yet to
  be deleted. -/
  halfway : List Uid := []
  deriving DecidableEq, Repr

namespace FactStore

/-- The names of the facts that are stored. -/
def uids (s : FactStore) : List Uid := s.facts.map Fact.uid

/-- `_insert_fact_sync` -/
def insertFact (now : ℕ) (uid : Uid) (fact kind : String) (createdAt : ℕ) (s : FactStore) :
    FactStore :=
  { s with
    facts := s.facts ++ [⟨uid, fact, kind, createdAt, now⟩]
    known := uid :: s.known
    halfway := s.halfway.filter (· ≠ uid) }

/-- `_delete_facts_sync`, to remove the facts, or to store them anew -/
def deleteFacts (uids : List Uid) (removing : Bool) (s : FactStore) : FactStore :=
  { s with
    facts := s.facts.filter fun f => f.uid ∉ uids
    removed := if removing then s.removed ++ uids else s.removed
    halfway := s.halfway ++ uids }

/-- `_delete_edges_for_sync` -/
def deleteEdgesFor (uids : List Uid) (s : FactStore) : FactStore :=
  { s with
    edges := s.edges.filter fun e => e.a ∉ uids ∧ e.b ∉ uids
    halfway := s.halfway.filter (· ∉ uids) }

/-- Delete the edge between these ends. -/
def deleteEdge (p : Uid × Uid) (s : FactStore) : FactStore := { s with edges := drop p s.edges }

/-- Write an edge. -/
def insertEdge (e : Edge Uid) (s : FactStore) : FactStore := { s with edges := s.edges ++ [e] }

end FactStore

/-! ### Statements -/

/-- The phases after a fact is stored. -/
inductive Phase
  | relate
  | update
  deriving DecidableEq, Repr

/-- What the model is asked. -/
inductive Prompt
  /-- The facts in a turn of a conversation. -/
  | extract (nowLine userPrompt assistantResponse : String)
  /-- What to do with a fact, given these, numbered from 1. -/
  | reconcile (fact : String) (cands : List Fact)
  /-- What to do with the neighbours of a fact, numbered from 1. -/
  | propagate (phase : Phase) (anchorUid : Uid) (anchor : Option Fact) (neighbors : List Fact)

/-- What the world decides at a statement. -/
structure FactEnv where
  /-- The statement fails, or an interruption strikes. -/
  fails : Bool := false
  text : String := ""
  object : Object := []
  /-- The facts a search finds. -/
  hits : List Uid := []
  uid : Uid := 0
  now : ℕ := 0

/-- Statements of the agent. -/
inductive FactAct : Type → Type 1
  /-- The current time for the extraction, in the time zone of the user. -/
  | nowLine : FactAct (Option String)
  | llmJson (prompt : Prompt) : FactAct (Option Object)
  /-- `ctx.llm.embed` -/
  | embed (text : String) : FactAct Bool
  /-- `_now()` -/
  | now : FactAct ℕ
  /-- `uuid.uuid4().hex` -/
  | newUid : FactAct Uid
  | search (limit : ℕ) : FactAct (Option (List Fact))
  | allFacts : FactAct (Option (List Fact))
  | allEdges : FactAct (Option (List (Edge Uid)))
  | insertFact (uid : Uid) (fact kind : String) (createdAt : ℕ) : FactAct Bool
  | deleteFacts (uids : List Uid) (removing : Bool) : FactAct Bool
  | deleteEdgesFor (uids : List Uid) : FactAct Bool
  /-- `_edges().delete` -/
  | deleteEdge (p : Uid × Uid) : FactAct Bool
  /-- `_edges().add` -/
  | insertEdge (p : Uid × Uid) : FactAct Bool
  | strike : FactAct Bool

namespace FactAct

/-- A statement that writes, unless it fails. -/
def write (e : FactEnv) (s : FactStore) (f : FactStore → FactStore) : Option (FactStore × Bool) :=
  some (if e.fails then (s, false) else (f s, true))

/-- A statement that reads, unless it fails. -/
def read {α : Type} (e : FactEnv) (s : FactStore) (v : α) : Option (FactStore × Option α) :=
  some (s, if e.fails then none else some v)

/-- What a statement does. -/
def exec : {β : Type} → FactAct β → FactEnv → FactStore → Option (FactStore × β)
  | _, nowLine, e, s => read e s e.text
  | _, llmJson _, e, s => read e s e.object
  | _, embed _, e, s => some (s, !e.fails)
  | _, now, e, s => some (s, e.now)
  -- A name is never given twice.
  | _, newUid, e, s => if e.uid ∈ s.known then none else some (s, e.uid)
  | _, search limit, e, s =>
    read e s ((e.hits.dedup.filterMap fun u => s.facts.find? (·.uid = u)).take limit)
  | _, allFacts, e, s => read e s (s.facts.take rowLimit)
  | _, allEdges, e, s => read e s (s.edges.take rowLimit)
  | _, insertFact uid fact kind createdAt, e, s =>
    write e s (FactStore.insertFact e.now uid fact kind createdAt)
  | _, deleteFacts uids removing, e, s => write e s (FactStore.deleteFacts uids removing)
  | _, deleteEdgesFor uids, e, s => write e s (FactStore.deleteEdgesFor uids)
  | _, deleteEdge p, e, s => write e s (FactStore.deleteEdge p)
  | _, insertEdge p, e, s => write e s (FactStore.insertEdge ⟨p.1, p.2, e.now⟩)
  | _, strike, e, s => some (s, e.fails)

end FactAct

/-! ### The store -/

/-- A program of the memory agent. -/
abbrev Task (α : Type) := Fallible FactAct α

/-- `get_fact` -/
def getFact (uid : Uid) : Task (Option Fact) := do
  let facts ← Fallible.query .allFacts
  pure (facts.find? (·.uid = uid))

/-- `insert_fact` -/
def insertFact (fact kind : String) : Task Uid := do
  let uid ← Fallible.lift (perform .newUid)
  let createdAt ← Fallible.lift (perform .now)
  Fallible.write (.insertFact uid fact kind createdAt)
  pure uid

/-- Delete the row of a fact and store it anew. -/
def rewriteFact (existing : Fact) (uid : Uid) (fact : String) : Task Unit := do
  Fallible.write (.deleteFacts [uid] false)
  Fallible.write (.insertFact uid fact existing.kind existing.createdAt)

/-- `update_fact` -/
def updateFact (uid : Uid) (fact : String) : Task Unit := do
  match ← getFact uid with
  | none => pure ()
  | some existing => rewriteFact existing uid fact

/-- Delete facts and their edges. -/
def eraseFacts (uids : List Uid) : Task Unit := do
  Fallible.write (.deleteFacts uids true)
  Fallible.write (.deleteEdgesFor uids)

/-- `remove_fact` -/
def removeFact (uid : Uid) : Task Unit := eraseFacts [uid]

/-- `neighbors` -/
def neighborsOf (uid : Uid) : Task (List Uid) := do
  let edges ← Fallible.query .allEdges
  pure (neighbors edges uid)

/-- Delete the oldest edge of a fact that has as many as it may have. -/
def evictOldest (edges : List (Edge Uid)) (endpoint : Uid) : Task Unit :=
  match evictee degreeCap edges endpoint with
  | some p => Fallible.write (.deleteEdge p)
  | none => pure ()

/-- Write an edge that is not there, given all that are. -/
def writeEdge (p : Uid × Uid) (edges : List (Edge Uid)) : Task Unit :=
  if edges.any (·.ends = p) then pure ()
  else do
    evictOldest edges p.1
    evictOldest edges p.2
    Fallible.write (.insertEdge p)

/-- `add_edge` -/
def addEdge (a b : Uid) : Task Unit :=
  if a = b then pure ()
  else do
    let edges ← Fallible.query .allEdges
    writeEdge (pair a b) edges

/-- `remove_edge` -/
def removeEdge (a b : Uid) : Task Unit := Fallible.write (.deleteEdge (pair a b))

/-- The facts that were last used before `cutoff`. -/
def staleFacts (cutoff : ℕ) (facts : List Fact) : List Uid :=
  (facts.filter (·.lastUsedAt < cutoff)).map Fact.uid

/-- `gc` -/
def gcFacts (horizon : ℕ) : Task ℕ := do
  let now ← Fallible.lift (perform .now)
  let facts ← Fallible.query .allFacts
  let stale := staleFacts (now - horizon) facts
  if stale = [] then pure 0
  else do
    eraseFacts stale
    pure stale.length

/-! ### Propagation -/

/-- The facts of these names that are there. -/
def fetchFacts : List Uid → Task (List Fact)
  | [] => pure []
  | u :: us => do
    let f ← getFact u
    let fs ← fetchFacts us
    pure (f.toList ++ fs)

/-- `UPDATE` of a neighbour. -/
def updateNeighbor (target : Uid) : Json → Task Unit
  | .str contents => do
    Fallible.write (.embed contents)
    updateFact target contents
  | _ => throw ()

/-- Carry out what is decided about one neighbour. -/
def applyAction (anchor target : Uid) (action : String) (contents : Json) : Task Unit :=
  if action = "REMOVE" then removeFact target
  else if action = "UNRELATE" then removeEdge anchor target
  else if action = "RELATE" then addEdge anchor target
  else if action = "UPDATE" && contents.truthy then updateNeighbor target contents
  else pure ()

/-- Carry out one decision, if the number it gives is in range. -/
def applyDecision (cfg : MemoryConfig) (anchor : Uid) (neighbors : List Fact) :
    Json → Task Unit
  | .obj d =>
    match pick neighbors (field d "fact_number") with
    | some target => applyAction anchor target.uid (cfg.action (field d "action")) (field d "contents")
    | none => pure ()
  | _ => throw ()

/-- Carry out one decision after the other. -/
def applyDecisions (cfg : MemoryConfig) (anchor : Uid) (neighbors : List Fact) :
    List Json → Task Unit
  | [] => pure ()
  | d :: ds => do
    applyDecision cfg anchor neighbors d
    applyDecisions cfg anchor neighbors ds

/-- The decisions in an answer; `none`: there is nothing to loop over. -/
def decisionsOf (answer : Object) : Option (List Json) :=
  ((answer.lookup "decisions").getD (.arr [])).elements

/-- Ask the model about the neighbours, and carry out what it decides. -/
def consult (cfg : MemoryConfig) (phase : Phase) (anchor : Uid) (neighbors : List Fact) :
    Task Unit := do
  let row ← getFact anchor
  let answer ← Fallible.query (.llmJson (.propagate phase anchor row neighbors))
  match decisionsOf answer with
  | some ds => applyDecisions cfg anchor neighbors ds
  | none => throw ()

/-- `_propagate` -/
def propagate (cfg : MemoryConfig) (phase : Phase) (anchor : Uid) : Task Unit := do
  let uids ← neighborsOf anchor
  if uids = [] then pure ()
  else do
    let neighbors ← fetchFacts uids
    if neighbors = [] then pure () else consult cfg phase anchor neighbors

/-- Propagate from each of these; what goes wrong is not reported. -/
def propagateAll (cfg : MemoryConfig) (phase : Phase) : List Uid → Prog FactAct Unit
  | [] => pure ()
  | anchor :: rest => do
    let _ ← (propagate cfg phase anchor).run
    propagateAll cfg phase rest

/-! ### Reconciliation -/

/-- A fact that is to be stored. -/
structure Item where
  fact : String
  kind : String
  deriving DecidableEq, Repr

/-- What the model has decided about an item. -/
structure Decision where
  action : String
  content : String
  kind : String
  related : List Uid
  /-- The fact to update or to remove, if the number is in range. -/
  target : Option Uid
  deriving DecidableEq, Repr

/-- The decision in an answer, given the facts that were numbered; `none`: it raises. -/
def Decision.decode (cfg : MemoryConfig) (item : Item) (cands : List Uid) (d : Object) :
    Option Decision := do
  let content ← cfg.textOf item.fact (field d "content")
  let kind ← kindOf item.kind (field d "kind")
  let related ← (fieldOrNil d "related").elements
  pure ⟨cfg.action ((d.lookup "action").getD (.str "NEW")), content, kind,
    related.filterMap (pick cands), pick cands (field d "fact_number")⟩

/-- The facts that a batch has related to others, and those that it has updated. -/
structure Anchors where
  related : List Uid := []
  updated : List Uid := []
  deriving DecidableEq, Repr

/-- Update the fact that is named, or store a new one; the fact, and what is updated. -/
def placeFact (d : Decision) : Task (Uid × List Uid) :=
  match if d.action = "UPDATE" then d.target else none with
  | some target => do
    Fallible.write (.embed d.content)
    updateFact target d.content
    pure (target, [target])
  | none => do
    Fallible.write (.embed d.content)
    let anchor ← insertFact d.content d.kind
    pure (anchor, [])

/-- Relate a fact to each of these. -/
def relateAll (anchor : Uid) : List Uid → Task Unit
  | [] => pure ()
  | r :: rs => do
    addEdge anchor r
    relateAll anchor rs

/-- Store what is decided, with its relations. -/
def storeFact (d : Decision) : Task Anchors := do
  let placed ← placeFact d
  relateAll placed.1 d.related
  pure ⟨if d.related = [] then [] else [placed.1], placed.2⟩

/-- Carry out what is decided about an item. -/
def settleItem (d : Decision) : Task Anchors :=
  match if d.action = "REMOVE" then d.target else none with
  | some target => do
    removeFact target
    pure {}
  | none => storeFact d

/-- Phase 2, for one item. -/
def reconcileItem (cfg : MemoryConfig) (item : Item) : Task Anchors := do
  Fallible.write (.embed item.fact)
  let cands ← Fallible.query (.search cfg.candidates)
  let answer ← Fallible.query (.llmJson (.reconcile item.fact cands))
  match Decision.decode cfg item (cands.map Fact.uid) answer with
  | some d => settleItem d
  | none => throw ()

/-- Phase 2. -/
def reconcile (cfg : MemoryConfig) : List Item → Task Anchors
  | [] => pure {}
  | item :: items => do
    let first ← reconcileItem cfg item
    let rest ← reconcile cfg items
    pure ⟨first.related ++ rest.related, first.updated ++ rest.updated⟩

/-- `_reconcile_and_store` -/
def reconcileAndStore (cfg : MemoryConfig) (items : List Item) : Task Unit := do
  let anchors ← reconcile cfg items
  Fallible.lift (propagateAll cfg .relate anchors.related)
  Fallible.lift (propagateAll cfg .update anchors.updated)

/-! ### The modes -/

/-- `_MAX_FACTS_PER_TURN` -/
def maxFactsPerTurn : ℕ := 10

/-- An extracted fact; `none`: it raises. -/
def extractOne (cfg : MemoryConfig) : Json → Option Item
  | .obj f => do
    let fact ← cfg.textOf "" (field f "fact")
    let kind ← kindOf "personal_info" (field f "kind")
    pure ⟨fact, kind⟩
  | _ => none

/-- The items among these that have a text which none before them has. -/
def dedupItems (cfg : MemoryConfig) (seen : List String) : List Item → List Item
  | [] => []
  | i :: is =>
    if i.fact ≠ "" ∧ cfg.lower i.fact ∉ seen then
      i :: dedupItems cfg (cfg.lower i.fact :: seen) is
    else dedupItems cfg seen is

/-- The facts in an extraction; `none`: it raises. -/
def extractItems (cfg : MemoryConfig) (extracted : Object) : Option (List Item) := do
  let raw ← (fieldOrNil extracted "facts").slice maxFactsPerTurn
  let items ← raw.mapM (extractOne cfg)
  pure (dedupItems cfg [] items)

/-- `run_memory_add` -/
def runMemoryAdd (cfg : MemoryConfig) (userPrompt assistantResponse : String) : Task Unit := do
  let nowLine ← Fallible.query .nowLine
  let extracted ← Fallible.query (.llmJson (.extract nowLine userPrompt assistantResponse))
  match extractItems cfg extracted with
  | some items => if items = [] then pure () else reconcileAndStore cfg items
  | none => throw ()

/-- `run_memory_manual_add` -/
def runMemoryManualAdd (cfg : MemoryConfig) (fact kind : String) : Task Bool :=
  if cfg.strip fact = "" then pure false
  else do
    reconcileAndStore cfg
      [⟨cfg.strip fact, if kind ∈ validKinds then kind else "personal_info"⟩]
    pure true

/-- `run_memory_delete` -/
def runMemoryDelete (uid : Uid) : Task Bool := do
  match ← getFact uid with
  | none => pure false
  | some _ => do
    removeFact uid
    pure true

/-- The calls that take the lock of the user. -/
inductive MemoryCall
  | add (userPrompt assistantResponse : String)
  | manualAdd (fact kind : String)
  | delete (uid : Uid)
  /-- `gc_sweep`, for this user -/
  | gc
  deriving DecidableEq, Repr

/-- What a call answers. -/
inductive MemoryReply
  | done
  | added (b : Bool)
  | deleted (b : Bool)
  | swept (n : ℕ)
  deriving DecidableEq, Repr

/-- What a call does. -/
def MemoryCall.task (cfg : MemoryConfig) : MemoryCall → Task MemoryReply
  | add userPrompt assistantResponse => do
    runMemoryAdd cfg userPrompt assistantResponse
    pure .done
  | manualAdd fact kind => do
    let b ← runMemoryManualAdd cfg fact kind
    pure (.added b)
  | delete uid => do
    let b ← runMemoryDelete uid
    pure (.deleted b)
  | gc => do
    let n ← gcFacts cfg.gcHorizon
    pure (.swept n)

/-- The memory agent, serving one user; a call may be struck before each of its statements. -/
def memory (cfg : MemoryConfig) :
    Machine FactAct FactEnv FactStore MemoryCall (Option (Except Unit MemoryReply)) where
  exec := FactAct.exec
  body c := (c.task cfg).run.interruptible .strike

end Backplane.Memory
