import Backplane.Data.EventSystem
import Backplane.Llm.BaseUrl
import Backplane.Llm.Fallbacks
import Backplane.Llm.Resync

/-!
# Requests that edit presets

An admin creates, patches and deletes presets.  A patch reads the row for its checks before its
transaction.  The transactions of requests exclude each other, and look for circles before they are
committed; every request ends with a reload, which applies the catalogue, reads the table and
publishes it.

* `UpdateLlmPresetRequest`, `PresetPatch` : a patch, as it is sent and as it is carried out.
* `PresetTable.insertLlmPreset`, `PresetTable.updateLlmPreset`, `PresetTable.deleteLlmPreset` : the
  transactions.
* `presetSystem` : the requests and the reloads, step by step.
-/

namespace Backplane

/-! ### Payloads -/

/-- `UpdateLlmPresetRequest` -/
structure UpdateLlmPresetRequest where
  sets : List PresetColumn
  /-- Their values; null options of calls are none. -/
  fields : PresetFields
  /-- It names a column with null that must not be null. -/
  hasNull : Bool := false
  clearApiKey : Bool := false

/-- A patch: the columns that it sets. -/
structure PresetPatch where
  sets : List PresetColumn
  /-- Their values. -/
  fields : PresetFields

/-- Empty strings stand for null. -/
def PresetFields.unselect (f : PresetFields) : PresetFields :=
  { f with fallbackPreset := f.fallbackPreset.filter (· ≠ ""), baseUrl := f.baseUrl.filter (· ≠ "") }

/-- The columns to set; `none`: it sets the credential and clears it. -/
def UpdateLlmPresetRequest.toPatch (req : UpdateLlmPresetRequest) : Option PresetPatch :=
  let sets := if req.fields.apiKey = some "" then req.sets.filter (· ≠ .apiKey) else req.sets
  let fields := req.fields.unselect
  if req.clearApiKey then
    if .apiKey ∈ sets ∧ fields.apiKey ≠ none then none
    else some ⟨.apiKey :: sets, { fields with apiKey := none }⟩
  else some ⟨sets, fields⟩

/-- `_validate_preset_payload`, of these columns. -/
def validatePresetPayload (sets : List PresetColumn) (f : PresetFields) : Bool :=
  (.provider ∉ sets || PresetFields.providers.contains f.provider) &&
  (.minUserLevel ∉ sets || levelGrammar id f.minUserLevel) &&
  (.defaultTemperature ∉ sets || f.defaultTemperature.all fun x => decide (0 ≤ x) && decide (x ≤ 2)) &&
  (.defaultMaxTokens ∉ sets || f.defaultMaxTokens.all fun n => decide (0 < n)) &&
  (.maxRetries ∉ sets || decide (0 ≤ f.maxRetries) && decide (f.maxRetries ≤ 10)) &&
  (.fallbackPreset ∉ sets || f.fallbackPreset.all isPresetName)

/-- All columns. -/
def PresetColumn.all : List PresetColumn :=
  [.description, .provider, .concreteModel, .apiKeyRef, .apiKey, .baseUrl, .minUserLevel,
    .defaultTemperature, .defaultMaxTokens, .defaultProviderOptions, .fallbackPreset, .maxRetries]

/-- The provider and the endpoint of a preset. -/
abbrev Routing := String × Option String

/-- The provider and the endpoint that a patch leaves. -/
def PresetPatch.routing (p : PresetPatch) (seen : Routing) : Routing :=
  (if .provider ∈ p.sets then p.fields.provider else seen.1,
    if .baseUrl ∈ p.sets then p.fields.baseUrl else seen.2)

/-- The patch sets the provider or the endpoint. -/
def PresetPatch.isRouting (p : PresetPatch) : Bool := .provider ∈ p.sets || .baseUrl ∈ p.sets

variable (net : Net)

/-- The checks of `update_llm_preset` before its transaction, and what they saw of the row; `none`:
the request is refused, or can only fail. -/
def PresetTable.checkUpdate (s : PresetTable) (name : String) (req : UpdateLlmPresetRequest) :
    Option (PresetPatch × Option Routing) := do
  let patch ← req.toPatch
  guard (!req.hasNull && validatePresetPayload patch.sets patch.fields)
  let seen := if patch.isRouting then
      (s.presets.lookup name).map fun r => (r.fields.provider, r.fields.baseUrl)
    else none
  guard (seen.all fun x =>
    checkProviderBaseUrlConsistency net (patch.routing x).1 (patch.routing x).2)
  guard (¬ (.fallbackPreset ∈ patch.sets ∧ patch.fields.fallbackPreset = some name))
  return (patch, seen)

/-- The checks of `create_llm_preset`, and what is to be inserted. -/
def checkCreate (name : String) (f : PresetFields) : Option PresetFields := do
  guard (isPresetName name)
  let f := { f.unselect with apiKey := f.apiKey.filter (· ≠ "") }
  guard (validatePresetPayload PresetColumn.all f)
  guard (checkProviderBaseUrlConsistency net f.provider f.baseUrl)
  return f

/-! ### Transactions -/

/-- The fallback that the row of a preset names. -/
def PresetTable.fallback (s : PresetTable) (n : String) : Option String :=
  (s.presets.lookup n).bind fun r => r.fields.fallbackPreset

theorem PresetTable.fallbackOf_published (s : PresetTable) : fallbackOf s.published = s.fallback := by
  funext n
  rw [fallbackOf, lookup_published, PresetTable.fallback]
  cases s.presets.lookup n <;> rfl

namespace PresetTable

/-- The transaction is committed, if the fallbacks run in no circle. -/
def commit (s : PresetRows) : Option PresetTable :=
  s.settle.toOption.filter fun s => fallbacksEnd s.published

/-- The row of a preset that an admin makes. -/
def newRow (now : ℕ) (f : PresetFields) (admin : UserId) : PresetRow where
  fields := f
  managed := false
  createdAt := now
  updatedAt := now
  createdBy := some admin

/-- The transaction of `create_llm_preset`. -/
def insertLlmPreset (s : PresetTable) (now : ℕ) (name : String) (f : PresetFields) (admin : UserId) :
    Option PresetTable :=
  if (s.presets.lookup name).isSome then none
  else commit { s.toPresetRows with presets := s.presets.insert name (newRow now f admin) }

/-- The row after a patch. -/
def patchRow (now : ℕ) (p : PresetPatch) (r : PresetRow) : PresetRow :=
  if p.sets = [] then r
  else { r with fields := p.fields.overwrite p.sets r.fields, updatedAt := now }

/-- The transaction of `update_llm_preset`. -/
def updateLlmPreset (s : PresetTable) (now : ℕ) (name : String) (p : PresetPatch) :
    Option PresetTable :=
  if (s.presets.lookup name).isSome then
    commit { s.toPresetRows with presets := s.presets.update name (patchRow now p) }
  else none

/-- The transaction of `delete_llm_preset`. -/
def deleteLlmPreset (s : PresetTable) (name : String) : Option PresetTable :=
  if (s.presets.lookup name).isSome then
    ({ s.toPresetRows with
      presets := Table.mapRows (fun _ r => r.detach (· = name)) (s.presets.erase name) } :
      PresetRows).settle.toOption
  else none

end PresetTable

/-! ### The requests -/

/-- Where a request is. -/
inductive PresetStage
  | checked (name : String) (patch : PresetPatch) (seen : Option Routing)
  | written
  | synced
  /-- It has read the table: the how-manieth read, and what it saw. -/
  | loaded (number : ℕ) (rows : Table String PresetFields)

/-- The table, the map and the requests that are in progress. -/
structure PresetState where
  table : PresetTable
  svc : LlmService := {}
  requests : Table ℕ PresetStage := ∅
  /-- How many reloads have read the table. -/
  reads : ℕ := 0
  /-- Which of them published last. -/
  shown : ℕ := 0
  /-- What the requests alone have made of the presets. -/
  asked : Table String PresetFields := ∅

/-- What happens. -/
inductive PresetEvent
  | check (rid : ℕ) (name : String) (req : UpdateLlmPresetRequest)
  | write (rid now : ℕ)
  | create (rid now : ℕ) (name : String) (f : PresetFields) (admin : UserId)
  | delete (rid : ℕ) (name : String)
  | start (rid : ℕ)
  | resync (rid now version : ℕ)
  | load (rid : ℕ)
  | publish (rid : ℕ)
  | abandon (rid : ℕ)

namespace PresetState

variable (catalog : ℕ → List PresetEntry)

/-- A request goes on. -/
def move (s : PresetState) (rid : ℕ) (stage : PresetStage) : PresetState :=
  { s with requests := s.requests.insert rid stage }

/-- A request is over. -/
def close (s : PresetState) (rid : ℕ) : PresetState :=
  { s with requests := s.requests.erase rid }

/-- The transaction of a request: if it is committed, the reload follows. -/
def finish (s : PresetState) (rid : ℕ) (asked : Table String PresetFields) :
    Option PresetTable → PresetState
  | none => s.close rid
  | some table => { s.move rid .written with table, asked }

/-- An event. -/
def step (s : PresetState) : PresetEvent → Option PresetState
  | .check rid name req =>
    if (s.requests.lookup rid).isSome then none
    else some <| match s.table.checkUpdate net name req with
      | none => s
      | some (patch, seen) => s.move rid (.checked name patch seen)
  | .write rid now => match s.requests.lookup rid with
    | some (.checked name patch _) => some <|
      s.finish rid (s.asked.update name fun f => patch.fields.overwrite patch.sets f)
        (s.table.updateLlmPreset now name patch)
    | _ => none
  | .create rid now name f admin =>
    if (s.requests.lookup rid).isSome then none
    else some <| match checkCreate net name f with
      | none => s
      | some f => s.finish rid (s.asked.insert name f) (s.table.insertLlmPreset now name f admin)
  | .delete rid name =>
    if (s.requests.lookup rid).isSome then none
    else some <| s.finish rid
      (Table.mapRows (fun _ f => { f with fallbackPreset := f.fallbackPreset.filter (· ≠ name) })
        (s.asked.erase name))
      (s.table.deleteLlmPreset name)
  | .start rid => if (s.requests.lookup rid).isSome then none else some (s.move rid .written)
  | .resync rid now version => match s.requests.lookup rid with
    | some .written => some <| match (s.table.resync now (catalog version)).toOption with
      | none => s.close rid
      | some table => { s.move rid .synced with table }
    | _ => none
  | .load rid => match s.requests.lookup rid with
    | some .synced => some
      { s.move rid (.loaded (s.reads + 1) s.table.published) with reads := s.reads + 1 }
    | _ => none
  | .publish rid => match s.requests.lookup rid with
    | some (.loaded number rows) => some <|
      if fallbacksEnd rows then { s.close rid with svc := ⟨rows⟩, shown := number } else s.close rid
    | _ => none
  | .abandon rid => if (s.requests.lookup rid).isSome then some (s.close rid) else none

end PresetState

/-- The requests, from a state on. -/
def presetSystem (catalog : ℕ → List PresetEntry) (init : PresetState) :
    EventSystem PresetState PresetEvent := ⟨init, PresetState.step net catalog⟩

end Backplane
