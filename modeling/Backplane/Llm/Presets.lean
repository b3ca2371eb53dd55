import Backplane.Acl.Store
import Mathlib.Algebra.Order.Field.Rat
import Mathlib.Data.String.Basic

/-!
# Model presets

The presets of the router are rows of `llm_presets`: those an admin created, and those managed from
a catalogue that is applied again at every start.  An entry of the catalogue pins the columns it
lists.

* `PresetColumn`, `PresetFields` : the columns; `PresetFields.overwrite` : write the pinned ones.
* `PresetEntry`, `defaultPresetsWithOverlay` : the catalogue.
* `PresetTable` : the rows and those that refer to them, with the constraints of the schema.
* `PresetTable.upsertManaged`, `PresetTable.deleteStaleManaged` : the statements of a re-sync.
* `LlmService.loadPresetsFromDb` : re-sync the table and read it.
-/

namespace Backplane

/-! ### Columns -/

/-- `_MANAGED_UPSERT_COLUMNS` -/
inductive PresetColumn
  | description | provider | concreteModel | apiKeyRef | apiKey | baseUrl | minUserLevel
  | defaultTemperature | defaultMaxTokens | defaultProviderOptions | fallbackPreset | maxRetries
  deriving DecidableEq, Repr

/-- What a column holds. -/
abbrev PresetColumn.Value : PresetColumn → Type
  | description | apiKey | baseUrl | fallbackPreset => Option String
  | provider | concreteModel | apiKeyRef | minUserLevel => String
  | defaultTemperature => Option ℚ
  | defaultMaxTokens => Option ℤ
  | defaultProviderOptions => Json
  | maxRetries => ℤ

/-- What a preset says, apart from its name. -/
structure PresetFields where
  description : Option String := none
  provider : String
  concreteModel : String
  apiKeyRef : String := ""
  apiKey : Option String := none
  baseUrl : Option String := none
  minUserLevel : String := "*"
  defaultTemperature : Option ℚ := none
  /-- Bound on tokens of a call that sets none. -/
  defaultMaxTokens : Option ℤ := none
  /-- Options of a call that sets none. -/
  defaultProviderOptions : Json := []
  fallbackPreset : Option String := none
  maxRetries : ℤ := 0
  deriving DecidableEq

namespace PresetFields

/-- What a column of a preset holds. -/
def get (f : PresetFields) : ∀ c : PresetColumn, c.Value
  | .description => f.description
  | .provider => f.provider
  | .concreteModel => f.concreteModel
  | .apiKeyRef => f.apiKeyRef
  | .apiKey => f.apiKey
  | .baseUrl => f.baseUrl
  | .minUserLevel => f.minUserLevel
  | .defaultTemperature => f.defaultTemperature
  | .defaultMaxTokens => f.defaultMaxTokens
  | .defaultProviderOptions => f.defaultProviderOptions
  | .fallbackPreset => f.fallbackPreset
  | .maxRetries => f.maxRetries

/-- The `SET` clause: these columns of `f` overwrite those of `old`. -/
def overwrite (pinned : List PresetColumn) (f old : PresetFields) : PresetFields where
  description := if .description ∈ pinned then f.description else old.description
  provider := if .provider ∈ pinned then f.provider else old.provider
  concreteModel := if .concreteModel ∈ pinned then f.concreteModel else old.concreteModel
  apiKeyRef := if .apiKeyRef ∈ pinned then f.apiKeyRef else old.apiKeyRef
  apiKey := if .apiKey ∈ pinned then f.apiKey else old.apiKey
  baseUrl := if .baseUrl ∈ pinned then f.baseUrl else old.baseUrl
  minUserLevel := if .minUserLevel ∈ pinned then f.minUserLevel else old.minUserLevel
  defaultTemperature :=
    if .defaultTemperature ∈ pinned then f.defaultTemperature else old.defaultTemperature
  defaultMaxTokens := if .defaultMaxTokens ∈ pinned then f.defaultMaxTokens else old.defaultMaxTokens
  defaultProviderOptions :=
    if .defaultProviderOptions ∈ pinned then f.defaultProviderOptions
    else old.defaultProviderOptions
  fallbackPreset := if .fallbackPreset ∈ pinned then f.fallbackPreset else old.fallbackPreset
  maxRetries := if .maxRetries ∈ pinned then f.maxRetries else old.maxRetries

/-- Providers the schema knows. -/
def providers : List String :=
  ["gemini", "anthropic", "openai", "openai-embeddings", "openai-compatible",
    "openai-compatible-embeddings"]

/-- Providers without an endpoint of their own. -/
def needsBaseUrl (provider : String) : Bool :=
  provider == "openai-compatible" || provider == "openai-compatible-embeddings"

/-- The `CHECK` constraints on the columns. -/
def check (f : PresetFields) : Bool :=
  providers.contains f.provider && levelGrammar id f.minUserLevel &&
    (f.defaultTemperature.all fun x => decide (0 ≤ x) && decide (x ≤ 2)) &&
    (f.defaultMaxTokens.all fun n => decide (0 < n)) &&
    decide (0 ≤ f.maxRetries) && decide (f.maxRetries ≤ 10) &&
    (!needsBaseUrl f.provider || f.baseUrl.any fun u => u ≠ "")

variable {f g old : PresetFields} {pinned : List PresetColumn} {c : PresetColumn}

theorem ext_get (h : ∀ c, f.get c = g.get c) : f = g := by
  have hd := h .description
  have hp := h .provider
  have hm := h .concreteModel
  have hr := h .apiKeyRef
  have hk := h .apiKey
  have hb := h .baseUrl
  have hl := h .minUserLevel
  have ht := h .defaultTemperature
  have hx := h .defaultMaxTokens
  have ho := h .defaultProviderOptions
  have hf := h .fallbackPreset
  have hn := h .maxRetries
  cases f
  cases g
  simp only [get] at hd hp hm hr hk hb hl ht hx ho hf hn
  subst hd hp hm hr hk hb hl ht hx ho hf hn
  rfl

/-- A pinned column is overwritten and the others are kept. -/
theorem get_overwrite : (overwrite pinned f old).get c = if c ∈ pinned then f.get c else old.get c := by
  cases c <;> rfl

end PresetFields

/-- `^[a-z][a-z0-9_-]{0,63}$` -/
def isPresetName (n : String) : Bool :=
  match n.toList with
  | [] => false
  | c :: cs => c.isLower && decide (cs.length ≤ 63) &&
      cs.all fun d => d.isLower || d.isDigit || d = '_' || d = '-'

/-! ### The catalogue -/

/-- An entry of the catalogue, with the columns it lists. -/
structure PresetEntry where
  name : String
  /-- What it says; a column that it does not list has its default. -/
  fields : PresetFields
  pinned : List PresetColumn
  required : .provider ∈ pinned
  /-- The endpoint is not set unless it is listed. -/
  baseUrl_default : .baseUrl ∉ pinned → fields.baseUrl = none

/-- The last entry with this name. -/
def lastNamed (catalog : List PresetEntry) (n : String) : Option PresetEntry :=
  (catalog.filter fun p => p.name = n).getLast?

/-- `default_presets_with_overlay`: the entries of the overlay win. -/
def defaultPresetsWithOverlay (base overlay : List PresetEntry) : List PresetEntry :=
  if overlay = [] then base
  else
    base.map (fun p => (lastNamed (base ++ overlay) p.name).getD p) ++
      overlay.filter fun p => base.all fun b => b.name ≠ p.name

/-! ### The table -/

/-- A row of `llm_presets`. -/
structure PresetRow where
  /-- The columns a re-sync may write. -/
  fields : PresetFields
  managed : Bool
  createdAt : ℕ
  updatedAt : ℕ
  createdBy : Option UserId := none
  deriving DecidableEq

/-- The rows, and the custom agents that refer to them. -/
structure PresetRows where
  /-- `llm_presets`, by name. -/
  presets : Table String PresetRow := ∅
  /-- `custom_agents`: the preset of each. -/
  customAgents : Table AgentId String := ∅

/-- Every row satisfies its `CHECK` constraints. -/
def PresetRows.checked (s : PresetRows) : Bool :=
  s.presets.entries.all fun x => isPresetName x.1 && x.2.fields.check

/-- Every foreign key refers to a row. -/
def PresetRows.referenced (s : PresetRows) : Bool :=
  (s.presets.entries.all fun x => x.2.fields.fallbackPreset.all fun n => (s.presets.lookup n).isSome) &&
    s.customAgents.entries.all fun x => (s.presets.lookup x.2).isSome

/-- The tables with their constraints. -/
structure PresetTable extends PresetRows where
  /-- Every row satisfies its constraints. -/
  checked : toPresetRows.checked = true
  /-- Every reference is to a row. -/
  referenced : toPresetRows.referenced = true

/-- How a statement fails. -/
inductive PresetError
  | check | foreignKey
  deriving DecidableEq, Repr

/-- The end of a statement: the constraints are checked. -/
def PresetRows.settle (s : PresetRows) : Except PresetError PresetTable :=
  if hc : s.checked = true then
    if hr : s.referenced = true then .ok ⟨s, hc, hr⟩ else .error .foreignKey
  else .error .check

/-- `ON DELETE SET NULL` of a preset's own reference. -/
def PresetRow.detach (gone : String → Bool) (r : PresetRow) : PresetRow :=
  if r.fields.fallbackPreset.any gone then
    { r with fields := { r.fields with fallbackPreset := none } }
  else r

/-- The row after an entry has been applied to it: a row that an admin made is left alone. -/
def PresetEntry.upsertRow (p : PresetEntry) (now : ℕ) : Option PresetRow → PresetRow
  | none => { fields := p.fields, managed := true, createdAt := now, updatedAt := now }
  | some r =>
    if r.managed then { r with fields := p.fields.overwrite p.pinned r.fields, updatedAt := now }
    else r

namespace PresetTable

/-- `upsert_managed_preset`; the row to insert is checked even where it is not inserted. -/
def upsertManaged (s : PresetTable) (now : ℕ) (p : PresetEntry) : Except PresetError PresetTable :=
  if isPresetName p.name && p.fields.check then
    { s.toPresetRows with
      presets := s.presets.insert p.name (p.upsertRow now (s.presets.lookup p.name)) }.settle
  else .error .check

/-- Managed, and no longer in the catalogue. -/
def stale (s : PresetTable) (keep : List String) (n : String) : Bool :=
  (s.presets.lookup n).any fun r => r.managed && !keep.contains n

/-- `delete_stale_managed_presets` -/
def deleteStaleManaged (s : PresetTable) (keep : List String) : Except PresetError PresetTable :=
  { s.toPresetRows with
    presets := (s.presets.deleteWhere fun n _ => s.stale keep n).mapRows fun _ r =>
      r.detach (s.stale keep) }.settle

/-- The transaction of a re-sync. -/
def resync (s : PresetTable) (now : ℕ) (catalog : List PresetEntry) :
    Except PresetError PresetTable := do
  let s ← s.deleteStaleManaged (catalog.map PresetEntry.name)
  catalog.foldlM (fun s p => s.upsertManaged now p) s

/-- `list_llm_presets`: the rows in the order of their names. -/
def listLlmPresets (s : PresetTable) : List (Sigma fun _ : String => PresetRow) :=
  s.presets.entries.insertionSort fun x y => x.1 ≤ y.1

/-- The map that is published. -/
def published (s : PresetTable) : Table String PresetFields where
  entries := s.listLlmPresets.map fun x => ⟨x.1, x.2.fields⟩
  nodupKeys := by
    have hkeys : (s.listLlmPresets.map fun x =>
        (⟨x.1, x.2.fields⟩ : Sigma fun _ : String => PresetFields)).keys = s.listLlmPresets.keys := by
      simp [List.keys, Function.comp_def]
    have hnodup : s.listLlmPresets.NodupKeys :=
      (List.perm_nodupKeys (List.perm_insertionSort _ _)).2 s.presets.nodupKeys
    rw [List.NodupKeys, hkeys]
    exact hnodup

end PresetTable

/-! ### Fallback cycles -/

/-- `visit`: follow the fallbacks of a preset; `none`: a cycle.  The presets on the way and those that
are done are passed along. -/
def visitFallback (presets : Table String PresetFields) :
    ℕ → List String → List String → String → Option (List String)
  | 0, _, _, _ => none
  | fuel + 1, trail, done, n =>
    match presets.lookup n with
    | none => some done
    | some p =>
      if n ∈ done then some done
      else if n ∈ trail then none
      else match p.fallbackPreset with
        | none => some (n :: done)
        | some next =>
          (visitFallback presets fuel (n :: trail) done next).map fun done => n :: done

/-- `detect_fallback_cycles`: whether there is none. -/
def fallbacksEnd (presets : Table String PresetFields) : Bool :=
  (presets.keys.foldlM (fun done n =>
    if n ∈ done then some done
    else visitFallback presets (presets.keys.length + 1) [] done n) []).isSome

/-- The service's copy of the presets. -/
structure LlmService where
  presets : Table String PresetFields := ∅

/-- `load_presets_from_db`: re-sync the table and publish it, unless its fallbacks run in a circle;
answers the number of presets. -/
def LlmService.loadPresetsFromDb (svc : LlmService) (s : PresetTable) (now : ℕ)
    (catalog : List PresetEntry) : Except PresetError (LlmService × PresetTable × ℕ) := do
  let s ← s.resync now catalog
  if fallbacksEnd s.published then pure (⟨s.published⟩, s, s.published.keys.length)
  else pure (svc, s, svc.presets.keys.length)

end Backplane
