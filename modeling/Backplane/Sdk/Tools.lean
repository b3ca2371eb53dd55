import Backplane.Data.Table
import Backplane.Protocol.Types
import Mathlib.Data.List.Forall2

/-!
# Tools for the peers of an agent

An agent offers its peers to a model as tools, one for each mode of a peer.  The name of a tool is
made from the id of the peer and the mode, and a call of the tool is routed by looking its name up
again.

* `Destination` : what the catalog says of a peer.
* `toolSpecs`, `safeToolName` : the tools of a catalog and their names.
* `resolveToolName`, `spawnTarget` : what a call of a tool is routed to.
* `ToolsRoundTrip` : the names are distinct and legal, and each is resolved to what it was made for.
* `tools_round_trip_iff` : they are, exactly when no two tools look alike.
-/

namespace Backplane

/-- What the catalog says of a peer. -/
structure Destination where
  description : String := ""
  /-- The payload it accepts in each mode, if it says so. -/
  acceptsSchema : Option (Table String (Option Json)) := none
  nonToolModes : List String := []
  modeDescriptions : Table String String := ∅
  /-- No tool is made of it. -/
  hidden : Bool := false
  callableUserLevels : List String := []

/-- `_PERMISSIVE_SCHEMA` -/
def permissiveSchema : Json :=
  [("type", "object"), ("properties", "\x7b\x7d"), ("additionalProperties", "true")]

/-- `_schema_for` -/
def schemaFor : Option Json → Json
  | none => permissiveSchema
  | some s =>
    if s.lookup "type" = some "object" ∨ (s.lookup "properties").isSome then s else permissiveSchema

/-- A character that providers allow in the name of a tool. -/
def isToolChar (c : Char) : Bool := c.isAlphanum || c = '_' || c = '-'

/-- A character in the name of a tool. -/
def scrub (c : Char) : Char := if isToolChar c then c else '_'

/-- `_safe_tool_name` -/
def safeToolName (label : String) : String :=
  String.ofList ((("call_" ++ label).toList.map scrub).take 64)

/-- `_description` -/
def Destination.text (e : Destination) (override : Option String) : String :=
  (override.filter (· ≠ "")).getD e.description

/-- A tool: its name, what a call of it is for, its parameters and its text. -/
structure ToolSpec where
  toolName : String
  agentId : AgentId
  /-- The mode; none for a peer that does not tell its modes. -/
  mode : Option String
  params : Json
  description : String
  deriving DecidableEq

namespace Destination

variable (e : Destination)

/-- The modes that make a tool, if the peer tells its modes. -/
def toolModes : Option (List (Sigma fun _ : String => Option Json)) :=
  (e.acceptsSchema.filter fun accepts => accepts.entries ≠ []).map fun accepts =>
    accepts.entries.filter fun x => x.1 ∉ e.nonToolModes

/-- What the name of a tool is made from. -/
def label (a : AgentId) (mode : Option String) : String :=
  match e.toolModes, mode with
  | some modes, some m => if 1 < modes.length then a ++ "_" ++ m else a
  | _, _ => a

/-- The tools of one peer. -/
def specs (a : AgentId) : List ToolSpec :=
  match e.toolModes with
  | none => [⟨safeToolName a, a, none, permissiveSchema, e.text none⟩]
  | some modes => modes.map fun x =>
      ⟨if 1 < modes.length then safeToolName (a ++ "_" ++ x.1) else safeToolName a, a, some x.1,
        schemaFor x.2, e.text (e.modeDescriptions.lookup x.1)⟩

/-- The peer makes a tool for the mode. -/
def Offers (mode : Option String) : Prop :=
  match e.toolModes with
  | none => mode = none
  | some modes => ∃ x ∈ modes, mode = some x.1

end Destination

/-- `_tool_specs` -/
def toolSpecs (d : Table AgentId Destination) : List ToolSpec :=
  d.entries.flatMap fun x => x.2.specs x.1

/-- `resolve_tool_name` -/
def resolveToolName (d : Table AgentId Destination) (name : String) :
    Option (AgentId × Option String) :=
  ((toolSpecs d).find? fun x => x.toolName = name).map fun x => (x.agentId, x.mode)

/-- `visible`: the peers that may be called at this level. -/
def visibleAt (d : Table AgentId Destination) (level : String) : Table AgentId Destination :=
  if level = "" then ∅ else d.deleteWhere fun _ e => level ∉ e.callableUserLevels

/-- `build_tools`: the tools of the peers that are not hidden; a provider may ask for another shape of
the parameters. -/
def buildTools (shape : Json → Json) (d : Table AgentId Destination) (userLevel : Option String) :
    List ToolSpec :=
  (toolSpecs (d.deleteWhere fun _ e =>
    e.hidden || !(userLevel.all fun l => l ∈ e.callableUserLevels))).map fun x =>
      { x with params := shape x.params }

/-- `spawn_from_tool_call`: the peer and the mode that are spawned; `none`: no such tool can be. -/
def spawnTarget (d : Table AgentId Destination) (name : String) :
    Option (AgentId × Option String) :=
  if "call_".toList.isPrefixOf name.toList then
    some ((resolveToolName d name).getD (String.ofList (name.toList.drop 5), none))
  else none

/-- A name that every provider takes. -/
def isToolName (n : String) : Bool :=
  decide (0 < n.toList.length) && decide (n.toList.length ≤ 64) && n.toList.all isToolChar

/-- The names of the tools of a catalog are distinct and legal, and each is resolved to what it was
made for. -/
structure ToolsRoundTrip (d : Table AgentId Destination) : Prop where
  distinct : ((toolSpecs d).map ToolSpec.toolName).Nodup
  legal : ∀ x ∈ toolSpecs d, isToolName x.toolName = true
  resolved : ∀ x ∈ toolSpecs d, resolveToolName d x.toolName = some (x.agentId, x.mode)

/-- Equal, or each an underscore or a character that is not allowed. -/
def Alike (c c' : Char) : Prop :=
  c = c' ∨ (isToolChar c = false ∨ c = '_') ∧ (isToolChar c' = false ∨ c' = '_')

/-- The first 59 characters are alike. -/
def LooksLike (l l' : String) : Prop := List.Forall₂ Alike (l.toList.take 59) (l'.toList.take 59)

/-- No two tools have labels that look alike. -/
def Distinguishable (d : Table AgentId Destination) : Prop :=
  ∀ a e m a' e' m', d.lookup a = some e → e.Offers m → d.lookup a' = some e' → e'.Offers m' →
    LooksLike (e.label a m) (e'.label a' m') → a = a' ∧ m = m'

section

variable {d : Table AgentId Destination} {e : Destination} {a : AgentId} {m : Option String}
  {l l' : String} {c c' : Char} {x : ToolSpec}

/-! ### Names -/

theorem isToolChar_scrub : isToolChar (scrub c) = true := by
  unfold scrub
  split_ifs with h
  · exact h
  · decide

/-- Two characters are written alike exactly when they are alike. -/
theorem scrub_eq_iff : scrub c = scrub c' ↔ Alike c c' := by
  unfold scrub Alike
  split_ifs with h h'
  · refine ⟨.inl, ?_⟩
    rintro (rfl | ⟨hc, hc'⟩)
    · rfl
    · rw [hc.resolve_left (by simp [h]), hc'.resolve_left (by simp [h'])]
  · refine ⟨fun hc => .inr ⟨.inr hc, .inl (Bool.not_eq_true _ ▸ h')⟩, ?_⟩
    rintro (rfl | ⟨hc, -⟩)
    · exact absurd h h'
    · exact hc.resolve_left (by simp [h])
  · rename_i h'
    refine ⟨fun hc => .inr ⟨.inl (Bool.not_eq_true _ ▸ h), .inr hc.symm⟩, ?_⟩
    rintro (rfl | ⟨-, hc'⟩)
    · exact absurd h' h
    · exact (hc'.resolve_left (by simp [h'])).symm
  · rename_i h'
    exact iff_of_true rfl
      (.inr ⟨.inl (Bool.not_eq_true _ ▸ h), .inl (Bool.not_eq_true _ ▸ h')⟩)

theorem toList_safeToolName :
    (safeToolName l).toList = "call_".toList ++ (l.toList.take 59).map scrub := by
  have hcall : "call_".toList.map scrub = "call_".toList := by decide
  rw [safeToolName, String.toList_ofList, String.toList_append, List.map_append, hcall,
    List.take_append, List.map_take]
  rfl

theorem safeToolName_eq_iff : safeToolName l = safeToolName l' ↔ LooksLike l l' := by
  rw [← String.toList_inj, toList_safeToolName, toList_safeToolName, List.append_cancel_left_eq,
    ← List.forall₂_eq_eq_eq, List.forall₂_map_left_iff, List.forall₂_map_right_iff]
  simp only [scrub_eq_iff]
  rfl

theorem isToolName_safeToolName : isToolName (safeToolName l) = true := by
  have hlen : ((l.toList.take 59).map scrub).length ≤ 59 := by
    rw [List.length_map, List.length_take]
    omega
  have hcall : "call_".toList.length = 5 := rfl
  have hlegal : "call_".toList.all isToolChar = true := by decide
  rw [isToolName, toList_safeToolName, List.length_append, hcall, List.all_append, hlegal,
    Bool.true_and, Bool.and_eq_true, Bool.and_eq_true]
  refine ⟨⟨decide_eq_true (by omega), decide_eq_true (by omega)⟩, ?_⟩
  rw [List.all_map, List.all_eq_true]
  exact fun c _ => isToolChar_scrub

/-! ### The tools of a catalog -/

/-- A tool is made for a mode that the peer offers, and named after its label. -/
theorem Destination.of_mem_specs (hx : x ∈ e.specs a) :
    x.agentId = a ∧ e.Offers x.mode ∧ x.toolName = safeToolName (e.label a x.mode) := by
  unfold specs at hx
  unfold Offers label
  cases hm : e.toolModes with
  | none =>
    rw [hm] at hx
    obtain rfl := List.mem_singleton.1 hx
    exact ⟨rfl, rfl, rfl⟩
  | some modes =>
    rw [hm] at hx
    obtain ⟨y, hy, rfl⟩ := List.mem_map.1 hx
    exact ⟨rfl, ⟨y, hy, rfl⟩, (apply_ite safeToolName _ _ _).symm⟩

/-- And there is one for each. -/
theorem Destination.exists_spec (a : AgentId) (ho : e.Offers m) : ∃ x ∈ e.specs a, x.mode = m := by
  unfold Offers at ho
  unfold specs
  cases hm : e.toolModes with
  | none =>
    rw [hm] at ho
    exact ⟨_, List.mem_singleton.2 rfl, ho.symm⟩
  | some modes =>
    rw [hm] at ho
    obtain ⟨y, hy, rfl⟩ := ho
    exact ⟨_, List.mem_map.2 ⟨y, hy, rfl⟩, rfl⟩

theorem mem_toolSpecs : x ∈ toolSpecs d ↔ ∃ e, d.lookup x.agentId = some e ∧ x ∈ e.specs x.agentId := by
  rw [toolSpecs, List.mem_flatMap]
  constructor
  · rintro ⟨⟨a, e⟩, he, hx⟩
    obtain rfl := (Destination.of_mem_specs hx).1
    exact ⟨e, AList.mem_lookup_iff.2 he, hx⟩
  · rintro ⟨e, he, hx⟩
    exact ⟨⟨x.agentId, e⟩, AList.mem_lookup_iff.1 he, hx⟩

theorem Destination.nodup_specs (e : Destination) (a : AgentId) :
    ((e.specs a).map fun x => (x.agentId, x.mode)).Nodup := by
  unfold specs
  cases hm : e.toolModes with
  | none => exact List.nodup_singleton _
  | some modes =>
    have hkeys : (modes.map Sigma.fst).Nodup := by
      obtain ⟨accepts, -, rfl⟩ := Option.map_eq_some_iff.1 hm
      exact List.Nodup.sublist (List.filter_sublist.map _) accepts.nodupKeys
    have hpair := hkeys.map (f := fun k => (a, some k)) fun k k' h =>
      Option.some.inj (Prod.mk.inj h).2
    simpa [List.map_map, Function.comp_def] using hpair

/-- No peer has two tools for one mode. -/
theorem nodup_toolSpecs (d : Table AgentId Destination) :
    ((toolSpecs d).map fun x => (x.agentId, x.mode)).Nodup := by
  rw [toolSpecs, List.map_flatMap, List.nodup_flatMap]
  refine ⟨fun y _ => y.2.nodup_specs y.1, ?_⟩
  refine (List.nodupKeys_iff_pairwise.1 d.nodupKeys).imp fun {y z} hne => ?_
  rw [Function.onFun_apply, List.disjoint_left]
  rintro ⟨b, m⟩ hy hz
  obtain ⟨x, hx, hxb⟩ := List.mem_map.1 hy
  obtain ⟨x', hx', hxb'⟩ := List.mem_map.1 hz
  have hb := (Destination.of_mem_specs hx).1.symm.trans (Prod.mk.inj hxb).1
  have hb' := (Destination.of_mem_specs hx').1.symm.trans (Prod.mk.inj hxb').1
  exact hne (hb.trans hb'.symm)

/-! ### The round trip -/

/-- A tool that shares its name with no other is what the name is resolved to. -/
theorem resolveToolName_of_unique (hx : x ∈ toolSpecs d)
    (hu : ∀ y ∈ toolSpecs d, y.toolName = x.toolName → (y.agentId, y.mode) = (x.agentId, x.mode)) :
    resolveToolName d x.toolName = some (x.agentId, x.mode) := by
  have hfound : ((toolSpecs d).find? fun y => y.toolName = x.toolName).isSome :=
    List.find?_isSome.2 ⟨x, hx, decide_eq_true rfl⟩
  obtain ⟨y, hy⟩ := Option.isSome_iff_exists.1 hfound
  have hname := List.find?_some hy
  rw [resolveToolName, hy, Option.map_some]
  exact congrArg some (hu y (List.mem_of_find?_eq_some hy) (of_decide_eq_true hname))

/-- **The names of the tools round-trip exactly when no two tools look alike.** -/
theorem tools_round_trip_iff (d : Table AgentId Destination) :
    ToolsRoundTrip d ↔ Distinguishable d := by
  constructor
  · intro h a e m a' e' m' he ho he' ho' hlike
    obtain ⟨x, hx, rfl⟩ := Destination.exists_spec a ho
    obtain ⟨x', hx', rfl⟩ := Destination.exists_spec a' ho'
    obtain ⟨rfl, -, hname⟩ := Destination.of_mem_specs hx
    obtain ⟨rfl, -, hname'⟩ := Destination.of_mem_specs hx'
    have hsame : x.toolName = x'.toolName := by
      rw [hname, hname', safeToolName_eq_iff.2 hlike]
    obtain rfl := List.inj_on_of_nodup_map h.distinct (mem_toolSpecs.2 ⟨e, he, hx⟩)
      (mem_toolSpecs.2 ⟨e', he', hx'⟩) hsame
    exact ⟨rfl, rfl⟩
  · intro h
    have hu : ∀ x ∈ toolSpecs d, ∀ y ∈ toolSpecs d, y.toolName = x.toolName →
        (y.agentId, y.mode) = (x.agentId, x.mode) := by
      intro x hx y hy hname
      obtain ⟨e, he, hx⟩ := mem_toolSpecs.1 hx
      obtain ⟨e', he', hy⟩ := mem_toolSpecs.1 hy
      obtain ⟨-, ho, hn⟩ := Destination.of_mem_specs hx
      obtain ⟨-, ho', hn'⟩ := Destination.of_mem_specs hy
      obtain ⟨ha, hm⟩ := h _ _ _ _ _ _ he' ho' he ho
        (safeToolName_eq_iff.1 (hn'.symm.trans (hname.trans hn)))
      rw [ha, hm]
    refine ⟨?_, fun x hx => ?_, fun x hx => resolveToolName_of_unique hx (hu x hx)⟩
    · refine (List.Nodup.of_map _ (nodup_toolSpecs d)).map_on fun x hx y hy hname => ?_
      exact List.inj_on_of_nodup_map (nodup_toolSpecs d) hx hy (hu y hy x hx hname)
    · obtain ⟨e, -, hx⟩ := mem_toolSpecs.1 hx
      rw [(Destination.of_mem_specs hx).2.2]
      exact isToolName_safeToolName

/-! ### Two tools that look alike -/

/-- Both peers are valid, and a mode of the one has the label of a mode of the other. -/
theorem tool_names_collide : ¬ ∀ d : Table AgentId Destination, ToolsRoundTrip d := by
  intro hall
  have h := (hall (AList.insert "notes"
    { acceptsSchema := some (AList.insert "add_tag" none (AList.insert "list" none ∅)) }
    (AList.insert "notes_add"
      { acceptsSchema := some (AList.insert "tag" none (AList.insert "list" none ∅)) } ∅))).distinct
  exact absurd h (by decide +kernel)

end

end Backplane
