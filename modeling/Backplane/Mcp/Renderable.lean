import Backplane.Mcp.CustomAgents

/-!
# Custom agents that can be rendered

A definition can be rendered if its parameters have different names and the prompts use no other
names.  The checks of a new agent see to both.  Those of a patch see only to the second, for the row
that they have read, which may have changed when the patch is written.

* `CustomAgentFields.Renderable` : a definition can be rendered.
* `CustomAgentState.isFresh` : a patch leaves what it was checked with.
* `custom_agents_renderable` : in every run of patches that are fresh and repeat no name, every
  committed row can be rendered.
-/

namespace Backplane

open Template (Replaces mem_getIdentifiers_iff)

/-- The names of the parameters differ, and the prompts use no others. -/
structure CustomAgentFields.Renderable (f : CustomAgentFields) : Prop where
  /-- The names differ. -/
  nodup : f.paramNames.Nodup
  /-- What is replaced in a prompt is declared. -/
  declared : ∀ n, Replaces f.systemPrompt n ∨ Replaces f.userPrompt n → n ∈ f.paramNames

/-! ### What may happen -/

/-- The patch sets a prompt or the parameters. -/
def CustomAgentUpdate.isPrompting (req : CustomAgentUpdate) : Bool :=
  req.systemPrompt.isSome || req.userPrompt.isSome || req.parameters.isSome

/-- The prompts and the parameters that the patch leaves are those that it was checked with. -/
def CustomAgentPatch.isFresh (p : CustomAgentPatch) (now : CustomAgentFields) : Bool :=
  !p.req.isPrompting ||
    ((p.req.systemPrompt.isSome || p.seen.systemPrompt = now.systemPrompt) &&
      (p.req.userPrompt.isSome || p.seen.userPrompt = now.userPrompt) &&
      (p.req.parameters.isSome || p.seen.paramNames = now.paramNames))

/-- A patch repeats no name, and leaves what it was checked with. -/
def CustomAgentState.allowed (s : CustomAgentState) : CustomAgentEvent → Bool
  | .write rid _ _ => (s.patches.lookup rid).all fun p =>
    p.req.parameters.all checkParamNamesUnique &&
      (s.agents.lookup p.agentId).all fun r => p.isFresh r.fields
  | _ => true

/-! ### The checks -/

variable {f f' : CustomAgentFields} {req : CustomAgentUpdate} {p : CustomAgentPatch}
  {t t' : CustomAgentTable} {s s' : CustomAgentState} {e : CustomAgentEvent} {agentId : String}

theorem undeclared_eq_nil_iff {systemPrompt userPrompt : String} {names : List String} :
    undeclared systemPrompt userPrompt names = [] ↔
      ∀ n, Replaces systemPrompt n ∨ Replaces userPrompt n → n ∈ names := by
  have hmem : ∀ n, n ∈ promptPlaceholders [systemPrompt, userPrompt] ↔
      Replaces systemPrompt n ∨ Replaces userPrompt n := by
    intro n
    simp [promptPlaceholders, mem_getIdentifiers_iff]
  have hperm := ((promptPlaceholders [systemPrompt, userPrompt]).filter
    (· ∉ names)).perm_insertionSort (· ≤ ·)
  rw [undeclared, ← List.length_eq_zero_iff, hperm.length_eq, List.length_eq_zero_iff,
    List.filter_eq_nil_iff]
  simp only [hmem, decide_eq_true_eq, not_not]

theorem CustomAgentFields.checkPlaceholders_eq_ok : f.checkPlaceholders = .ok () ↔
    ∀ n, Replaces f.systemPrompt n ∨ Replaces f.userPrompt n → n ∈ f.paramNames := by
  rw [checkPlaceholders, checkPromptPlaceholders, ← undeclared_eq_nil_iff]
  cases undeclared f.systemPrompt f.userPrompt f.paramNames <;> simp

theorem mapError_eq_ok {α ε ε' : Type} {x : Except ε α} {g : ε → ε'} {a : α} :
    x.mapError g = .ok a ↔ x = .ok a := by
  cases x <;> simp [Except.mapError]

/-- **What is checked when an agent is created** is all that is needed. -/
theorem CustomAgentCreate.renderable {req : CustomAgentCreate} (h : req.crossField = .ok ()) :
    req.Renderable := by
  rw [crossField] at h
  split_ifs at h with hfields hnames
  exact ⟨of_decide_eq_true hnames,
    CustomAgentFields.checkPlaceholders_eq_ok.1 (mapError_eq_ok.1 h)⟩

theorem CustomAgentTable.checkUpdate_eq_ok (h : t.checkUpdate agentId req = .ok f) :
    (req.merge f).checkPlaceholders = .ok () := by
  rw [checkUpdate] at h
  split_ifs at h
  cases hrow : t.lookup agentId with
  | none => rw [hrow] at h; cases h
  | some r =>
    rw [hrow] at h
    obtain ⟨⟨⟩, hcheck, hseen⟩ := bind_eq_ok.1 h
    obtain rfl := Except.ok.inj hseen
    exact mapError_eq_ok.1 hcheck

/-! ### The patches -/

/-- Definitions with these prompts and names are alike. -/
theorem CustomAgentFields.Renderable.congr (h : f.Renderable)
    (hsystem : f'.systemPrompt = f.systemPrompt) (huser : f'.userPrompt = f.userPrompt)
    (hnames : f'.paramNames = f.paramNames) : f'.Renderable :=
  ⟨hnames ▸ h.nodup, by rw [hsystem, huser, hnames]; exact h.declared⟩

theorem CustomAgentUpdate.paramNames_merge (req : CustomAgentUpdate) (f : CustomAgentFields) :
    (req.merge f).paramNames =
      (req.parameters.map fun ps => ps.map CustomAgentParam.name).getD f.paramNames := by
  rw [CustomAgentFields.paramNames, merge]
  cases req.parameters <;> rfl

/-- **A patch that is fresh and repeats no name** keeps a row renderable. -/
theorem CustomAgentFields.Renderable.merge (h : f.Renderable)
    (hunique : p.req.parameters.all checkParamNamesUnique = true)
    (hcheck : (p.req.merge p.seen).checkPlaceholders = .ok ()) (hfresh : p.isFresh f = true) :
    (p.req.merge f).Renderable := by
  have hnodup : (p.req.merge f).paramNames.Nodup := by
    rw [CustomAgentUpdate.paramNames_merge]
    cases hps : p.req.parameters with
    | none => exact h.nodup
    | some ps =>
      rw [hps] at hunique
      exact of_decide_eq_true hunique
  rw [CustomAgentPatch.isFresh, Bool.or_eq_true, Bool.not_eq_true'] at hfresh
  rcases hfresh with hplain | hsame
  · -- It sets neither a prompt nor the parameters.
    simp only [CustomAgentUpdate.isPrompting, Bool.or_eq_false_iff, Option.isSome_eq_false_iff,
      Option.isNone_iff_eq_none] at hplain
    obtain ⟨⟨hsystem, huser⟩, hparams⟩ := hplain
    refine h.congr ?_ ?_ ?_
    · rw [CustomAgentUpdate.merge, hsystem, Option.getD_none]
    · rw [CustomAgentUpdate.merge, huser, Option.getD_none]
    · rw [CustomAgentUpdate.paramNames_merge, hparams, Option.map_none, Option.getD_none]
  · simp only [Bool.and_eq_true, Bool.or_eq_true, decide_eq_true_eq] at hsame
    obtain ⟨⟨hsystem, huser⟩, hparams⟩ := hsame
    have hdeclared := CustomAgentFields.checkPlaceholders_eq_ok.1 hcheck
    have getD_congr : ∀ {α : Type} {o : Option α} {a b : α}, o.isSome = true ∨ a = b →
        o.getD a = o.getD b := by
      intro α o a b hab
      cases o with
      | none => exact hab.resolve_left Bool.false_ne_true
      | some x => rfl
    refine ⟨hnodup, ?_⟩
    rw [CustomAgentUpdate.paramNames_merge] at hdeclared ⊢
    rw [CustomAgentUpdate.merge, getD_congr hsystem, getD_congr huser,
      getD_congr (hparams.imp_left fun hps => (Option.isSome_map ..).trans hps)] at hdeclared
    exact hdeclared

/-! ### The table -/

/-- Every row can be rendered. -/
def CustomAgentTable.Renderable (t : CustomAgentTable) : Prop :=
  ∀ agentId r, t.lookup agentId = some r → r.fields.Renderable

/-- What holds at any time. -/
structure CustomAgentState.Inv (s : CustomAgentState) : Prop where
  /-- The rows can be rendered. -/
  renderable : s.agents.Renderable
  /-- Patches in progress have been checked. -/
  checked : ∀ rid p, s.patches.lookup rid = some p →
    (p.req.merge p.seen).checkPlaceholders = .ok ()

theorem CustomAgentTable.Renderable.create {presets : List String} {now : ℕ} {token : String}
    {admin : UserId} {req : CustomAgentCreate} (h : t.Renderable) (hreq : req.crossField = .ok ())
    (ht : t.createCustomAgent presets now token admin req = .ok t') : t'.Renderable := by
  rw [createCustomAgent] at ht
  split_ifs at ht
  obtain rfl := Except.ok.inj ht
  intro agentId r hr
  rw [Table.lookup_insert] at hr
  split_ifs at hr
  · obtain rfl := Option.some.inj hr
    exact CustomAgentCreate.renderable hreq
  · exact h agentId r hr

theorem CustomAgentTable.Renderable.update {presets : List String} {now : ℕ} (h : t.Renderable)
    (hunique : p.req.parameters.all checkParamNamesUnique = true)
    (hcheck : (p.req.merge p.seen).checkPlaceholders = .ok ())
    (hfresh : (t.lookup p.agentId).all (fun r => p.isFresh r.fields) = true)
    (ht : t.updateCustomAgent presets now p.agentId p.req = .ok t') : t'.Renderable := by
  rw [updateCustomAgent] at ht
  split at ht
  · cases ht
  · split_ifs at ht
    obtain rfl := Except.ok.inj ht
    intro agentId r hr
    rw [Table.lookup_update] at hr
    split_ifs at hr
    · obtain ⟨r', hr', rfl⟩ := Option.map_eq_some_iff.1 hr
      rw [hr', Option.all_some] at hfresh
      exact (h _ r' hr').merge hunique hcheck hfresh
    · exact h agentId r hr

theorem CustomAgentTable.Renderable.delete (h : t.Renderable) (agentId : String) :
    (t.deleteCustomAgent agentId).Renderable :=
  fun id r hr => h id r (Table.lookup_of_erase hr).2

theorem CustomAgentTable.Renderable.invite (h : t.Renderable) (agentId : String)
    (token : Option String) : (t.setPendingInvitation agentId token).Renderable := by
  intro id r hr
  rw [setPendingInvitation, Table.lookup_update] at hr
  split_ifs at hr
  · obtain ⟨r', hr', rfl⟩ := Option.map_eq_some_iff.1 hr
    exact h _ r' hr'
  · exact h id r hr

namespace CustomAgentState

theorem Inv.settle {o : Except CustomAgentError CustomAgentTable} (h : s.Inv)
    (ht : ∀ t, o = .ok t → t.Renderable) : (s.settle o).Inv := by
  cases o with
  | error e => exact h
  | ok t => exact ⟨ht t rfl, h.checked⟩

theorem Inv.close (h : s.Inv) (rid : ℕ) :
    ({ s with patches := s.patches.erase rid } : CustomAgentState).Inv :=
  ⟨h.renderable, fun rid' p hp => h.checked rid' p (Table.lookup_of_erase hp).2⟩

/-- What an event that is allowed keeps. -/
theorem Inv.step (h : s.Inv) (hallowed : s.allowed e = true) (hstep : s.step e = some s') :
    s'.Inv := by
  cases e with
  | create presets now token admin req =>
    obtain rfl := Option.some.inj hstep
    cases hreq : req.crossField with
    | error err => exact h
    | ok u => exact h.settle fun t ht => h.renderable.create hreq ht
  | check rid agentId req =>
    rw [CustomAgentState.step] at hstep
    split_ifs at hstep
    obtain rfl := Option.some.inj hstep
    cases hseen : s.agents.checkUpdate agentId req with
    | error err => exact h
    | ok seen =>
      refine ⟨h.renderable, fun rid' p hp => ?_⟩
      rw [Table.lookup_insert] at hp
      split_ifs at hp
      · obtain rfl := Option.some.inj hp
        exact CustomAgentTable.checkUpdate_eq_ok hseen
      · exact h.checked rid' p hp
  | write rid presets now =>
    obtain ⟨p, hp, rfl⟩ := Option.map_eq_some_iff.1 hstep
    rw [allowed, hp, Option.all_some, Bool.and_eq_true] at hallowed
    exact (h.close rid).settle fun t ht =>
      h.renderable.update hallowed.1 (h.checked rid p hp) hallowed.2 ht
  | abandon rid => exact Option.some.inj hstep ▸ h.close rid
  | delete agentId => exact Option.some.inj hstep ▸ ⟨h.renderable.delete agentId, h.checked⟩
  | invite agentId token =>
    exact Option.some.inj hstep ▸ ⟨h.renderable.invite agentId token, h.checked⟩

end CustomAgentState

/-- **Custom agents stay renderable** while every patch that is written repeats no name and leaves
the prompts and the parameters that it was checked with: in every committed row the names of the
parameters differ, and whatever is replaced in a prompt is one of them. -/
theorem custom_agents_renderable
    (h : customAgentSystem.Reaches (fun s e => s.allowed e = true) s) : s.agents.Renderable := by
  have hinv : customAgentSystem.Invariant (fun s e => s.allowed e = true) CustomAgentState.Inv := {
    init := ⟨fun _ _ hr => (by cases hr), fun _ _ hp => (by cases hp)⟩
    step := CustomAgentState.Inv.step }
  exact (hinv.of_reaches h).renderable

namespace Sample

/-- A patch of the prompt and one of the parameters, of an agent that has `city` declared; the
second reads the row at this place. -/
def twoEdits (prompt : String) (early : Bool) : List CustomAgentEvent :=
  let create : CustomAgentEvent := .create ["p"] 0 "t" "admin"
    { agentId := "custom_a", presetName := "p", parameters := [{ name := "city" }] }
  let first : CustomAgentEvent := .check 0 "custom_a" { userPrompt := some prompt }
  let second : CustomAgentEvent := .check 1 "custom_a" { parameters := some [{ name := "day" }] }
  if early then [create, first, second, .write 0 [] 1, .write 1 [] 2]
  else [create, first, .write 0 [] 1, second, .write 1 [] 2]

/-- A patch with a name twice. -/
def repeating : List CustomAgentEvent :=
  [.create ["p"] 0 "t" "admin" { agentId := "custom_a", presetName := "p" },
    .check 0 "custom_a" { parameters := some [{ name := "day" }, { name := "day" }] },
    .write 0 [] 1]

/-- The prompt and the parameters of the agent. -/
def shown (s : CustomAgentState) : Option (String × List String) :=
  (s.agents.lookup "custom_a").map fun r => (r.fields.userPrompt, r.fields.paramNames)

end Sample

theorem custom_agents_renderable_later : ∃ s,
    customAgentSystem.run CustomAgentState.allowed {} (Sample.twoEdits "Hello." false) = some s ∧
      Sample.shown s = some ("Hello.", ["day"]) ∧ s.agents.Renderable := by
  have hrun : (customAgentSystem.run CustomAgentState.allowed {}
      (Sample.twoEdits "Hello." false)).map Sample.shown = some (some ("Hello.", ["day"])) := by
    decide +kernel
  obtain ⟨s, hs, hshown⟩ := Option.map_eq_some_iff.1 hrun
  exact ⟨s, hs, hshown, custom_agents_renderable (.of_run (fun _ _ h => h) hs)⟩

/-- **A patch may repeat a name**, and a prompt may lose its parameter to a patch that was checked
before the prompt was written. -/
theorem edits_break :
    (¬ ∀ s, customAgentSystem.Reaches (fun _ _ => True) s →
      ∀ agentId r, s.agents.lookup agentId = some r → r.fields.paramNames.Nodup) ∧
    ¬ ∀ s, customAgentSystem.Reaches (fun _ _ => True) s → ∀ agentId r,
      s.agents.lookup agentId = some r → ∀ n, Replaces r.fields.userPrompt n →
        n ∈ r.fields.paramNames := by
  have hrow : ∀ events prompt names, (customAgentSystem.run (fun _ _ => true) {} events).map
      Sample.shown = some (some (prompt, names)) →
      ∃ s, customAgentSystem.Reaches (fun _ _ => True) s ∧
        ∃ r, s.agents.lookup "custom_a" = some r ∧ r.fields.userPrompt = prompt ∧
          r.fields.paramNames = names := by
    intro events prompt names hrun
    obtain ⟨s, hs, hshown⟩ := Option.map_eq_some_iff.1 hrun
    obtain ⟨r, hr, hfields⟩ := Option.map_eq_some_iff.1 hshown
    exact ⟨s, .of_run (fun _ _ _ => trivial) hs, r, hr, Prod.mk.inj hfields⟩
  constructor
  · intro hall
    obtain ⟨s, hs, r, hr, -, hnames⟩ := hrow Sample.repeating "" ["day", "day"]
      (by decide +kernel)
    have hnodup := hall s hs "custom_a" r hr
    rw [hnames] at hnodup
    exact absurd hnodup (by decide)
  · intro hall
    obtain ⟨s, hs, r, hr, hprompt, hnames⟩ := hrow (Sample.twoEdits "In $city." true)
      "In $city." ["day"] (by decide +kernel)
    have hdeclared := hall s hs "custom_a" r hr "city"
    rw [hprompt, hnames, ← mem_getIdentifiers_iff] at hdeclared
    exact absurd (hdeclared (by decide +kernel)) (by decide)

end Backplane
