import Backplane.Llm.PresetRequests

/-!
# The invariants of the preset table

The fallbacks of the presets run in no circle and lead to presets, and each preset has an endpoint
that suits its provider.  Requests check that before they write, and exclude each other; what a
patch has read may be stale when it writes, and a re-sync writes without looking.

* `PresetTable.Sane` : the invariants.
* `PresetTable.isFresh` : a patch leaves the provider and the endpoint that it was checked with.
* `entrySafe`, `resyncSafe` : a re-sync leads no preset to another fallback, and its providers suit
  the endpoints that stay.
* `presets_sane` : in every run of such steps, each committed table is sane.
-/

namespace Backplane

variable (net : Net)

/-- The invariants. -/
structure PresetTable.Sane (s : PresetTable) : Prop where
  /-- The fallbacks run in no circle. -/
  acyclic : Acyclic s.fallback
  /-- They lead to presets. -/
  intact : ∀ n m, s.fallback n = some m → s.presets.lookup m ≠ none
  /-- The provider has an endpoint if it needs one, and the endpoint suits it. -/
  policy : ∀ n r, s.presets.lookup n = some r →
    checkProviderBaseUrlConsistency net r.fields.provider r.fields.baseUrl = true

/-! ### What may happen -/

/-- The patch leaves the provider and the endpoint that it was checked with. -/
def PresetTable.isFresh (s : PresetTable) (name : String) (patch : PresetPatch)
    (seen : Option Routing) : Bool :=
  (s.presets.lookup name).all fun r => !patch.isRouting ||
    seen.any fun x => patch.routing x = patch.routing (r.fields.provider, r.fields.baseUrl)

/-- The entry suits the row that it is applied to: it leads it to no other fallback, and its
provider suits the endpoint. -/
def entrySafe (s : PresetTable) (p : PresetEntry) : Bool :=
  match s.presets.lookup p.name with
  | none => checkProviderBaseUrlConsistency net p.fields.provider p.fields.baseUrl &&
      p.fields.fallbackPreset ≠ some p.name
  | some r => !r.managed ||
      checkProviderBaseUrlConsistency net p.fields.provider
        (if .baseUrl ∈ p.pinned then p.fields.baseUrl else r.fields.baseUrl) &&
      (.fallbackPreset ∉ p.pinned || p.fields.fallbackPreset = none ||
        p.fields.fallbackPreset = r.fields.fallbackPreset)

/-- The entries are, each where it is applied. -/
def upsertsSafe (now : ℕ) : PresetTable → List PresetEntry → Bool
  | _, [] => true
  | s, p :: ps => entrySafe net s p && match s.upsertManaged now p with
    | .ok s' => upsertsSafe now s' ps
    | .error _ => true

/-- The entries of the catalogue are, when the stale presets are gone. -/
def resyncSafe (s : PresetTable) (now : ℕ) (catalog : List PresetEntry) : Bool :=
  match s.deleteStaleManaged (catalog.map PresetEntry.name) with
  | .ok s' => upsertsSafe net now s' catalog
  | .error _ => true

/-- The event may happen. -/
def PresetState.allowed (catalog : ℕ → List PresetEntry) (s : PresetState) : PresetEvent → Bool
  | .write rid _ => (s.requests.lookup rid).all fun stage => match stage with
    | .checked name patch seen => s.table.isFresh name patch seen
    | _ => true
  | .resync _ now version => resyncSafe net s.table now (catalog version)
  | _ => true

variable {net} {s s' : PresetTable} {now : ℕ} {name n m : String} {p : PresetEntry}
  {r : PresetRow} {f : PresetFields} {patch : PresetPatch} {seen : Option Routing}

/-! ### Transactions -/

theorem PresetTable.intact (h : s.fallback n = some m) : s.presets.lookup m ≠ none := by
  obtain ⟨r, hr, hm⟩ := Option.bind_eq_some_iff.1 h
  exact (PresetRows.referenced_iff.1 s.referenced).1 n r m hr hm

theorem PresetTable.settle_eq_some {x : PresetRows} (h : x.settle.toOption = some s) :
    s.toPresetRows = x :=
  PresetRows.settle_ok (ok_of_toOption h)

/-- What is committed is what was written, and its fallbacks run in no circle. -/
theorem PresetTable.commit_eq_some {x : PresetRows} (h : PresetTable.commit x = some s) :
    s.toPresetRows = x ∧ Acyclic s.fallback := by
  obtain ⟨hsettle, hends⟩ := Option.filter_eq_some_iff.1 h
  refine ⟨settle_eq_some hsettle, ?_⟩
  rw [← fallbackOf_published]
  exact fallbacksEnd_iff.1 hends

/-- Another row with a provider and an endpoint that suit each other. -/
theorem PresetTable.Sane.write (h : s.Sane net) (hacyclic : Acyclic s'.fallback)
    (hrows : ∀ n r, s'.presets.lookup n = some r →
      checkProviderBaseUrlConsistency net r.fields.provider r.fields.baseUrl = true ∨
        ∃ r', s.presets.lookup n = some r' ∧ r'.fields.provider = r.fields.provider ∧
          r'.fields.baseUrl = r.fields.baseUrl) : s'.Sane net := by
  refine ⟨hacyclic, fun n m => PresetTable.intact, fun n r hr => ?_⟩
  rcases hrows n r hr with hcheck | ⟨r', hr', hprovider, hurl⟩
  · exact hcheck
  · rw [← hprovider, ← hurl]
    exact h.policy n r' hr'

/-- Presets are gone, and those that fell back on them fall back on none. -/
theorem PresetTable.Sane.detach (h : s.Sane net) {gone : String → Bool} {keep : String → Bool}
    (hrows : ∀ n, s'.presets.lookup n =
      ((s.presets.lookup n).filter fun _ => keep n).map (PresetRow.detach gone)) : s'.Sane net := by
  refine h.write (h.acyclic.of_le fun x m hm => ?_) fun n r hr => .inr ?_
  · obtain ⟨r, hr, hm⟩ := Option.bind_eq_some_iff.1 hm
    rw [hrows x] at hr
    obtain ⟨r', hr', rfl⟩ := Option.map_eq_some_iff.1 hr
    rw [PresetRow.detach_fallback] at hm
    rw [PresetTable.fallback, (Option.filter_eq_some_iff.1 hr').1]
    exact (Option.filter_eq_some_iff.1 hm).1
  · rw [hrows n] at hr
    obtain ⟨r', hr', rfl⟩ := Option.map_eq_some_iff.1 hr
    refine ⟨r', (Option.filter_eq_some_iff.1 hr').1, ?_, ?_⟩
    · exact (PresetRow.get_detach (c := .provider) (by decide)).symm
    · exact (PresetRow.get_detach (c := .baseUrl) (by decide)).symm

theorem PresetTable.Sane.deleteStaleManaged {keep : List String} (h : s.Sane net)
    (hs : s.deleteStaleManaged keep = .ok s') : s'.Sane net :=
  h.detach (PresetTable.deleteStaleManaged_ok hs).2

/-- An entry that suits the row that it is applied to. -/
theorem PresetTable.Sane.upsertManaged (h : s.Sane net) (hsafe : entrySafe net s p = true)
    (hs : s.upsertManaged now p = .ok s') : s'.Sane net := by
  obtain ⟨-, -, -, hrows⟩ := PresetTable.upsertManaged_ok hs
  have hne : ∀ x, x ≠ p.name → s'.fallback x = s.fallback x := by
    intro x hx
    rw [PresetTable.fallback, hrows, Table.lookup_insert, if_neg hx]
    rfl
  have hself : s'.fallback p.name =
      (p.upsertRow now (s.presets.lookup p.name)).fields.fallbackPreset := by
    rw [PresetTable.fallback, hrows, Table.lookup_insert, if_pos rfl]
    rfl
  have hother : ∀ n r, s'.presets.lookup n = some r →
      (n = p.name ∧ r = p.upsertRow now (s.presets.lookup p.name)) ∨
        s.presets.lookup n = some r := by
    intro n r hr
    rw [hrows, Table.lookup_insert] at hr
    split_ifs at hr with hn
    · exact .inl ⟨hn, (Option.some.inj hr).symm⟩
    · exact .inr hr
  rw [entrySafe] at hsafe
  cases hold : s.presets.lookup p.name with
  | none =>
    rw [hold] at hsafe hself hother
    obtain ⟨hcheck, hfallback⟩ := Bool.and_eq_true_iff.1 hsafe
    refine h.write (h.acyclic.insert (fun x hx => ?_) hne ?_) fun n r hr => ?_
    · exact PresetTable.intact hx hold
    · rw [hself]
      exact of_decide_eq_true hfallback
    · rcases hother n r hr with ⟨-, rfl⟩ | hr
      · exact .inl hcheck
      · exact .inr ⟨r, hr, rfl, rfl⟩
  | some r₀ =>
    rw [hold] at hsafe hself hother
    by_cases hmanaged : r₀.managed = true
    · rw [PresetEntry.upsertRow, if_pos hmanaged] at hself hother
      dsimp only at hsafe
      rw [hmanaged, Bool.not_true, Bool.false_or, Bool.and_eq_true] at hsafe
      obtain ⟨hcheck, hfallback⟩ := hsafe
      refine h.write (h.acyclic.of_le fun x m hm => ?_) fun n r hr => ?_
      · by_cases hx : x = p.name
        · rw [hx, hself] at hm
          rw [hx, PresetTable.fallback, hold]
          change (if _ then _ else _) = _ at hm
          split_ifs at hm with hpinned
          · simp only [hpinned, not_true_eq_false, decide_false, Bool.false_or, hm, reduceCtorEq,
              decide_eq_true_eq] at hfallback
            exact hfallback.symm
          · exact hm
        · rw [← hne x hx]
          exact hm
      · rcases hother n r hr with ⟨-, rfl⟩ | hr
        · refine .inl ?_
          change checkProviderBaseUrlConsistency net (if _ then _ else _) (if _ then _ else _) = true
          rw [if_pos p.required]
          exact hcheck
        · exact .inr ⟨r, hr, rfl, rfl⟩
    -- A row that an admin made is left alone.
    · rw [PresetEntry.upsertRow, if_neg hmanaged] at hself hother
      refine h.write (h.acyclic.of_le fun x m hm => ?_) fun n r hr => .inr ?_
      · by_cases hx : x = p.name
        · rw [hx, hself] at hm
          rw [hx, PresetTable.fallback, hold]
          exact hm
        · rw [← hne x hx]
          exact hm
      · rcases hother n r hr with ⟨rfl, rfl⟩ | hr
        · exact ⟨r, hold, rfl, rfl⟩
        · exact ⟨r, hr, rfl, rfl⟩

theorem PresetTable.Sane.upserts {catalog : List PresetEntry} (h : s.Sane net)
    (hsafe : upsertsSafe net now s catalog = true)
    (hs : catalog.foldlM (fun s p => s.upsertManaged now p) s = .ok s') : s'.Sane net := by
  induction catalog generalizing s with
  | nil => exact Except.ok.inj hs ▸ h
  | cons p catalog ih =>
    rw [List.foldlM_cons] at hs
    obtain ⟨x, hx, hs⟩ := bind_eq_ok.1 hs
    rw [upsertsSafe, hx, Bool.and_eq_true] at hsafe
    exact ih (h.upsertManaged hsafe.1 hx) hsafe.2 hs

/-- **A re-sync keeps the invariants**, if its entries suit the rows. -/
theorem PresetTable.Sane.resync {catalog : List PresetEntry} (h : s.Sane net)
    (hsafe : resyncSafe net s now catalog = true) (hs : s.resync now catalog = .ok s') :
    s'.Sane net := by
  obtain ⟨x, hx, hs⟩ := bind_eq_ok.1 hs
  rw [resyncSafe, hx] at hsafe
  exact (h.deleteStaleManaged hx).upserts hsafe hs

theorem PresetTable.Sane.insertLlmPreset {admin : UserId} (h : s.Sane net)
    (hcheck : checkProviderBaseUrlConsistency net f.provider f.baseUrl = true)
    (hs : s.insertLlmPreset now name f admin = some s') : s'.Sane net := by
  rw [PresetTable.insertLlmPreset] at hs
  split_ifs at hs
  obtain ⟨hrows, hacyclic⟩ := PresetTable.commit_eq_some hs
  refine h.write hacyclic fun n r hr => ?_
  rw [congrArg PresetRows.presets hrows, Table.lookup_insert] at hr
  split_ifs at hr
  · obtain rfl := Option.some.inj hr
    exact .inl hcheck
  · exact .inr ⟨r, hr, rfl, rfl⟩

theorem PresetTable.routing_patchRow (now : ℕ) (patch : PresetPatch) (r : PresetRow) :
    ((PresetTable.patchRow now patch r).fields.provider,
      (PresetTable.patchRow now patch r).fields.baseUrl) =
      patch.routing (r.fields.provider, r.fields.baseUrl) := by
  rw [PresetTable.patchRow]
  split_ifs with hempty
  · rw [PresetPatch.routing, hempty]
    rfl
  · rfl

/-- A patch that is not stale. -/
theorem PresetTable.Sane.updateLlmPreset (h : s.Sane net) (hfresh : s.isFresh name patch seen = true)
    (hcheck : ∀ x, seen = some x →
      checkProviderBaseUrlConsistency net (patch.routing x).1 (patch.routing x).2 = true)
    (hs : s.updateLlmPreset now name patch = some s') : s'.Sane net := by
  rw [PresetTable.updateLlmPreset] at hs
  split_ifs at hs
  obtain ⟨hrows, hacyclic⟩ := PresetTable.commit_eq_some hs
  refine h.write hacyclic fun n r hr => ?_
  rw [congrArg PresetRows.presets hrows, Table.lookup_update] at hr
  split_ifs at hr with hname
  · obtain ⟨r', hr', rfl⟩ := Option.map_eq_some_iff.1 hr
    have hprovider := congrArg Prod.fst (PresetTable.routing_patchRow now patch r')
    have hurl := congrArg Prod.snd (PresetTable.routing_patchRow now patch r')
    dsimp only at hprovider hurl
    rw [isFresh, hr', Option.all_some, Bool.or_eq_true, Bool.not_eq_true'] at hfresh
    rw [hprovider, hurl]
    rcases hfresh with hrouting | hseen
    · refine .inr ⟨r', hname ▸ hr', ?_⟩
      obtain ⟨hp, hb⟩ := Bool.or_eq_false_iff.1 hrouting
      rw [PresetPatch.routing, if_neg (of_decide_eq_false hp), if_neg (of_decide_eq_false hb)]
      exact ⟨rfl, rfl⟩
    · obtain ⟨x, hx, heq⟩ := (Option.any_eq_true ..).1 hseen
      rw [← of_decide_eq_true heq]
      exact .inl (hcheck x hx)
  · exact .inr ⟨r, hr, rfl, rfl⟩

theorem PresetTable.Sane.deleteLlmPreset (h : s.Sane net)
    (hs : s.deleteLlmPreset name = some s') : s'.Sane net := by
  rw [PresetTable.deleteLlmPreset] at hs
  split_ifs at hs
  have hrows := PresetTable.settle_eq_some hs
  have hdetach : ∀ n, s'.presets.lookup n =
      ((s.presets.lookup n).filter fun _ => decide (n ≠ name)).map
        (PresetRow.detach fun x => x = name) := by
    intro n
    rw [congrArg PresetRows.presets hrows, Table.lookup_mapRows]
    by_cases hn : n = name
    · rw [hn, AList.lookup_erase]
      cases s.presets.lookup name <;> simp [Option.filter]
    · rw [AList.lookup_erase_ne hn]
      cases s.presets.lookup n <;> simp [Option.filter, hn]
  exact h.detach hdetach

/-! ### The requests -/

/-- What holds at any time. -/
structure PresetState.Inv (net : Net) (s : PresetState) : Prop where
  sane : s.table.Sane net
  /-- What was checked suits. -/
  checked : ∀ rid name patch seen, s.requests.lookup rid = some (.checked name patch seen) →
    ∀ x, seen = some x →
      checkProviderBaseUrlConsistency net (patch.routing x).1 (patch.routing x).2 = true

namespace PresetState

variable {s s' : PresetState} {rid : ℕ} {stage : PresetStage} {table : PresetTable}
  {catalog : ℕ → List PresetEntry} {e : PresetEvent} {asked : Table String PresetFields}

theorem Inv.close (h : s.Inv net) (rid : ℕ) : (s.close rid).Inv net :=
  ⟨h.sane, fun rid' name patch seen hlookup =>
    h.checked rid' name patch seen (Table.lookup_of_erase hlookup).2⟩

theorem Inv.move (h : s.Inv net) (hstage : ∀ name patch seen, stage = .checked name patch seen →
      ∀ x, seen = some x →
        checkProviderBaseUrlConsistency net (patch.routing x).1 (patch.routing x).2 = true) :
    (s.move rid stage).Inv net := by
  refine ⟨h.sane, fun rid' name patch seen hlookup => ?_⟩
  rw [PresetState.move, Table.lookup_insert] at hlookup
  split_ifs at hlookup
  · exact hstage name patch seen (Option.some.inj hlookup)
  · exact h.checked rid' name patch seen hlookup

/-- Another table, which is sane. -/
theorem Inv.of_sane (h : s.Inv net) (hrequests : s'.requests = s.requests)
    (htable : s'.table.Sane net) : s'.Inv net :=
  ⟨htable, hrequests ▸ h.checked⟩

theorem Inv.finish {o : Option PresetTable} (h : s.Inv net)
    (htable : ∀ table, o = some table → table.Sane net) : (s.finish rid asked o).Inv net := by
  cases o with
  | none => exact h.close rid
  | some table =>
    have hmove : (s.move rid .written).Inv net := h.move fun _ _ _ hstage => by cases hstage
    exact hmove.of_sane rfl (htable table rfl)

theorem checkUpdate_suits {table : PresetTable} {name : String} {req : UpdateLlmPresetRequest}
    {x : Routing} (h : table.checkUpdate net name req = some (patch, seen)) (hx : seen = some x) :
    checkProviderBaseUrlConsistency net (patch.routing x).1 (patch.routing x).2 = true := by
  rw [PresetTable.checkUpdate] at h
  obtain ⟨patch', -, h⟩ := Option.bind_eq_some_iff.1 h
  obtain ⟨_, -, h⟩ := Option.bind_eq_some_iff.1 h
  dsimp only at h
  obtain ⟨_, hsuits, h⟩ := Option.bind_eq_some_iff.1 h
  obtain ⟨_, -, h⟩ := Option.bind_eq_some_iff.1 h
  obtain ⟨rfl, rfl⟩ := Prod.mk.inj (Option.some.inj h)
  rw [hx] at hsuits
  by_contra hcheck
  rw [guard, Option.all_some, if_neg hcheck] at hsuits
  cases hsuits

theorem checkCreate_suits {name : String} {f g : PresetFields} (h : checkCreate net name f = some g) :
    checkProviderBaseUrlConsistency net g.provider g.baseUrl = true := by
  rw [checkCreate] at h
  obtain ⟨_, -, h⟩ := Option.bind_eq_some_iff.1 h
  dsimp only at h
  obtain ⟨_, -, h⟩ := Option.bind_eq_some_iff.1 h
  obtain ⟨_, hsuits, h⟩ := Option.bind_eq_some_iff.1 h
  obtain rfl := Option.some.inj h
  by_contra hcheck
  rw [guard, if_neg hcheck] at hsuits
  cases hsuits

/-- **The invariants are kept** by the events that are allowed. -/
theorem Inv.step (h : s.Inv net) (hallowed : s.allowed net catalog e = true)
    (hstep : s.step net catalog e = some s') : s'.Inv net := by
  cases e with
  | check rid name req =>
    rw [PresetState.step] at hstep
    split_ifs at hstep
    obtain rfl := Option.some.inj hstep
    cases hcheck : s.table.checkUpdate net name req with
    | none => exact h
    | some x =>
      refine h.move fun _ _ _ hstage y hy => ?_
      obtain ⟨-, rfl, rfl⟩ := PresetStage.checked.inj hstage
      exact checkUpdate_suits hcheck hy
  | write rid now =>
    rw [PresetState.step] at hstep
    rw [allowed] at hallowed
    split at hstep
    · next name patch seen hlookup =>
      obtain rfl := Option.some.inj hstep
      rw [hlookup] at hallowed
      exact h.finish fun table htable =>
        h.sane.updateLlmPreset hallowed (h.checked rid name patch seen hlookup) htable
    · cases hstep
  | create rid now name f admin =>
    rw [PresetState.step] at hstep
    split_ifs at hstep
    obtain rfl := Option.some.inj hstep
    cases hcheck : checkCreate net name f with
    | none => exact h
    | some g =>
      exact h.finish fun table htable => h.sane.insertLlmPreset (checkCreate_suits hcheck) htable
  | delete rid name =>
    rw [PresetState.step] at hstep
    split_ifs at hstep
    obtain rfl := Option.some.inj hstep
    exact h.finish fun table htable => h.sane.deleteLlmPreset htable
  | start rid =>
    rw [PresetState.step] at hstep
    split_ifs at hstep
    obtain rfl := Option.some.inj hstep
    exact h.move fun _ _ _ hstage => by cases hstage
  | resync rid now version =>
    rw [PresetState.step] at hstep
    rw [allowed] at hallowed
    split at hstep
    · obtain rfl := Option.some.inj hstep
      cases hresync : (s.table.resync now (catalog version)).toOption with
      | none => exact h.close rid
      | some table =>
        have hmove : (s.move rid .synced).Inv net := h.move fun _ _ _ hstage => by cases hstage
        exact hmove.of_sane rfl (h.sane.resync hallowed (ok_of_toOption hresync))
    · cases hstep
  | load rid =>
    rw [PresetState.step] at hstep
    split at hstep
    · obtain rfl := Option.some.inj hstep
      have hmove : (s.move rid (.loaded (s.reads + 1) s.table.published)).Inv net :=
        h.move fun _ _ _ hstage => by cases hstage
      exact hmove.of_sane rfl h.sane
    · cases hstep
  | publish rid =>
    rw [PresetState.step] at hstep
    split at hstep
    · obtain rfl := Option.some.inj hstep
      split_ifs
      · exact (h.close rid).of_sane rfl h.sane
      · exact h.close rid
    · cases hstep
  | abandon rid =>
    rw [PresetState.step] at hstep
    split_ifs at hstep
    obtain rfl := Option.some.inj hstep
    exact h.close rid

end PresetState

/-- The tables before the first start. -/
def noPresets : PresetTable := { checked := rfl, referenced := rfl }

theorem noPresets_sane : noPresets.Sane net := by
  refine ⟨fun n hbelow => ?_, fun n m => PresetTable.intact, fun n r hr => by cases hr⟩
  obtain ⟨p, hp, -⟩ := hbelow.cases_tail
  cases hp

variable (net) in
/-- **The preset table stays sane** in every run in which each patch leaves the provider and the
endpoint that it was checked with, no re-sync leads a preset to another fallback, and the providers
that a re-sync pins suit the endpoints: the fallbacks run in no circle and lead to presets, and every
preset has an endpoint that suits its provider. -/
theorem presets_sane {catalog : ℕ → List PresetEntry} {s : PresetState}
    (h : (presetSystem net catalog { table := noPresets }).Reaches
      (fun s e => s.allowed net catalog e = true) s) : s.table.Sane net := by
  have hinv : (presetSystem net catalog { table := noPresets }).Invariant
      (fun s e => s.allowed net catalog e = true) (PresetState.Inv net) := {
    init := ⟨noPresets_sane, fun _ _ _ _ hlookup => by cases hlookup⟩
    step := fun hs hallowed hstep => hs.step hallowed hstep }
  exact (hinv.of_reaches h).sane

namespace Sample

/-- Two hosts: one at home, one elsewhere. -/
def twoHosts : Net where
  urlparse url :=
    if url = "http://home" then some ("http", "home")
    else if url = "https://away" then some ("https", "away")
    else none
  addresses host := if host = "home" then [{ isLoopback := true }] else [{}]

/-- A preset of a local server, which is elsewhere. -/
def localPreset : PresetFields :=
  { provider := "openai-compatible", concreteModel := "m", baseUrl := some "https://away" }

def toOpenai : UpdateLlmPresetRequest where
  sets := [.provider]
  fields := { localPreset with provider := "openai" }

def toHome : UpdateLlmPresetRequest where
  sets := [.baseUrl]
  fields := { localPreset with baseUrl := some "http://home" }

/-- The preset is made and gets another provider. -/
def onePatch : List PresetEvent :=
  [.create 0 0 "a" localPreset "admin", .resync 0 0 0, .check 1 "a" toOpenai, .write 1 1]

/-- Two patches at once. -/
def twoPatches : List PresetEvent :=
  [.create 0 0 "a" localPreset "admin", .check 1 "a" toOpenai, .check 2 "a" toHome, .write 1 1,
    .write 2 2]

end Sample

theorem presets_sane_one : ∃ s,
    (presetSystem Sample.twoHosts (fun _ => []) { table := noPresets }).run
      (PresetState.allowed Sample.twoHosts fun _ => []) { table := noPresets } Sample.onePatch =
        some s ∧
      (s.table.presets.lookup "a").map (fun r => r.fields.provider) = some "openai" ∧
      s.table.Sane Sample.twoHosts := by
  have hrun : ((presetSystem Sample.twoHosts (fun _ => []) { table := noPresets }).run
      (PresetState.allowed Sample.twoHosts fun _ => []) { table := noPresets } Sample.onePatch).map
      (fun s => (s.table.presets.lookup "a").map fun r => r.fields.provider) =
        some (some "openai") := by decide +kernel
  obtain ⟨s, hs, hprovider⟩ := Option.map_eq_some_iff.1 hrun
  exact ⟨s, hs, hprovider, presets_sane Sample.twoHosts (.of_run (fun _ _ h => h) hs)⟩

/-- **Two patches may meet** in a hosted provider with an endpoint at home. -/
theorem patches_meet : ¬ ∀ s, (presetSystem Sample.twoHosts (fun _ => [])
    { table := noPresets }).Reaches (fun _ _ => True) s → s.table.Sane Sample.twoHosts := by
  intro hall
  have hrun : ((presetSystem Sample.twoHosts (fun _ => []) { table := noPresets }).run
      (fun _ _ => true) { table := noPresets } Sample.twoPatches).map
      (fun s => (s.table.presets.lookup "a").map fun r =>
        checkProviderBaseUrlConsistency Sample.twoHosts r.fields.provider r.fields.baseUrl) =
        some (some false) := by decide +kernel
  obtain ⟨s, hs, hread⟩ := Option.map_eq_some_iff.1 hrun
  obtain ⟨r, hr, hfalse⟩ := Option.map_eq_some_iff.1 hread
  have htrue := (hall s (.of_run (fun _ _ _ => trivial) hs)).policy "a" r hr
  exact absurd (hfalse.symm.trans htrue) (by decide)

end Backplane
