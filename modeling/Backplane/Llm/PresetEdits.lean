import Backplane.Llm.PresetRequests

/-!
# Edits of presets take effect

When no request is in progress, the published presets are those of the table, and both are what the
requests have asked for since the worker started.  A reload applies the catalogue again, so an edit
of what the catalogue decides does not last; and a slow reload may publish what it read long ago.

* `PresetState.Shown` : what is to hold.
* `PresetState.keeps` : requests leave alone what the catalogue decides, and reloads publish in the
  order in which they read.
* `preset_edits_shown` : in every run of such steps it holds.
-/

namespace Backplane

variable (net : Net) (catalog : ℕ → List PresetEntry)

/-- A worker that has loaded the presets. -/
def PresetState.started (svc : LlmService) (table : PresetTable) : PresetState :=
  { table, svc, asked := table.published }

/-- The table is what the requests have asked for, and it is published when none is in progress. -/
structure PresetState.Shown (s : PresetState) : Prop where
  asked : ∀ n, s.asked.lookup n = (s.table.presets.lookup n).map PresetRow.fields
  published : (∀ rid, s.requests.lookup rid = none) → s.svc.presets = s.table.published

/-! ### What may happen -/

/-- The columns of a preset that the catalogue pins. -/
def pinnedColumns (catalog : List PresetEntry) (n : String) (sets : List PresetColumn) :
    List PresetColumn :=
  sets.filter fun c => (pinning catalog n c).isSome

/-- The patch leaves the pinned columns of a managed preset as they are. -/
def PresetTable.patchKeeps (s : PresetTable) (catalog : List PresetEntry) (n : String)
    (p : PresetPatch) : Bool :=
  (s.presets.lookup n).all fun r => !r.managed ||
    p.fields.overwrite (pinnedColumns catalog n p.sets) r.fields = r.fields

/-- The catalogue neither lists the preset nor leads a managed one to it. -/
def PresetTable.deleteKeeps (s : PresetTable) (catalog : List PresetEntry) (n : String) : Bool :=
  catalog.all fun p => p.name ≠ n && !((s.presets.lookup p.name).any PresetRow.managed &&
    .fallbackPreset ∈ p.pinned && p.fields.fallbackPreset = some n)

/-- The event may happen: it leaves alone what the catalogue decides, and the presets that are
published are not older than those that are there. -/
def PresetState.keeps (s : PresetState) : PresetEvent → Bool
  | .write rid _ => (s.requests.lookup rid).all fun stage => match stage with
    | .checked name patch _ => s.table.patchKeeps (catalog 0) name patch
    | _ => true
  | .delete _ name => s.table.deleteKeeps (catalog 0) name
  | .resync _ _ version => version = 0
  | .publish rid => (s.requests.lookup rid).all fun stage => match stage with
    | .loaded number _ => s.shown < number
    | _ => true
  | .abandon rid => (s.requests.lookup rid).all fun stage => match stage with
    | .checked _ _ _ => true
    | _ => false
  | _ => true

variable {net catalog} {entries : List PresetEntry} {s s' : PresetTable} {now : ℕ} {n : String}
  {f : PresetFields} {patch : PresetPatch} {r : PresetRow}

/-! ### What the catalogue decides -/

theorem PresetFields.overwrite_nil {g : PresetFields} : overwrite [] f g = g :=
  ext_get fun c => by rw [get_overwrite, if_neg List.not_mem_nil]

theorem PresetTable.fields_patchRow :
    (patchRow now patch r).fields = patch.fields.overwrite patch.sets r.fields := by
  rw [patchRow]
  split_ifs with hsets
  · rw [hsets, PresetFields.overwrite_nil]
  · rfl

theorem PresetTable.managed_patchRow : (patchRow now patch r).managed = r.managed := by
  rw [patchRow]
  split_ifs <;> rfl

theorem PresetRow.fields_detach {gone : String → Bool} : (r.detach gone).fields =
    { r.fields with fallbackPreset := r.fields.fallbackPreset.filter fun g => !gone g } := by
  refine PresetFields.ext_get fun c => ?_
  by_cases hc : c = .fallbackPreset
  · subst hc
    exact detach_fallback
  · rw [get_detach hc]
    cases c <;> first | rfl | exact absurd rfl hc

/-- Rows are kept or new, and the pinned columns of those that are kept are as they were. -/
theorem PresetTable.InStep.of_rows (h : s.InStep entries) (hkeeps : s.Keeps s')
    (hrows : ∀ n r', s'.presets.lookup n = some r' → r'.managed = true →
      ∃ r, s.presets.lookup n = some r ∧ r.managed = true ∧
        ∀ c p, pinning entries n c = some p → r'.fields.get c = r.fields.get c) :
    s'.InStep entries := by
  refine ⟨fun p hp => (h.applied p hp).mono hkeeps, fun n r' c p hr' hm hpin => ?_,
    fun n r' hr' hm => ?_⟩
  · obtain ⟨r, hr, hmanaged, hsame⟩ := hrows n r' hr' hm
    exact (hsame c p hpin).trans (h.pinned n r c p hr hmanaged hpin)
  · obtain ⟨r, hr, hmanaged, -⟩ := hrows n r' hr' hm
    exact h.listed n r hr hmanaged

/-- A patch that keeps what the catalogue decides. -/
theorem PresetTable.InStep.updateLlmPreset (h : s.InStep entries)
    (hkeeps : s.patchKeeps entries n patch = true)
    (hs : s.updateLlmPreset now n patch = some s') : s'.InStep entries ∧
      fallbacksEnd s'.published = true ∧ ∀ x, s'.presets.lookup x =
        if x = n then (s.presets.lookup n).map (patchRow now patch) else s.presets.lookup x := by
  rw [PresetTable.updateLlmPreset] at hs
  split_ifs at hs
  obtain ⟨hsettle, hends⟩ := Option.filter_eq_some_iff.1 hs
  have hlookup : ∀ x, s'.presets.lookup x =
      if x = n then (s.presets.lookup n).map (patchRow now patch) else s.presets.lookup x := by
    intro x
    rw [congrArg PresetRows.presets (PresetRows.settle_ok (ok_of_toOption hsettle))]
    exact Table.lookup_update ..
  refine ⟨h.of_rows (fun x r hr => ?_) fun x r' hr' hm => ?_, hends, hlookup⟩
  · rw [hlookup]
    split_ifs with hx
    · rw [← hx, hr]
      exact ⟨_, rfl, managed_patchRow⟩
    · exact ⟨r, hr, rfl⟩
  · rw [hlookup] at hr'
    split_ifs at hr' with hx
    · obtain ⟨r, hr, rfl⟩ := Option.map_eq_some_iff.1 hr'
      rw [managed_patchRow] at hm
      refine ⟨r, hx ▸ hr, hm, fun c p hp => ?_⟩
      rw [patchKeeps, hr, Option.all_some, hm, Bool.not_true, Bool.false_or] at hkeeps
      rw [fields_patchRow, PresetFields.get_overwrite]
      split_ifs with hc
      · have hpinned : c ∈ pinnedColumns entries n patch.sets :=
          List.mem_filter.2 ⟨hc, by rw [← hx, hp]; rfl⟩
        have hget := congrArg (fun g => PresetFields.get g c) (of_decide_eq_true hkeeps)
        rw [PresetFields.get_overwrite, if_pos hpinned] at hget
        exact hget
      · rfl
    · exact ⟨r', hr', hm, fun _ _ _ => rfl⟩

theorem PresetTable.InStep.insertLlmPreset {admin : UserId} (h : s.InStep entries)
    (hs : s.insertLlmPreset now n f admin = some s') : s'.InStep entries ∧
      fallbacksEnd s'.published = true ∧ ∀ x, s'.presets.lookup x =
        if x = n then some (newRow now f admin) else s.presets.lookup x := by
  rw [PresetTable.insertLlmPreset] at hs
  split_ifs at hs with hsome
  obtain ⟨hsettle, hends⟩ := Option.filter_eq_some_iff.1 hs
  have hlookup : ∀ x, s'.presets.lookup x =
      if x = n then some (newRow now f admin) else s.presets.lookup x := by
    intro x
    rw [congrArg PresetRows.presets (PresetRows.settle_ok (ok_of_toOption hsettle))]
    exact Table.lookup_insert ..
  refine ⟨h.of_rows (fun x r hr => ?_) fun x r' hr' hm => ?_, hends, hlookup⟩
  · rw [hlookup, if_neg fun hx => hsome (by rw [← hx, hr]; rfl)]
    exact ⟨r, hr, rfl⟩
  · rw [hlookup] at hr'
    split_ifs at hr' with hx
    · rw [← Option.some.inj hr'] at hm
      cases hm
    · exact ⟨r', hr', hm, fun _ _ _ => rfl⟩

/-- A preset is deleted that the catalogue does not need. -/
theorem PresetTable.InStep.deleteLlmPreset (h : s.InStep entries)
    (hkeeps : s.deleteKeeps entries n = true) (hs : s.deleteLlmPreset n = some s') :
    s'.InStep entries ∧ ∀ x, s'.presets.lookup x =
      (if x = n then none else s.presets.lookup x).map (PresetRow.detach fun y => y = n) := by
  rw [PresetTable.deleteLlmPreset] at hs
  split_ifs at hs
  have hlookup : ∀ x, s'.presets.lookup x =
      (if x = n then none else s.presets.lookup x).map (PresetRow.detach fun y => y = n) := by
    intro x
    rw [congrArg PresetRows.presets (PresetRows.settle_ok (ok_of_toOption hs)), Table.lookup_mapRows]
    split_ifs with hx
    · rw [hx, AList.lookup_erase]
    · rw [AList.lookup_erase_ne hx]
  have hkeep : ∀ p ∈ entries, p.name ≠ n ∧ (∀ r, s.presets.lookup p.name = some r →
      r.managed = true → .fallbackPreset ∈ p.pinned → p.fields.fallbackPreset ≠ some n) := by
    intro p hp
    obtain ⟨hne, hfallback⟩ := Bool.and_eq_true_iff.1 (List.all_eq_true.1 hkeeps p hp)
    refine ⟨of_decide_eq_true hne, fun r hr hm hpin hf => ?_⟩
    simp [hr, hm, hpin, hf] at hfallback
  refine ⟨⟨fun p hp => ?_, fun x r' c p hr' hm hpin => ?_, fun x r' hr' hm => ?_⟩, hlookup⟩
  · obtain ⟨hname, hcheck, r, hr, hreference⟩ := h.applied p hp
    obtain ⟨hne, hfallback⟩ := hkeep p hp
    refine ⟨hname, hcheck, r.detach _, by rw [hlookup, if_neg hne, hr]; rfl, fun hm hpin g hg => ?_⟩
    rw [PresetRow.detach_managed] at hm
    rw [hlookup, if_neg fun hgn : g = n => hfallback r hr hm hpin (hgn ▸ hg)]
    simpa using hreference hm hpin g hg
  · rw [hlookup] at hr'
    obtain ⟨r, hr, rfl⟩ := Option.map_eq_some_iff.1 hr'
    split_ifs at hr
    rw [PresetRow.detach_managed] at hm
    have hsame := h.pinned x r c p hr hm hpin
    by_cases hc : c = .fallbackPreset
    · obtain ⟨hmem, hname⟩ := List.mem_filter.1 (List.mem_of_getLast? hpin)
      obtain ⟨hentry, hx⟩ := List.mem_filter.1 hmem
      have hx : p.name = x := of_decide_eq_true hx
      subst hc hx
      rw [← hsame]
      change (r.detach _).fields.fallbackPreset = r.fields.fallbackPreset
      rw [PresetRow.detach_fallback]
      have hne := (hkeep p hentry).2 r hr hm (of_decide_eq_true hname)
      cases hg : r.fields.fallbackPreset with
      | none => rfl
      | some g =>
        have hg' : p.fields.fallbackPreset = some g := hsame.symm.trans hg
        have hgn : g ≠ n := fun hgn => hne (hgn ▸ hg')
        simp [Option.filter, hgn]
    · rw [PresetRow.get_detach hc]
      exact hsame
  · rw [hlookup] at hr'
    obtain ⟨r, hr, rfl⟩ := Option.map_eq_some_iff.1 hr'
    split_ifs at hr
    rw [PresetRow.detach_managed] at hm
    exact h.listed x r hr hm

/-! ### The requests -/

/-- Where the newest presets are: still to be read, read and not yet published, or published. -/
inductive PresetState.Current (s : PresetState) : Prop
  /-- A reload is still to read them. -/
  | unread (rid : ℕ)
      (h : s.requests.lookup rid = some .written ∨ s.requests.lookup rid = some .synced)
  /-- The newest read has them. -/
  | read (rid number : ℕ) (h : s.requests.lookup rid = some (.loaded number s.table.published))
      (hshown : s.shown < number)
      (hnewest : ∀ rid' number' rows, s.requests.lookup rid' = some (.loaded number' rows) →
        rid' ≠ rid → number' < number)
  /-- They are published, and no other reload has read anything else since. -/
  | shown (h : s.svc.presets = s.table.published)
      (hothers : ∀ rid number rows, s.requests.lookup rid = some (.loaded number rows) →
        s.shown < number → rows = s.table.published)

/-- The invariant. -/
structure PresetState.Settled (s : PresetState) (entries : List PresetEntry) : Prop where
  /-- The table is what was asked for. -/
  asked : ∀ n, s.asked.lookup n = (s.table.presets.lookup n).map PresetRow.fields
  /-- The catalogue changes nothing. -/
  inStep : s.table.InStep entries
  /-- The fallbacks run in no circle. -/
  ends : fallbacksEnd s.table.published = true
  /-- Reads are numbered, and what they read runs in no circle. -/
  reads : ∀ rid number rows, s.requests.lookup rid = some (.loaded number rows) →
    number ≤ s.reads ∧ fallbacksEnd rows = true
  /-- What is published was read. -/
  shown : s.shown ≤ s.reads
  current : s.Current

namespace PresetState

variable {s s' : PresetState} {rid : ℕ} {stage : PresetStage} {e : PresetEvent}
  {asked : Table String PresetFields}

theorem lookup_move {rid' : ℕ} : (s.move rid stage).requests.lookup rid' =
    if rid' = rid then some stage else s.requests.lookup rid' :=
  Table.lookup_insert ..

theorem lookup_close {rid' : ℕ} : (s.close rid).requests.lookup rid' =
    if rid' = rid then none else s.requests.lookup rid' := by
  split_ifs with h
  · rw [h]
    exact AList.lookup_erase ..
  · exact AList.lookup_erase_ne h

/-- A request that has not written yet, or is not there. -/
def Early (s : PresetState) (rid : ℕ) : Prop :=
  ∀ stage, s.requests.lookup rid = some stage → ∃ name patch seen, stage = .checked name patch seen

theorem Early.ne_loaded (h : s.Early rid) {rid' number : ℕ} {rows : Table String PresetFields}
    (hlookup : s.requests.lookup rid' = some (.loaded number rows)) : rid' ≠ rid := by
  rintro rfl
  obtain ⟨_, _, _, hstage⟩ := h _ hlookup
  cases hstage

/-- A request that has not written yet may end or be checked. -/
theorem Settled.of_early {entries : List PresetEntry} {requests : Table ℕ PresetStage}
    (h : s.Settled entries) (hearly : s.Early rid)
    (hsame : ∀ rid', rid' ≠ rid → requests.lookup rid' = s.requests.lookup rid')
    (hnew : Early { s with requests } rid) : Settled { s with requests } entries := by
  have hloaded : ∀ rid' number rows, requests.lookup rid' = some (.loaded number rows) →
      s.requests.lookup rid' = some (.loaded number rows) :=
    fun rid' number rows hlookup => (hsame rid' (hnew.ne_loaded hlookup)).symm.trans hlookup
  refine ⟨h.asked, h.inStep, h.ends, fun rid' number rows hlookup =>
    h.reads rid' number rows (hloaded _ _ _ hlookup), h.shown, ?_⟩
  rcases h.current with ⟨rid', hunread⟩ | ⟨rid', number, hread, hshown, hnewest⟩ | ⟨hshown, hothers⟩
  · refine .unread rid' ?_
    have hne : rid' ≠ rid := by
      rintro rfl
      obtain ⟨stage, hstage, hne⟩ : ∃ stage, s.requests.lookup rid' = some stage ∧
          ∀ name patch seen, stage ≠ .checked name patch seen :=
        hunread.elim (fun h => ⟨_, h, fun _ _ _ h => by cases h⟩) fun h =>
          ⟨_, h, fun _ _ _ h => by cases h⟩
      obtain ⟨name, patch, seen, hchecked⟩ := hearly stage hstage
      exact hne name patch seen hchecked
    change requests.lookup rid' = _ ∨ requests.lookup rid' = _
    rwa [hsame rid' hne]
  · exact .read rid' number ((hsame rid' (hearly.ne_loaded hread)).trans hread) hshown
      fun rid'' number' rows hlookup => hnewest rid'' number' rows (hloaded _ _ _ hlookup)
  · exact .shown hshown fun rid' number rows hlookup =>
      hothers rid' number rows (hloaded _ _ _ hlookup)

theorem Settled.close_early {entries : List PresetEntry} (h : s.Settled entries)
    (hearly : s.Early rid) : (s.close rid).Settled entries := by
  refine h.of_early hearly (fun rid' hne => AList.lookup_erase_ne hne) fun stage hstage => ?_
  rw [AList.lookup_erase] at hstage
  cases hstage

/-- A request has written: its reload is still to read the table. -/
theorem Settled.written {entries : List PresetEntry} {table : PresetTable} (h : s.Settled entries)
    (hasked : ∀ n, asked.lookup n = (table.presets.lookup n).map PresetRow.fields)
    (hinStep : table.InStep entries) (hends : fallbacksEnd table.published = true) :
    Settled { s.move rid .written with table, asked } entries := by
  refine ⟨hasked, hinStep, hends, fun rid' number rows hlookup => ?_, h.shown, .unread rid (.inl ?_)⟩
  · rw [lookup_move] at hlookup
    split_ifs at hlookup
    · cases hlookup
    · exact h.reads rid' number rows hlookup
  · exact lookup_move.trans (if_pos rfl)

/-- A reload applies the catalogue, which changes nothing. -/
theorem Settled.resync {entries : List PresetEntry} {table : PresetTable} (h : s.Settled entries)
    (hwritten : s.requests.lookup rid = some .written)
    (hrows : ∀ n, table.presets.lookup n = (s.table.presets.lookup n).map (PresetRow.touch now)) :
    Settled { s.move rid .synced with table } entries := by
  have hfields : ∀ n, (table.presets.lookup n).map PresetRow.fields =
      (s.table.presets.lookup n).map PresetRow.fields := by
    intro n
    rw [hrows n, Option.map_map]
    exact congrArg (fun g => (s.table.presets.lookup n).map g) (funext fun r => PresetRow.touch_fields)
  have hpublished : table.published = s.table.published := PresetTable.published_congr hfields
  have hmanaged : ∀ r : PresetRow, (r.touch now).managed = r.managed := by
    intro r
    rw [PresetRow.touch]
    split_ifs <;> rfl
  have hloaded : ∀ rid' number rows, (s.move rid .synced).requests.lookup rid' =
      some (.loaded number rows) ↔ s.requests.lookup rid' = some (.loaded number rows) := by
    intro rid' number rows
    rw [lookup_move]
    split_ifs with hrid
    · rw [hrid, hwritten]
      exact ⟨fun h => (by cases h), fun h => (by cases h)⟩
    · rfl
  refine ⟨fun n => (h.asked n).trans (hfields n).symm, h.inStep.of_rows (fun n r hr => ?_)
    fun n r' hr' hm => ?_, hpublished ▸ h.ends, fun rid' number rows hlookup =>
    h.reads rid' number rows ((hloaded rid' number rows).1 hlookup), h.shown,
    .unread rid (.inr (lookup_move.trans (if_pos rfl)))⟩
  · rw [hrows, hr]
    exact ⟨_, rfl, hmanaged r⟩
  · rw [hrows] at hr'
    obtain ⟨r, hr, rfl⟩ := Option.map_eq_some_iff.1 hr'
    exact ⟨r, hr, (hmanaged r).symm.trans hm, fun c _ _ => by rw [PresetRow.touch_fields]⟩

theorem Settled.load {entries : List PresetEntry} (h : s.Settled entries) :
    Settled { s.move rid (.loaded (s.reads + 1) s.table.published) with reads := s.reads + 1 }
      entries := by
  have hloaded : ∀ rid' number rows, rid' ≠ rid →
      (s.move rid (.loaded (s.reads + 1) s.table.published)).requests.lookup rid' =
        some (.loaded number rows) → s.requests.lookup rid' = some (.loaded number rows) :=
    fun rid' number rows hne hlookup => (lookup_move.trans (if_neg hne)).symm.trans hlookup
  have hself : (s.move rid (.loaded (s.reads + 1) s.table.published)).requests.lookup rid =
      some (.loaded (s.reads + 1) s.table.published) := lookup_move.trans (if_pos rfl)
  refine ⟨h.asked, h.inStep, h.ends, fun rid' number rows hlookup => ?_, Nat.le_succ_of_le h.shown,
    .read rid _ hself (Nat.lt_succ_of_le h.shown) fun rid' number' rows hlookup hne => ?_⟩
  · by_cases hrid : rid' = rid
    · rw [hrid] at hlookup
      obtain ⟨rfl, rfl⟩ := PresetStage.loaded.inj (Option.some.inj (hself.symm.trans hlookup))
      exact ⟨le_rfl, h.ends⟩
    · obtain ⟨hle, hends⟩ := h.reads rid' number rows (hloaded rid' number rows hrid hlookup)
      exact ⟨Nat.le_succ_of_le hle, hends⟩
  · exact Nat.lt_succ_of_le (h.reads rid' number' rows (hloaded rid' number' rows hne hlookup)).1

theorem Settled.publish {entries : List PresetEntry} {number : ℕ} {rows : Table String PresetFields}
    (h : s.Settled entries) (hlookup : s.requests.lookup rid = some (.loaded number rows))
    (hnewer : s.shown < number) :
    Settled { s.close rid with svc := ⟨rows⟩, shown := number } entries := by
  have hloaded : ∀ rid' stage, (s.close rid).requests.lookup rid' = some stage →
      rid' ≠ rid ∧ s.requests.lookup rid' = some stage :=
    fun rid' stage hlookup' => Table.lookup_of_erase hlookup'
  refine ⟨h.asked, h.inStep, h.ends, fun rid' number' rows' hlookup' =>
    h.reads rid' number' rows' (hloaded _ _ hlookup').2, (h.reads rid number rows hlookup).1, ?_⟩
  rcases h.current with ⟨rid', hunread⟩ | ⟨rid', number', hread, hshown, hnewest⟩ | ⟨hshown, hothers⟩
  · have hne : rid' ≠ rid := by
      rintro rfl
      rw [hlookup] at hunread
      rcases hunread with hunread | hunread <;> cases hunread
    refine .unread rid' ?_
    change (s.close rid).requests.lookup rid' = _ ∨ (s.close rid).requests.lookup rid' = _
    rwa [lookup_close, if_neg hne]
  · by_cases hrid : rid' = rid
    -- It is the newest read that is published.
    · rw [hrid, hlookup] at hread
      obtain ⟨rfl, rfl⟩ := PresetStage.loaded.inj (Option.some.inj hread)
      refine .shown rfl fun rid'' number'' rows hlookup'' hlt => ?_
      obtain ⟨hne, hlookup''⟩ := hloaded _ _ hlookup''
      have := hnewest rid'' number'' rows hlookup'' (hrid ▸ hne)
      change number < number'' at hlt
      omega
    · refine .read rid' number' (lookup_close.trans ((if_neg hrid).trans hread))
        (hnewest rid number rows hlookup fun h => hrid h.symm) fun rid'' number'' rows'' hlookup'' =>
          hnewest rid'' number'' rows'' (hloaded _ _ hlookup'').2
  · refine .shown (hothers rid number rows hlookup hnewer) fun rid'' number'' rows'' hlookup'' hlt => ?_
    exact hothers rid'' number'' rows'' (hloaded _ _ hlookup'').2 (hnewer.trans hlt)

theorem early_of_none (h : ¬ (s.requests.lookup rid).isSome = true) : s.Early rid := by
  intro stage hstage
  rw [hstage] at h
  exact absurd rfl h

theorem Settled.finish_none {entries : List PresetEntry} (h : s.Settled entries)
    (hearly : s.Early rid) : (s.finish rid asked none).Settled entries :=
  h.close_early hearly

/-- **The invariant is kept** by the events that may happen. -/
theorem Settled.step (h : s.Settled (catalog 0)) (hkeeps : s.keeps catalog e = true)
    (hstep : s.step net catalog e = some s') : s'.Settled (catalog 0) := by
  cases e with
  | check rid name req =>
    rw [PresetState.step] at hstep
    split_ifs at hstep with hnone
    obtain rfl := Option.some.inj hstep
    cases s.table.checkUpdate net name req with
    | none => exact h
    | some x =>
      refine h.of_early (early_of_none hnone) (fun rid' hne => lookup_move.trans (if_neg hne))
        fun stage hstage => ?_
      obtain rfl := Option.some.inj ((lookup_move.trans (if_pos rfl)).symm.trans hstage)
      exact ⟨_, _, _, rfl⟩
  | write rid now =>
    rw [PresetState.step] at hstep
    rw [keeps] at hkeeps
    split at hstep
    · next name patch seen hlookup =>
      obtain rfl := Option.some.inj hstep
      rw [hlookup] at hkeeps
      cases hs : s.table.updateLlmPreset now name patch with
      | none =>
        refine h.finish_none fun stage hstage => ?_
        exact ⟨name, patch, seen, Option.some.inj (hstage.symm.trans hlookup)⟩
      | some table =>
        obtain ⟨hinStep, hends, hrows⟩ := h.inStep.updateLlmPreset hkeeps hs
        refine h.written (fun n => ?_) hinStep hends
        rw [Table.lookup_update, hrows]
        split_ifs with hn
        · rw [h.asked, Option.map_map, Option.map_map]
          exact congrArg (fun g => (s.table.presets.lookup name).map g)
            (funext fun r => PresetTable.fields_patchRow.symm)
        · exact h.asked n
    · cases hstep
  | create rid now name f admin =>
    rw [PresetState.step] at hstep
    split_ifs at hstep with hnone
    obtain rfl := Option.some.inj hstep
    cases checkCreate net name f with
    | none => exact h
    | some g =>
      dsimp only
      cases hs : s.table.insertLlmPreset now name g admin with
      | none => exact h.finish_none (early_of_none hnone)
      | some table =>
        obtain ⟨hinStep, hends, hrows⟩ := h.inStep.insertLlmPreset hs
        refine h.written (fun n => ?_) hinStep hends
        rw [Table.lookup_insert, hrows]
        split_ifs
        · rfl
        · exact h.asked n
  | delete rid name =>
    rw [PresetState.step] at hstep
    split_ifs at hstep with hnone
    obtain rfl := Option.some.inj hstep
    cases hs : s.table.deleteLlmPreset name with
    | none => exact h.finish_none (early_of_none hnone)
    | some table =>
      obtain ⟨hinStep, hrows⟩ := h.inStep.deleteLlmPreset hkeeps hs
      refine h.written (fun n => ?_) hinStep (fallbacksEnd_iff.2 ?_)
      · rw [Table.lookup_mapRows, hrows, Option.map_map]
        by_cases hn : n = name
        · rw [hn, AList.lookup_erase, if_pos rfl]
          rfl
        · rw [AList.lookup_erase_ne hn, h.asked, if_neg hn, Option.map_map]
          refine congrArg (fun g => (s.table.presets.lookup n).map g) (funext fun r => ?_)
          rw [Function.comp, Function.comp, PresetRow.fields_detach]
          simp only [ne_eq, decide_not]
      -- Fallbacks are only dropped.
      · have hends := fallbacksEnd_iff.1 h.ends
        rw [PresetTable.fallbackOf_published] at hends ⊢
        refine hends.of_le fun x m hm => ?_
        obtain ⟨r', hr', hm⟩ := Option.bind_eq_some_iff.1 hm
        rw [hrows] at hr'
        obtain ⟨r, hr, rfl⟩ := Option.map_eq_some_iff.1 hr'
        split_ifs at hr
        rw [PresetRow.detach_fallback] at hm
        rw [PresetTable.fallback, hr]
        exact (Option.filter_eq_some_iff.1 hm).1
  | start rid =>
    rw [PresetState.step] at hstep
    split_ifs at hstep
    obtain rfl := Option.some.inj hstep
    exact h.written h.asked h.inStep h.ends
  | resync rid now version =>
    rw [PresetState.step] at hstep
    obtain rfl : version = 0 := of_decide_eq_true hkeeps
    split at hstep
    · next hlookup =>
      obtain rfl := Option.some.inj hstep
      obtain ⟨table, hok, -, hrows⟩ := h.inStep.resync now
      rw [hok]
      exact h.resync hlookup hrows
    · cases hstep
  | load rid =>
    rw [PresetState.step] at hstep
    split at hstep
    · obtain rfl := Option.some.inj hstep
      exact h.load
    · cases hstep
  | publish rid =>
    rw [PresetState.step] at hstep
    rw [keeps] at hkeeps
    split at hstep
    · next number rows hlookup =>
      obtain rfl := Option.some.inj hstep
      rw [hlookup] at hkeeps
      rw [if_pos (h.reads rid number rows hlookup).2]
      exact h.publish hlookup (of_decide_eq_true hkeeps)
    · cases hstep
  | abandon rid =>
    rw [PresetState.step] at hstep
    rw [keeps] at hkeeps
    split_ifs at hstep with hsome
    obtain rfl := Option.some.inj hstep
    refine h.close_early fun stage hstage => ?_
    rw [hstage] at hkeeps
    cases stage with
    | checked name patch seen => exact ⟨name, patch, seen, rfl⟩
    | _ => cases hkeeps

end PresetState

variable (net catalog) in
/-- **Edits take effect** in every run in which requests leave alone what the catalogue decides, no
reload fails and reloads publish in the order in which they read: the table is what the requests have
asked for, and it is published when no request is in progress. -/
theorem preset_edits_shown {base table : PresetTable} {svc : LlmService} {k : ℕ}
    (hstart : ({} : LlmService).loadPresetsFromDb base now (catalog 0) = .ok (svc, table, k))
    (hends : fallbacksEnd table.published = true) {s : PresetState}
    (h : (presetSystem net catalog (.started svc table)).Reaches
      (fun s e => s.keeps catalog e = true) s) : s.Shown := by
  obtain ⟨hresync, hanswer⟩ := loadPresetsFromDb_ok.1 hstart
  rw [if_pos hends] at hanswer
  have hsvc : svc.presets = table.published := by rw [(Prod.mk.inj hanswer).1]
  have hinv : (presetSystem net catalog (.started svc table)).Invariant
      (fun s e => s.keeps catalog e = true) (fun s => s.Settled (catalog 0)) := {
    init := ⟨table.lookup_published, inStep_of_resync hresync, hends,
      fun _ _ _ hlookup => (by cases hlookup), le_rfl,
      .shown hsvc fun _ _ _ hlookup => (by cases hlookup)⟩
    step := fun hs hkeeps hstep => hs.step hkeeps hstep }
  have hsettled := hinv.of_reaches h
  refine ⟨hsettled.asked, fun hnone => ?_⟩
  rcases hsettled.current with ⟨rid, hunread⟩ | ⟨rid, number, hread, -, -⟩ | ⟨hshown, -⟩
  · rw [hnone rid] at hunread
    rcases hunread with hunread | hunread <;> cases hunread
  · rw [hnone rid] at hread
    cases hread
  · exact hshown

namespace Sample

/-- Any host. -/
def anyHost : Net where
  urlparse url := some ("https", url)
  addresses _ := [{}]

def adminPreset : PresetFields := { provider := "gemini", concreteModel := "m" }

/-- Another description, or another model. -/
def describe : UpdateLlmPresetRequest where
  sets := [.description]
  fields := { adminPreset with description := some "mine" }

/-- Another provider. -/
def repoint : UpdateLlmPresetRequest where
  sets := [.provider]
  fields := adminPreset

/-- A preset is made and a managed one is described. -/
def edits : List PresetEvent :=
  [.create 0 3 "new" adminPreset "admin", .resync 0 3 0, .check 1 "old" describe, .write 1 4, .load 0,
    .resync 1 4 0, .publish 0, .load 1, .publish 1]

/-- A managed preset gets another provider. -/
def repointed : List PresetEvent :=
  [.check 0 "old" repoint, .write 0 3, .resync 0 3 0, .load 0, .publish 0]

end Sample

theorem preset_edits_shown_described : ∃ svc table k,
    ({} : LlmService).loadPresetsFromDb Sample.prunedPresets 2 Sample.baseCatalog =
      .ok (svc, table, k) ∧ fallbacksEnd table.published = true ∧ ∃ s,
        (presetSystem Sample.anyHost (fun _ => Sample.baseCatalog) (.started svc table)).run
          (PresetState.keeps fun _ => Sample.baseCatalog) (.started svc table) Sample.edits = some s ∧
        (s.svc.presets.lookup "old").map (fun f => f.description) = some (some "mine") ∧ s.Shown := by
  have hstart : (({} : LlmService).loadPresetsFromDb Sample.prunedPresets 2
      Sample.baseCatalog).toOption.map (fun x => (fallbacksEnd x.2.1.published,
        ((presetSystem Sample.anyHost (fun _ => Sample.baseCatalog) (.started x.1 x.2.1)).run
          (PresetState.keeps fun _ => Sample.baseCatalog) (.started x.1 x.2.1) Sample.edits).map
          fun s => (s.svc.presets.lookup "old").map fun f => f.description)) =
        some (true, some (some (some "mine"))) := by decide +kernel
  obtain ⟨⟨svc, table, k⟩, hload, hread⟩ := Option.map_eq_some_iff.1 hstart
  obtain ⟨hends, hread⟩ := Prod.mk.inj hread
  obtain ⟨s, hs, hold⟩ := Option.map_eq_some_iff.1 hread
  have hok := ok_of_toOption hload
  exact ⟨svc, table, k, hok, hends, s, hs, hold, preset_edits_shown Sample.anyHost
    (fun _ => Sample.baseCatalog) hok hends (.of_run (fun _ _ h => h) hs)⟩

/-- **The catalogue undoes an edit** of what it pins, as soon as the edit is reloaded. -/
theorem edit_undone : ¬ ∀ (base table : PresetTable) (svc : LlmService) (k : ℕ),
    ({} : LlmService).loadPresetsFromDb base 2 Sample.baseCatalog = .ok (svc, table, k) →
      fallbacksEnd table.published = true → ∀ s,
        (presetSystem Sample.anyHost (fun _ => Sample.baseCatalog) (.started svc table)).Reaches
          (fun _ _ => True) s → s.Shown := by
  intro hall
  have hstart : (({} : LlmService).loadPresetsFromDb Sample.prunedPresets 2
      Sample.baseCatalog).toOption.map (fun x => (fallbacksEnd x.2.1.published,
        ((presetSystem Sample.anyHost (fun _ => Sample.baseCatalog) (.started x.1 x.2.1)).run
          (fun _ _ => true) (.started x.1 x.2.1) Sample.repointed).map
          fun s => ((s.asked.lookup "old").map (fun f => f.provider),
            (s.table.presets.lookup "old").map fun r => r.fields.provider))) =
        some (true, some (some "gemini", some "openai")) := by decide +kernel
  obtain ⟨⟨svc, table, k⟩, hload, hread⟩ := Option.map_eq_some_iff.1 hstart
  obtain ⟨hends, hread⟩ := Prod.mk.inj hread
  obtain ⟨s, hs, hold⟩ := Option.map_eq_some_iff.1 hread
  obtain ⟨hasked, htable⟩ := Prod.mk.inj hold
  have hshown := hall _ table svc k (ok_of_toOption hload) hends s
    (.of_run (fun _ _ _ => trivial) hs)
  rw [hshown.asked "old", Option.map_map] at hasked
  have hsame := hasked.symm.trans htable
  exact absurd hsame (by decide)

end Backplane
