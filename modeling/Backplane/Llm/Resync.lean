import Backplane.Llm.Presets
import Mathlib.Data.List.Induction

/-!
# A re-sync of the preset catalogue

What is left in `llm_presets` when the catalogue has been applied: the rows an admin made, and one row
for each other name of the catalogue, with the columns that are pinned.

* `pinning catalog n c` : the entry that decides column `c` of preset `n`.
* `resyncRow` : what the entries of a name do to its row.
* `PresetTable.Applied` : what an upsert that succeeded says about its entry.
* `Resynced` : the property of a re-sync.
* `presets_resynced` : every re-sync that does not raise has it, and doing it again changes nothing
  but the time of the last write.
* `admin_row_detached` : a row that an admin made loses its reference to a preset that is pruned.
-/

namespace Backplane

variable {catalog : List PresetEntry} {p : PresetEntry} {n : String} {c : PresetColumn}
  {s s' s'' : PresetTable} {now now' : ℕ} {r r' : PresetRow} {o : Option PresetRow}

/-- The entries of a name. -/
def named (catalog : List PresetEntry) (n : String) : List PresetEntry :=
  catalog.filter fun p => p.name = n

/-- The last entry of a name that pins the column. -/
def pinning (catalog : List PresetEntry) (n : String) (c : PresetColumn) : Option PresetEntry :=
  ((named catalog n).filter fun p => c ∈ p.pinned).getLast?

/-! ### One row -/

/-- What the entries of a name make of its row. -/
def resyncRow (now : ℕ) (entries : List PresetEntry) (o : Option PresetRow) : Option PresetRow :=
  entries.foldl (fun o p => some (p.upsertRow now o)) o

theorem resyncRow_concat {entries : List PresetEntry} :
    resyncRow now (entries ++ [p]) o = some (p.upsertRow now (resyncRow now entries o)) := by
  rw [resyncRow, List.foldl_append, List.foldl_cons, List.foldl_nil, resyncRow]

/-- A row that an admin made is left alone. -/
theorem resyncRow_created {entries : List PresetEntry} (hr : r.managed = false) :
    resyncRow now entries (some r) = some r := by
  induction entries with
  | nil => rfl
  | cons p entries ih =>
    have hp : p.upsertRow now (some r) = r := by simp [PresetEntry.upsertRow, hr]
    rw [resyncRow, List.foldl_cons, hp]
    exact ih

/-- **Each column of a managed row is that of the last entry that pins it**, or what it was. -/
theorem resyncRow_managed (now : ℕ) (entries : List PresetEntry) (hr : r.managed = true) :
    ∃ r', resyncRow now entries (some r) = some r' ∧ r'.managed = true ∧
      r'.createdAt = r.createdAt ∧ r'.createdBy = r.createdBy ∧
      r'.updatedAt = (if entries = [] then r.updatedAt else now) ∧
      ∀ c, r'.fields.get c =
        ((entries.filter fun p => c ∈ p.pinned).getLast?.map fun p => p.fields.get c).getD
          (r.fields.get c) := by
  induction entries using List.reverseRecOn with
  | nil => exact ⟨r, rfl, hr, rfl, rfl, rfl, fun _ => rfl⟩
  | append_singleton entries p ih =>
    obtain ⟨x, hx, hmanaged, hcreated, hby, -, hget⟩ := ih
    refine ⟨p.upsertRow now (some x), by rw [resyncRow_concat, hx], ?_⟩
    simp only [PresetEntry.upsertRow, hmanaged, if_true]
    refine ⟨trivial, hcreated, hby, by simp, fun c => ?_⟩
    rw [PresetFields.get_overwrite, hget c, List.filter_append]
    by_cases hc : c ∈ p.pinned <;> simp [hc]

/-- A row that was not there is made by the first entry. -/
theorem resyncRow_none {entries : List PresetEntry} :
    resyncRow now (p :: entries) none = resyncRow now entries (some (p.upsertRow now none)) := rfl

theorem resyncRow_flag {entries : List PresetEntry} (h : resyncRow now entries (some r) = some r') :
    r'.managed = r.managed := by
  cases hr : r.managed with
  | false =>
    rw [resyncRow_created hr] at h
    rw [← Option.some.inj h, hr]
  | true =>
    obtain ⟨x, hx, hmanaged, -⟩ := resyncRow_managed now entries hr
    rw [← Option.some.inj (hx.symm.trans h), hmanaged]

/-- A new row is managed, and there is one when the name has an entry. -/
theorem resyncRow_new (now : ℕ) {entries : List PresetEntry} (hne : entries ≠ []) :
    ∃ r, resyncRow now entries none = some r ∧ r.managed = true := by
  obtain ⟨p, entries, rfl⟩ := List.exists_cons_of_ne_nil hne
  obtain ⟨x, hx, hmanaged, -⟩ :=
    resyncRow_managed (r := p.upsertRow now none) now entries rfl
  exact ⟨x, resyncRow_none.trans hx, hmanaged⟩

/-- **A pinned column has the value of the last entry that pins it.** -/
theorem resyncRow_pinned {entries : List PresetEntry} (h : resyncRow now entries o = some r)
    (hm : r.managed = true)
    (hp : (entries.filter fun p => c ∈ p.pinned).getLast? = some p) :
    r.fields.get c = p.fields.get c := by
  cases o with
  | some old =>
    obtain ⟨x, hx, -, -, -, -, hget⟩ :=
      resyncRow_managed now entries ((resyncRow_flag h).symm.trans hm)
    obtain rfl := Option.some.inj (hx.symm.trans h)
    rw [hget c, hp, Option.map_some, Option.getD_some]
  | none =>
    cases entries with
    | nil => simp at hp
    | cons q entries =>
      obtain ⟨x, hx, -, -, -, -, hget⟩ :=
        resyncRow_managed (r := q.upsertRow now none) now entries rfl
      obtain rfl := Option.some.inj (hx.symm.trans (resyncRow_none.symm.trans h))
      rw [hget c]
      by_cases hq : c ∈ q.pinned
      · rw [List.filter_cons_of_pos (by simpa using hq), List.getLast?_cons] at hp
        obtain rfl := Option.some.inj hp
        exact Option.getD_map (fun p : PresetEntry => p.fields.get c) q _
      · rw [List.filter_cons_of_neg (by simpa using hq)] at hp
        rw [hp, Option.map_some, Option.getD_some]

/-! ### One statement -/

theorem PresetRows.settle_ok {x : PresetRows} (h : x.settle = .ok s) : s.toPresetRows = x := by
  unfold settle at h
  split_ifs at h
  obtain rfl := Except.ok.inj h
  rfl

/-- What an upsert does: it may be refused, and otherwise it writes one row. -/
theorem PresetTable.upsertManaged_ok (h : s.upsertManaged now p = .ok s') :
    isPresetName p.name = true ∧ p.fields.check = true ∧ s'.customAgents = s.customAgents ∧
      s'.presets = s.presets.insert p.name (p.upsertRow now (s.presets.lookup p.name)) := by
  unfold upsertManaged at h
  split_ifs at h with hp
  obtain ⟨hname, hcheck⟩ := Bool.and_eq_true_iff.1 hp
  have hs := PresetRows.settle_ok h
  exact ⟨hname, hcheck, by rw [hs], congrArg PresetRows.presets hs⟩

theorem PresetTable.deleteStaleManaged_ok {keep : List String}
    (h : s.deleteStaleManaged keep = .ok s') :
    s'.customAgents = s.customAgents ∧ ∀ n, s'.presets.lookup n =
      ((s.presets.lookup n).filter fun _ => !s.stale keep n).map
        (PresetRow.detach (s.stale keep)) := by
  have hs := PresetRows.settle_ok h
  refine ⟨by rw [hs], fun n => ?_⟩
  rw [congrArg PresetRows.presets hs, Table.lookup_mapRows, Table.lookup_deleteWhere_eq]

/-- The upserts of a catalogue write the rows of its names. -/
theorem upserts_ok (h : catalog.foldlM (fun s p => s.upsertManaged now p) s = .ok s') :
    s'.customAgents = s.customAgents ∧
      ∀ n, s'.presets.lookup n = resyncRow now (named catalog n) (s.presets.lookup n) := by
  induction catalog generalizing s with
  | nil =>
    obtain rfl := Except.ok.inj h
    exact ⟨rfl, fun n => rfl⟩
  | cons p catalog ih =>
    rw [List.foldlM_cons] at h
    obtain ⟨x, hx, h⟩ := bind_eq_ok.1 h
    obtain ⟨-, -, hagents, hpresets⟩ := PresetTable.upsertManaged_ok hx
    obtain ⟨hagents', hrows⟩ := ih h
    refine ⟨hagents'.trans hagents, fun n => ?_⟩
    rw [hrows n, hpresets, Table.lookup_insert]
    by_cases hn : n = p.name
    · subst hn
      simp [named, resyncRow]
    · have hn' : p.name ≠ n := Ne.symm hn
      simp [named, hn, hn']

/-- The row of a name when the stale rows have been deleted. -/
def PresetTable.pruned (s : PresetTable) (catalog : List PresetEntry) (n : String) :
    Option PresetRow :=
  ((s.presets.lookup n).filter fun _ => !s.stale (catalog.map PresetEntry.name) n).map
    (PresetRow.detach (s.stale (catalog.map PresetEntry.name)))

theorem resync_ok (h : s.resync now catalog = .ok s') :
    s'.customAgents = s.customAgents ∧
      ∀ n, s'.presets.lookup n = resyncRow now (named catalog n) (s.pruned catalog n) := by
  unfold PresetTable.resync at h
  obtain ⟨x, hx, h⟩ := bind_eq_ok.1 h
  obtain ⟨hagents, hpruned⟩ := PresetTable.deleteStaleManaged_ok hx
  obtain ⟨hagents', hrows⟩ := upserts_ok h
  refine ⟨hagents'.trans hagents, fun n => ?_⟩
  rw [hrows n, hpruned n]
  rfl

/-! ### What the whole leaves -/

theorem named_eq_nil : named catalog n = [] ↔ n ∉ catalog.map PresetEntry.name := by
  simp only [named, List.filter_eq_nil_iff, List.mem_map, not_exists, not_and, decide_eq_true_eq]

theorem PresetRow.detach_managed (gone : String → Bool) : (r.detach gone).managed = r.managed := by
  unfold detach
  split_ifs <;> rfl

/-- Only the reference can change. -/
theorem PresetRow.get_detach {gone : String → Bool} (hc : c ≠ .fallbackPreset) :
    (r.detach gone).fields.get c = r.fields.get c := by
  unfold detach
  split_ifs
  · cases c <;> first | rfl | exact absurd rfl hc
  · rfl

theorem PresetRow.detach_fallback {gone : String → Bool} :
    (r.detach gone).fields.fallbackPreset = r.fields.fallbackPreset.filter fun f => !gone f := by
  unfold detach
  cases hf : r.fields.fallbackPreset with
  | none => simp [hf]
  | some f => by_cases hg : gone f = true <;> simp [hf, hg, Option.filter]

section

variable {keep : List String}

theorem PresetTable.stale_iff : s.stale keep n = true ↔
    n ∉ keep ∧ ∃ r, s.presets.lookup n = some r ∧ r.managed = true := by
  unfold stale
  cases s.presets.lookup n with
  | none => simp
  | some r => simp [and_comm]

theorem PresetTable.stale_eq_false (hr : s.presets.lookup n = some r) (hm : r.managed = false) :
    s.stale keep n = false := by
  simp [stale, hr, hm]

end

/-- A re-sync: what becomes of the rows that admins made and of those of the catalogue. -/
structure Resynced (catalog : List PresetEntry) (s s' : PresetTable) : Prop where
  /-- A row that an admin made keeps everything but its reference to a preset that is pruned. -/
  created : ∀ n r, s.presets.lookup n = some r → r.managed = false →
    s'.presets.lookup n = some (r.detach (s.stale (catalog.map PresetEntry.name)))
  /-- No other row is an admin's. -/
  created_only : ∀ n r, s'.presets.lookup n = some r → r.managed = false →
    ∃ r₀, s.presets.lookup n = some r₀ ∧ r₀.managed = false
  /-- The managed names are those of the catalogue that no admin took. -/
  managed : ∀ n, (∃ r, s'.presets.lookup n = some r ∧ r.managed = true) ↔
    n ∈ catalog.map PresetEntry.name ∧ ¬ ∃ r, s.presets.lookup n = some r ∧ r.managed = false
  /-- A pinned column has the value that the catalogue pins. -/
  pinned : ∀ n r c p, s'.presets.lookup n = some r → r.managed = true →
    pinning catalog n c = some p → r.fields.get c = p.fields.get c
  /-- A column that is not pinned keeps its value, unless it names a preset that is pruned. -/
  kept : ∀ n r r' c, s.presets.lookup n = some r → s'.presets.lookup n = some r' →
    r'.managed = true → pinning catalog n c = none →
    r'.fields.get c = (r.detach (s.stale (catalog.map PresetEntry.name))).fields.get c
  /-- The agents that use a preset are left alone. -/
  customAgents : s'.customAgents = s.customAgents

theorem PresetTable.pruned_eq_some : s.pruned catalog n = some r' ↔
    ∃ r, s.presets.lookup n = some r ∧ s.stale (catalog.map PresetEntry.name) n = false ∧
      r.detach (s.stale (catalog.map PresetEntry.name)) = r' := by
  simp only [pruned, Option.map_eq_some_iff, Option.filter_eq_some_iff, Bool.not_eq_true', and_assoc]

theorem resynced_of_ok (h : s.resync now catalog = .ok s') : Resynced catalog s s' := by
  obtain ⟨hagents, hrows⟩ := resync_ok h
  have hcreated : ∀ n r, s.presets.lookup n = some r → r.managed = false →
      s'.presets.lookup n = some (r.detach (s.stale (catalog.map PresetEntry.name))) := by
    intro n r hr hm
    have hpruned : s.pruned catalog n = some _ :=
      PresetTable.pruned_eq_some.2 ⟨r, hr, PresetTable.stale_eq_false hr hm, rfl⟩
    rw [hrows n, hpruned, resyncRow_created ((PresetRow.detach_managed _).trans hm)]
  have hold : ∀ n r, s'.presets.lookup n = some r →
      (∃ x, s.pruned catalog n = some x ∧ x.managed = r.managed) ∨
        s.pruned catalog n = none ∧ r.managed = true ∧ n ∈ catalog.map PresetEntry.name := by
    intro n r hr
    rw [hrows n] at hr
    cases hx : s.pruned catalog n with
    | some x => exact .inl ⟨x, rfl, (resyncRow_flag (hx ▸ hr)).symm⟩
    | none =>
      rw [hx] at hr
      by_cases hn : named catalog n = []
      · rw [hn] at hr
        exact absurd hr (by simp [resyncRow])
      · obtain ⟨y, hy, hm⟩ := resyncRow_new now hn
        obtain rfl := Option.some.inj (hy.symm.trans hr)
        exact .inr ⟨rfl, hm, not_not.1 fun h => hn (named_eq_nil.2 h)⟩
  refine ⟨hcreated, fun n r hr hm => ?_, fun n => ⟨?_, ?_⟩, fun n r c p hr hm hp => ?_,
    fun n r r' c hr hr' hm hp => ?_, hagents⟩
  · obtain ⟨x, hx, hxm⟩ | ⟨-, hm', -⟩ := hold n r hr
    · obtain ⟨r₀, hr₀, -, rfl⟩ := PresetTable.pruned_eq_some.1 hx
      exact ⟨r₀, hr₀, (PresetRow.detach_managed _).symm.trans (hxm.trans hm)⟩
    · exact absurd (hm.symm.trans hm') (by simp)
  · rintro ⟨r, hr, hm⟩
    have hno : ¬ ∃ r, s.presets.lookup n = some r ∧ r.managed = false := by
      rintro ⟨r₀, hr₀, hm₀⟩
      obtain rfl := Option.some.inj (hr.symm.trans (hcreated n r₀ hr₀ hm₀))
      exact absurd (hm.symm.trans ((PresetRow.detach_managed _).trans hm₀)) (by simp)
    refine ⟨?_, hno⟩
    obtain ⟨x, hx, hxm⟩ | ⟨-, -, hn⟩ := hold n r hr
    · obtain ⟨r₀, hr₀, hstale, rfl⟩ := PresetTable.pruned_eq_some.1 hx
      by_contra hn
      have hm₀ := (PresetRow.detach_managed _).symm.trans (hxm.trans hm)
      exact absurd (PresetTable.stale_iff.2 ⟨hn, r₀, hr₀, hm₀⟩) (by simp [hstale])
    · exact hn
  · rintro ⟨hn, hno⟩
    have hne : named catalog n ≠ [] := fun h => named_eq_nil.1 h hn
    rw [hrows n]
    cases hx : s.pruned catalog n with
    | none => exact resyncRow_new now hne
    | some x =>
      obtain ⟨r₀, hr₀, -, rfl⟩ := PresetTable.pruned_eq_some.1 hx
      have hm₀ : r₀.managed = true := by
        by_contra hm
        exact hno ⟨r₀, hr₀, Bool.not_eq_true _ ▸ hm⟩
      obtain ⟨r', hr', hm', -⟩ := resyncRow_managed now (named catalog n)
        ((PresetRow.detach_managed (s.stale (catalog.map PresetEntry.name))).trans hm₀)
      exact ⟨r', hr', hm'⟩
  · exact resyncRow_pinned ((hrows n).symm.trans hr) hm hp
  · have hm₀ : r.managed = true := by
      by_contra hm₀
      obtain rfl := Option.some.inj (hr'.symm.trans (hcreated n r hr (Bool.not_eq_true _ ▸ hm₀)))
      exact hm₀ ((PresetRow.detach_managed _).symm.trans hm)
    have hpruned : s.pruned catalog n = some (r.detach (s.stale (catalog.map PresetEntry.name))) := by
      obtain ⟨x, hx, -⟩ | ⟨hx, -, hn⟩ := hold n r' hr'
      · obtain ⟨r₀, hr₀, -, rfl⟩ := PresetTable.pruned_eq_some.1 hx
        rw [hx, Option.some.inj (hr₀.symm.trans hr)]
      · have hstale : s.stale (catalog.map PresetEntry.name) n = false :=
          Bool.eq_false_iff.2 fun h => (PresetTable.stale_iff.1 h).1 hn
        exact PresetTable.pruned_eq_some.2 ⟨r, hr, hstale, rfl⟩
    obtain ⟨y, hy, -, -, -, -, hget⟩ := resyncRow_managed now (named catalog n)
      ((PresetRow.detach_managed (s.stale (catalog.map PresetEntry.name))).trans hm₀)
    rw [hrows n, hpruned, hy] at hr'
    rw [← Option.some.inj hr', hget c, ← pinning, hp, Option.map_none, Option.getD_none]

/-! ### Doing it again -/

theorem PresetFields.check_overwrite {f old : PresetFields} {pinned : List PresetColumn}
    (h : f.check = true) (ho : old.check = true) (hp : .provider ∈ pinned)
    (hb : .baseUrl ∉ pinned → f.baseUrl = none) : (overwrite pinned f old).check = true := by
  simp only [check, Bool.and_eq_true] at h ho ⊢
  obtain ⟨⟨⟨⟨⟨⟨hprovider, hlevel⟩, htemp⟩, htokens⟩, hlow⟩, hhigh⟩, hurl⟩ := h
  obtain ⟨⟨⟨⟨⟨⟨-, hlevel'⟩, htemp'⟩, htokens'⟩, hlow'⟩, hhigh'⟩, -⟩ := ho
  simp only [overwrite, hp, if_true]
  refine ⟨⟨⟨⟨⟨⟨hprovider, ?_⟩, ?_⟩, ?_⟩, ?_⟩, ?_⟩, ?_⟩
  · split_ifs <;> assumption
  · split_ifs <;> assumption
  · split_ifs <;> assumption
  · split_ifs <;> assumption
  · split_ifs <;> assumption
  · -- without an endpoint of its own the entry passed because its provider needs none
    split_ifs with hu
    · exact hurl
    · rw [hb hu, Option.any_none, Bool.or_false] at hurl
      rw [hurl, Bool.true_or]

theorem PresetRows.checked_iff {x : PresetRows} : x.checked = true ↔
    ∀ n r, x.presets.lookup n = some r → isPresetName n = true ∧ r.fields.check = true := by
  simp only [checked, List.all_eq_true, Bool.and_eq_true]
  exact ⟨fun h n r hr => h ⟨n, r⟩ (AList.mem_lookup_iff.1 hr),
    fun h e he => h e.1 e.2 (AList.mem_lookup_iff.2 he)⟩

theorem PresetRows.referenced_iff {x : PresetRows} : x.referenced = true ↔
    (∀ n r f, x.presets.lookup n = some r → r.fields.fallbackPreset = some f →
      x.presets.lookup f ≠ none) ∧
    ∀ a n, x.customAgents.lookup a = some n → x.presets.lookup n ≠ none := by
  simp only [referenced, Bool.and_eq_true, List.all_eq_true, Option.all_eq_true, Option.isSome_iff_ne_none]
  constructor
  · rintro ⟨hp, ha⟩
    exact ⟨fun n r f hr hf => hp ⟨n, r⟩ (AList.mem_lookup_iff.1 hr) f hf,
      fun a n ha' => ha ⟨a, n⟩ (AList.mem_lookup_iff.1 ha')⟩
  · rintro ⟨hp, ha⟩
    exact ⟨fun e he f hf => hp e.1 e.2 f (AList.mem_lookup_iff.2 he) hf,
      fun e he => ha e.1 e.2 (AList.mem_lookup_iff.2 he)⟩

theorem PresetRows.settle_of {x : PresetRows} (hc : x.checked = true) (hr : x.referenced = true) :
    x.settle = .ok ⟨x, hc, hr⟩ := by
  rw [settle, dif_pos hc, dif_pos hr]

/-- No row is lost, and none changes hands. -/
def PresetTable.Keeps (s s' : PresetTable) : Prop :=
  ∀ n r, s.presets.lookup n = some r → ∃ r', s'.presets.lookup n = some r' ∧ r'.managed = r.managed

theorem PresetTable.Keeps.refl : s.Keeps s := fun _ r hr => ⟨r, hr, rfl⟩

theorem PresetTable.Keeps.trans (h : s.Keeps s') (h' : s'.Keeps s'') : s.Keeps s'' := by
  intro n r hr
  obtain ⟨x, hx, hxm⟩ := h n r hr
  obtain ⟨y, hy, hym⟩ := h' n x hx
  exact ⟨y, hy, hym.trans hxm⟩

theorem PresetTable.Keeps.ne_none (h : s.Keeps s') (hn : s.presets.lookup n ≠ none) :
    s'.presets.lookup n ≠ none := by
  obtain ⟨r, hr⟩ := Option.ne_none_iff_exists'.1 hn
  obtain ⟨r', hr', -⟩ := h n r hr
  simp [hr']

/-- What an upsert that succeeded says about its entry, whatever is upserted after it. -/
def PresetTable.Applied (s : PresetTable) (p : PresetEntry) : Prop :=
  isPresetName p.name = true ∧ p.fields.check = true ∧ ∃ r, s.presets.lookup p.name = some r ∧
    (r.managed = true → .fallbackPreset ∈ p.pinned →
      ∀ f, p.fields.fallbackPreset = some f → s.presets.lookup f ≠ none)

theorem PresetTable.keeps_upsert (h : s.upsertManaged now p = .ok s') : s.Keeps s' := by
  obtain ⟨-, -, -, hpresets⟩ := upsertManaged_ok h
  intro n r hr
  rw [hpresets, Table.lookup_insert]
  split_ifs with hn
  · subst hn
    rw [hr]
    refine ⟨_, rfl, ?_⟩
    simp only [PresetEntry.upsertRow]
    split_ifs <;> rfl
  · exact ⟨r, hr, rfl⟩

theorem PresetTable.applied_upsert (h : s.upsertManaged now p = .ok s') : s'.Applied p := by
  obtain ⟨hname, hcheck, -, hpresets⟩ := upsertManaged_ok h
  have hrow : s'.presets.lookup p.name = some (p.upsertRow now (s.presets.lookup p.name)) := by
    rw [hpresets, Table.lookup_insert, if_pos rfl]
  refine ⟨hname, hcheck, _, hrow, fun hm hpin f hf => ?_⟩
  refine (PresetRows.referenced_iff.1 s'.referenced).1 p.name _ f hrow ?_
  cases hr : s.presets.lookup p.name with
  | none => exact hf
  | some r =>
    rw [hr] at hm
    by_cases hmanaged : r.managed = true
    · simp only [PresetEntry.upsertRow, hmanaged, if_true, PresetFields.overwrite, hpin]
      exact hf
    · simp only [PresetEntry.upsertRow, hmanaged] at hm
      exact absurd hm hmanaged

theorem PresetTable.Applied.mono (h : s.Applied p) (hk : s.Keeps s') : s'.Applied p := by
  obtain ⟨hname, hcheck, r, hr, href⟩ := h
  obtain ⟨r', hr', hm⟩ := hk p.name r hr
  exact ⟨hname, hcheck, r', hr', fun hm' hpin f hf => hk.ne_none (href (hm.symm.trans hm') hpin f hf)⟩

/-- **An entry that has been applied can be applied again.** -/
theorem PresetTable.Applied.upsert (h : s.Applied p) (now : ℕ) :
    ∃ s', s.upsertManaged now p = .ok s' := by
  obtain ⟨hname, hcheck, r, hr, href⟩ := h
  obtain ⟨hcustom, hagents⟩ := And.symm (PresetRows.referenced_iff.1 s.referenced)
  have hrow := PresetRows.checked_iff.1 s.checked p.name r hr
  have hsome : ∀ n, s.presets.lookup n ≠ none →
      (s.presets.insert p.name (p.upsertRow now (some r))).lookup n ≠ none := by
    intro n hn
    rw [Table.lookup_insert]
    split_ifs
    · simp
    · exact hn
  have hchecked : PresetRows.checked
      ⟨s.presets.insert p.name (p.upsertRow now (some r)), s.customAgents⟩ = true := by
    refine PresetRows.checked_iff.2 fun n x hx => ?_
    rw [Table.lookup_insert] at hx
    split_ifs at hx with hn
    · obtain rfl := Option.some.inj hx
      refine ⟨hn ▸ hname, ?_⟩
      simp only [PresetEntry.upsertRow]
      split_ifs
      · exact PresetFields.check_overwrite hcheck hrow.2 p.required p.baseUrl_default
      · exact hrow.2
    · exact PresetRows.checked_iff.1 s.checked n x hx
  have hreferenced : PresetRows.referenced
      ⟨s.presets.insert p.name (p.upsertRow now (some r)), s.customAgents⟩ = true := by
    refine PresetRows.referenced_iff.2 ⟨fun n x f hx hf => hsome f ?_,
      fun a n ha => hsome n (hcustom a n ha)⟩
    rw [Table.lookup_insert] at hx
    split_ifs at hx with hn
    · obtain rfl := Option.some.inj hx
      simp only [PresetEntry.upsertRow] at hf
      split_ifs at hf with hm
      · simp only [PresetFields.overwrite] at hf
        split_ifs at hf with hpin
        · exact href hm hpin f hf
        · exact hagents _ r f hr hf
      · exact hagents _ r f hr hf
    · exact hagents n x f hx hf
  unfold upsertManaged
  rw [if_pos (by rw [hname, hcheck]; rfl), hr]
  exact ⟨_, PresetRows.settle_of hchecked hreferenced⟩

theorem upserts_applied (h : catalog.foldlM (fun s p => s.upsertManaged now p) s = .ok s') :
    s.Keeps s' ∧ ∀ p ∈ catalog, s'.Applied p := by
  induction catalog generalizing s with
  | nil =>
    obtain rfl := Except.ok.inj h
    exact ⟨.refl, fun p hp => absurd hp List.not_mem_nil⟩
  | cons q catalog ih =>
    rw [List.foldlM_cons] at h
    obtain ⟨x, hx, h⟩ := bind_eq_ok.1 h
    obtain ⟨hkeeps, happlied⟩ := ih h
    refine ⟨(PresetTable.keeps_upsert hx).trans hkeeps, fun p hp => ?_⟩
    obtain rfl | hp := List.mem_cons.1 hp
    · exact (PresetTable.applied_upsert hx).mono hkeeps
    · exact happlied p hp

theorem upserts_again (h : ∀ p ∈ catalog, s.Applied p) (now : ℕ) :
    ∃ s', catalog.foldlM (fun s p => s.upsertManaged now p) s = .ok s' := by
  induction catalog generalizing s with
  | nil => exact ⟨s, rfl⟩
  | cons q catalog ih =>
    obtain ⟨x, hx⟩ := (h q List.mem_cons_self).upsert now
    obtain ⟨s', hs'⟩ := ih fun p hp =>
      (h p (List.mem_cons_of_mem _ hp)).mono (PresetTable.keeps_upsert hx)
    refine ⟨s', ?_⟩
    rw [List.foldlM_cons, hx]
    exact hs'

theorem PresetRow.detach_eq_self {gone : String → Bool} (h : ∀ n, gone n = false) :
    r.detach gone = r := by
  have hany : r.fields.fallbackPreset.any gone = false := by
    cases r.fields.fallbackPreset with
    | none => rfl
    | some f => exact h f
  rw [detach, hany]
  rfl

theorem deleteStaleManaged_of_none {keep : List String} (h : ∀ n, s.stale keep n = false) :
    s.deleteStaleManaged keep = .ok s := by
  have hrows : (s.presets.deleteWhere fun n _ => s.stale keep n).mapRows
      (fun _ r => r.detach (s.stale keep)) = s.presets := by
    rw [Table.deleteWhere_eq_self fun n _ _ => h n]
    refine AList.ext ?_
    simp only [Table.mapRows, PresetRow.detach_eq_self h]
    exact List.map_id' _
  unfold PresetTable.deleteStaleManaged
  rw [hrows]
  exact PresetRows.settle_of s.checked s.referenced

/-- A managed row has been written. -/
def PresetRow.touch (now : ℕ) (r : PresetRow) : PresetRow :=
  if r.managed then { r with updatedAt := now } else r

theorem PresetRow.touch_fields : (r.touch now).fields = r.fields := by
  unfold touch
  split_ifs <;> rfl

/-- The catalogue has been applied to the table, and nothing that it decides has changed since. -/
structure PresetTable.InStep (catalog : List PresetEntry) (s : PresetTable) : Prop where
  /-- Every entry can be applied again. -/
  applied : ∀ p ∈ catalog, s.Applied p
  /-- A pinned column has the value that the catalogue pins. -/
  pinned : ∀ n r c p, s.presets.lookup n = some r → r.managed = true →
    pinning catalog n c = some p → r.fields.get c = p.fields.get c
  /-- The managed presets are of the catalogue. -/
  listed : ∀ n r, s.presets.lookup n = some r → r.managed = true →
    n ∈ catalog.map PresetEntry.name

/-- **A row that is in step is not changed again.** -/
theorem PresetTable.InStep.resyncRow (h : s.InStep catalog) (now : ℕ) (n : String) :
    resyncRow now (named catalog n) (s.presets.lookup n) =
      (s.presets.lookup n).map (PresetRow.touch now) := by
  cases hr : s.presets.lookup n with
  | none =>
    have hn : n ∉ catalog.map PresetEntry.name := by
      intro hn
      obtain ⟨p, hp, rfl⟩ := List.mem_map.1 hn
      obtain ⟨-, -, r, hr', -⟩ := h.applied p hp
      exact absurd (hr.symm.trans hr') (by simp)
    rw [named_eq_nil.2 hn]
    rfl
  | some r =>
    rw [Option.map_some, PresetRow.touch]
    split_ifs with hm
    · have hne : named catalog n ≠ [] := fun hnil => named_eq_nil.1 hnil (h.listed n r hr hm)
      obtain ⟨y, hy, hym, hcreated, hby, hupdated, hget⟩ := resyncRow_managed now (named catalog n) hm
      have hfields : y.fields = r.fields := by
        refine PresetFields.ext_get fun c => ?_
        rw [hget c, ← pinning]
        cases hp : pinning catalog n c with
        | none => rfl
        | some p => exact (h.pinned n r c p hr hm hp).symm
      rw [if_neg hne] at hupdated
      obtain ⟨yf, ym, yc, yu, yb⟩ := y
      simp only at hym hcreated hby hupdated hfields
      rw [hy, hfields, hcreated, hby, hupdated, hym, ← hm]
    · exact resyncRow_created (Bool.not_eq_true _ ▸ hm)

/-- **Applying the catalogue changes nothing** but the time of the last write. -/
theorem PresetTable.InStep.resync (h : s.InStep catalog) (now : ℕ) :
    ∃ s', s.resync now catalog = .ok s' ∧ s'.customAgents = s.customAgents ∧
      ∀ n, s'.presets.lookup n = (s.presets.lookup n).map (PresetRow.touch now) := by
  obtain ⟨s', hs'⟩ := upserts_again h.applied now
  have hstale : ∀ n, s.stale (catalog.map PresetEntry.name) n = false := by
    intro n
    refine Bool.eq_false_iff.2 fun hstale => ?_
    obtain ⟨hn, r, hr, hm⟩ := PresetTable.stale_iff.1 hstale
    exact hn (h.listed n r hr hm)
  have hagain : s.resync now catalog = .ok s' :=
    bind_eq_ok.2 ⟨s, deleteStaleManaged_of_none hstale, hs'⟩
  obtain ⟨hagents, hrows⟩ := upserts_ok hs'
  exact ⟨s', hagain, hagents, fun n => (hrows n).trans (h.resyncRow now n)⟩

theorem inStep_of_resync (h : s.resync now catalog = .ok s') : s'.InStep catalog := by
  have hsynced := resynced_of_ok h
  obtain ⟨x, -, hupserts⟩ := bind_eq_ok.1 h
  exact ⟨(upserts_applied hupserts).2, hsynced.pinned,
    fun n r hr hm => ((hsynced.managed n).1 ⟨r, hr, hm⟩).1⟩

/-- **A catalogue can be applied again.** -/
theorem resync_again (h : s.resync now catalog = .ok s') (now' : ℕ) :
    ∃ s'', s'.resync now' catalog = .ok s'' ∧ s''.customAgents = s'.customAgents ∧
      ∀ n, s''.presets.lookup n = (s'.presets.lookup n).map (PresetRow.touch now') :=
  (inStep_of_resync h).resync now'

/-! ### What is published -/

theorem PresetTable.lookup_published (s : PresetTable) (n : String) :
    s.published.lookup n = (s.presets.lookup n).map PresetRow.fields := by
  have hperm : s.listLlmPresets.Perm s.presets.entries := List.perm_insertionSort _ _
  have hlookup : List.dlookup n s.listLlmPresets = s.presets.lookup n :=
    (List.perm_dlookup n s.presets.nodupKeys hperm.symm).symm
  rw [← hlookup]
  have hmap := List.dlookup_map₂ (l := s.listLlmPresets) (f := fun _ r => r.fields) n
  exact hmap

theorem PresetTable.sorted_published (s : PresetTable) :
    s.published.entries.Pairwise fun x y => x.1 ≤ y.1 := by
  have hsorted : s.listLlmPresets.Pairwise fun x y => x.1 ≤ y.1 :=
    List.pairwise_insertionSort _ _
  exact List.pairwise_map.2 hsorted

theorem PresetTable.published_congr
    (h : ∀ n, (s.presets.lookup n).map PresetRow.fields = (s'.presets.lookup n).map PresetRow.fields) :
    s.published = s'.published := by
  refine Table.eq_of_sorted (fun n => ?_) s.sorted_published s'.sorted_published
  rw [lookup_published, lookup_published, h]

theorem loadPresetsFromDb_ok {svc svc' : LlmService} {k : ℕ} :
    svc.loadPresetsFromDb s now catalog = .ok (svc', s', k) ↔ s.resync now catalog = .ok s' ∧
      (svc', k) = if fallbacksEnd s'.published then (⟨s'.published⟩, s'.published.keys.length)
        else (svc, svc.presets.keys.length) := by
  unfold LlmService.loadPresetsFromDb
  rw [bind_eq_ok]
  constructor
  · rintro ⟨x, hx, h⟩
    split_ifs at h with hf <;> cases h
    · exact ⟨hx, by rw [if_pos hf]⟩
    · exact ⟨hx, by rw [if_neg hf]⟩
  · rintro ⟨hx, h⟩
    refine ⟨s', hx, ?_⟩
    split_ifs at h ⊢ <;> cases h <;> rfl

/-- **A re-sync of the presets.**  Whenever it does not raise, the rows that admins made keep everything
but a reference to a pruned preset, the managed names are the other names of the catalogue, their
pinned columns are the catalogue's and the rest are as they were; and doing it again succeeds, answers
the same and changes nothing but the time of the last write. -/
theorem presets_resynced {svc svc' : LlmService} {base overlay : List PresetEntry} {k : ℕ}
    (h : svc.loadPresetsFromDb s now (defaultPresetsWithOverlay base overlay) = .ok (svc', s', k)) :
    Resynced (defaultPresetsWithOverlay base overlay) s s' ∧ ∀ now', ∃ s'',
      svc'.loadPresetsFromDb s' now' (defaultPresetsWithOverlay base overlay) = .ok (svc', s'', k) ∧
        s''.customAgents = s'.customAgents ∧
        ∀ n, s''.presets.lookup n = (s'.presets.lookup n).map (PresetRow.touch now') := by
  obtain ⟨hsync, hanswer⟩ := loadPresetsFromDb_ok.1 h
  refine ⟨resynced_of_ok hsync, fun now' => ?_⟩
  obtain ⟨s'', hagain, hagents, hrows⟩ := resync_again hsync now'
  have hpublished : s''.published = s'.published := by
    refine PresetTable.published_congr fun n => ?_
    rw [hrows n, Option.map_map]
    exact congrArg (fun f => (s'.presets.lookup n).map f) (funext fun r => PresetRow.touch_fields)
  refine ⟨s'', loadPresetsFromDb_ok.2 ⟨hagain, ?_⟩, hagents, hrows⟩
  rw [hpublished]
  split_ifs at hanswer ⊢ <;> obtain ⟨rfl, rfl⟩ := Prod.mk.inj hanswer <;> rfl

/-! ### A preset is pruned -/

namespace Sample

/-- A preset that an admin made falls back to a managed one, whose description an operator edited. -/
def prunedPresets : PresetTable where
  presets := (∅ : Table String PresetRow)
    |>.insert "mine" ⟨{ provider := "gemini", concreteModel := "m", fallbackPreset := some "old" },
        false, 1, 1, some "admin"⟩
    |>.insert "old" ⟨{ provider := "gemini", concreteModel := "o", description := some "mine" },
        true, 0, 0, none⟩
  customAgents := ∅
  checked := by decide +kernel
  referenced := by decide +kernel

/-- An entry that pins what it has to. -/
def pinningModel (n model : String) : PresetEntry where
  name := n
  fields := { provider := "openai", concreteModel := model }
  pinned := [.provider, .concreteModel]
  required := by decide
  baseUrl_default _ := rfl

def baseCatalog : List PresetEntry := [pinningModel "old" "a"]

/-- The overlay repoints the preset. -/
def overlay : List PresetEntry := [pinningModel "old" "b"]

end Sample

theorem ok_of_toOption {ε α : Type} {x : Except ε α} {a : α} (h : x.toOption = some a) :
    x = .ok a := by
  cases x with
  | error e => exact nomatch h
  | ok b => exact congrArg Except.ok (Option.some.inj h)

/-- The name left the catalogue, so the row of the admin loses its reference. -/
theorem admin_row_detached : ¬ ∀ (svc svc' : LlmService) (s s' : PresetTable) (now k : ℕ)
    (catalog : List PresetEntry), svc.loadPresetsFromDb s now catalog = .ok (svc', s', k) →
      ∀ n r, s.presets.lookup n = some r → r.managed = false → s'.presets.lookup n = some r := by
  intro hall
  have hrun : ((LlmService.mk ∅).loadPresetsFromDb Sample.prunedPresets 2 []).toOption.map
      (fun x => (x.2.1.presets.lookup "mine").map fun r => r.fields.fallbackPreset) =
        some (some none) := by decide +kernel
  obtain ⟨⟨svc', s', k⟩, hx, hrow⟩ := Option.map_eq_some_iff.1 hrun
  have hok : (LlmService.mk ∅).loadPresetsFromDb Sample.prunedPresets 2 [] = .ok (svc', s', k) :=
    ok_of_toOption hx
  have hmine : ∃ r, Sample.prunedPresets.presets.lookup "mine" = some r ∧ r.managed = false ∧
      r.fields.fallbackPreset = some "old" := ⟨_, rfl, rfl, rfl⟩
  obtain ⟨r, hr, hm, hf⟩ := hmine
  rw [hall _ _ _ _ _ _ _ hok "mine" r hr hm, Option.map_some, hf] at hrow
  exact absurd hrow (by simp)

theorem presets_resynced_overlay : ∃ svc' s' k,
    (LlmService.mk ∅).loadPresetsFromDb Sample.prunedPresets 2
      (defaultPresetsWithOverlay Sample.baseCatalog Sample.overlay) = .ok (svc', s', k) ∧
    Resynced (defaultPresetsWithOverlay Sample.baseCatalog Sample.overlay)
      Sample.prunedPresets s' ∧
    (s'.presets.lookup "old").map (fun r => (r.fields.concreteModel, r.fields.description)) =
      some ("b", some "mine") := by
  have hrun : ((LlmService.mk ∅).loadPresetsFromDb Sample.prunedPresets 2
      (defaultPresetsWithOverlay Sample.baseCatalog Sample.overlay)).toOption.map
      (fun x => (x.2.1.presets.lookup "old").map fun r =>
        (r.fields.concreteModel, r.fields.description)) = some (some ("b", some "mine")) := by
    decide +kernel
  obtain ⟨⟨svc', s', k⟩, hx, hrow⟩ := Option.map_eq_some_iff.1 hrun
  have hok := ok_of_toOption hx
  exact ⟨svc', s', k, hok, (presets_resynced hok).1, hrow⟩

end Backplane
