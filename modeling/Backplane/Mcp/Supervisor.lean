import Backplane.Data.EventSystem
import Backplane.Mcp.BridgeRow

/-!
# The supervisor of the bridges

The supervisor polls the two tables of the router, and starts, restarts and stops the bridges so
that they are those of the rows.  It runs until it is cancelled, and stops all of them then.  Other
tasks go on only where it awaits something.

* `supervisor` : the supervisor, its bridges and their done-callbacks, event by event.
* `Converged` : the bridges that run are those of the rows.
* `Sound`, `Ends` : what holds after a pass, and once the supervisor is cancelled.
* `allowed` : rows that can be read, bridges that do not exit behind a pass, and no cancellation
  while a pass stops a bridge.
* `supervisor_converges` : in every run whose events are allowed, both hold.
-/

namespace Backplane.Mcp

/-- The place of a bridge: which half of the supervisor it belongs to, and its key there. -/
abbrev Slot := Source × String

/-- A bridge's task. -/
structure Bridge where
  slot : Slot
  row : BridgeRow
  /-- `_refresh_event` is set by the supervisor. -/
  isRefreshed : Bool := false
  /-- `run` is over. -/
  isFinished : Bool := false

/-- `_ActiveEntry`, `_ActiveCustomEntry` -/
structure Entry where
  task : ℕ
  row : BridgeRow

/-- Where a pass is. -/
inductive Stage
  | decoding
  /-- Bridges whose rows are gone are to be stopped, among these. -/
  | removing (sids : List String)
  /-- `_stop` awaits the task, in the first loop. -/
  | stopping (task : ℕ) (sids : List String)
  /-- The rows with these keys are to be compared. -/
  | examining (todo : List String)
  /-- `_stop` awaits the task, in the second loop; a new bridge follows. -/
  | restarting (task : ℕ) (row : BridgeRow) (todo : List String)

/-- A pass of `_reconcile_once`, or of `_reconcile_custom_once`. -/
structure Pass where
  /-- Which of the two. -/
  src : Source
  rows : List AdminDict
  stage : Stage

/-- Where `run` is. -/
inductive Phase
  | listing (src : Source)
  | reconciling (p : Pass)
  /-- `asyncio.sleep` -/
  | sleeping
  /-- `_tear_down_all`: these are to be stopped, and the task is awaited. -/
  | tearDown (src : Source) (sids : List String) (task : Option ℕ)
  /-- `run` is over. -/
  | ended

/-- The bridges, and the dictionaries of those that are active. -/
structure Fleet where
  /-- `_active` and `_active_custom`. -/
  active : Table Slot Entry := ∅
  bridges : Table ℕ Bridge := ∅
  next : ℕ := 0

/-- `Supervisor` -/
structure SupervisorState where
  fleet : Fleet := {}
  /-- Where `run` is. -/
  phase : Phase := .listing .server
  /-- The supervisor has been cancelled. -/
  isCancelled : Bool := false

/-- What happens. -/
inductive SupervisorEvent
  /-- The router answers; `none`: it does not, or with an error. -/
  | listed (rows : Option (List AdminDict))
  | advance
  | cancel
  /-- A bridge's `run` is over. -/
  | finish (task : ℕ)
  /-- `_on_bridge_done`, or `_on_custom_bridge_done`. -/
  | done (task : ℕ)

namespace Fleet

/-- The keys of the bridges of one half. -/
def keys (f : Fleet) (src : Source) : List String :=
  (f.active.keys.filter fun slot => slot.1 = src).map Prod.snd

/-- The bridge has finished. -/
def finished (f : Fleet) (task : ℕ) : Bool := (f.bridges.lookup task).any Bridge.isFinished

/-- `_start`, `_start_custom` -/
def start (f : Fleet) (src : Source) (row : BridgeRow) : Fleet where
  active := f.active.insert (src, row.id) { task := f.next, row }
  bridges := f.bridges.insert f.next { slot := (src, row.id), row }
  next := f.next + 1

/-- The entry is taken out. -/
def release (f : Fleet) (slot : Slot) : Fleet := { f with active := f.active.erase slot }

/-- The entry has a new row, of the same configuration; the bridge hears of a refresh. -/
def keep (f : Fleet) (slot : Slot) (e : Entry) (row : BridgeRow) : Fleet :=
  { f with
    active := f.active.insert slot { e with row }
    bridges := f.bridges.update e.task fun b =>
      { b with isRefreshed := b.isRefreshed || e.row.refreshAdvanced row } }

/-- A bridge's `run` is over. -/
def finish (f : Fleet) (task : ℕ) : Fleet :=
  { f with bridges := f.bridges.update task fun b => { b with isFinished := true } }

/-- `_on_bridge_done`, `_on_custom_bridge_done`: the entry is taken out, if it is the task's. -/
def evict (f : Fleet) (task : ℕ) (slot : Slot) : Fleet :=
  if (f.active.lookup slot).any fun e => e.task = task then f.release slot else f

end Fleet

namespace SupervisorState

/-- The supervisor goes on at a stage of the pass. -/
def toStage (s : SupervisorState) (p : Pass) (fleet : Fleet) (stage : Stage) : SupervisorState :=
  { s with fleet, phase := .reconciling { p with stage } }

/-- The pass is over. -/
def endPass (s : SupervisorState) : Source → SupervisorState
  | .server => { s with phase := .listing .custom }
  | .custom => { s with phase := .sleeping }

/-- The row is compared with the bridge that is there. -/
def examine (s : SupervisorState) (p : Pass) (row : BridgeRow) (todo : List String) :
    SupervisorState :=
  match s.fleet.active.lookup (p.src, row.id) with
  | none => s.toStage p (s.fleet.start p.src row) (.examining todo)
  | some e =>
    if e.row.configSignature ≠ row.configSignature then
      s.toStage p (s.fleet.release (p.src, row.id)) (.restarting e.task row todo)
    else s.toStage p (s.fleet.keep (p.src, row.id) e row) (.examining todo)

/-- The supervisor goes on with a pass; `none`: it awaits a bridge. -/
def advancePass (s : SupervisorState) (p : Pass) : Option SupervisorState :=
  match p.stage with
  | .decoding => some <|
    if decodes p.src p.rows then s.toStage p s.fleet (.removing (s.fleet.keys p.src))
    else s.endPass p.src
  | .removing [] => some (s.toStage p s.fleet (.examining (order p.src p.rows)))
  | .removing (sid :: sids) => some <|
    if ((wanted p.src p.rows).lookup sid).isSome then s.toStage p s.fleet (.removing sids)
    else match s.fleet.active.lookup (p.src, sid) with
      | none => s.toStage p s.fleet (.removing sids)
      | some e => s.toStage p (s.fleet.release (p.src, sid)) (.stopping e.task sids)
  | .stopping task sids =>
    if s.fleet.finished task then some (s.toStage p s.fleet (.removing sids)) else none
  | .examining [] => some (s.endPass p.src)
  | .examining (sid :: todo) => some <| match (wanted p.src p.rows).lookup sid with
    | none => s.toStage p s.fleet (.examining todo)
    | some row => s.examine p row todo
  | .restarting task row todo =>
    if s.fleet.finished task then
      some (s.toStage p (s.fleet.start p.src row) (.examining todo))
    else none

/-- The supervisor goes on with `_tear_down_all`. -/
def advanceTearDown (s : SupervisorState) (src : Source) :
    List String → Option ℕ → Option SupervisorState
  | sids, some task =>
    if s.fleet.finished task then some { s with phase := .tearDown src sids none } else none
  | [], none => some <| match src with
    | .server => { s with phase := .tearDown .custom (s.fleet.keys .custom) none }
    | .custom => { s with phase := .ended }
  | sid :: sids, none => some <| match s.fleet.active.lookup (src, sid) with
    | none => { s with phase := .tearDown src sids none }
    | some e => { s with
      fleet := s.fleet.release (src, sid)
      phase := .tearDown src sids (some e.task) }

/-- The supervisor awaits something. -/
def awaits (s : SupervisorState) : Bool :=
  match s.phase with
  | .listing _ => true
  | .reconciling p => match p.stage with
    | .stopping _ _ => true
    | .restarting _ _ _ => true
    | _ => false
  | .sleeping => true
  | .tearDown _ _ task => task.isSome
  | .ended => true

/-- The supervisor is cancelled where it awaits something; `_stop` passes over the exception. -/
def cancel (s : SupervisorState) : Option SupervisorState :=
  let tearDown := { s with
    isCancelled := true, phase := .tearDown .server (s.fleet.keys .server) none }
  match s.phase with
  | .listing _ => some tearDown
  | .sleeping => some tearDown
  | .reconciling _ => if s.awaits then some { s with isCancelled := true } else none
  | .tearDown _ _ _ => if s.awaits then some { s with isCancelled := true } else none
  | .ended => none

/-- An event. -/
def step (s : SupervisorState) : SupervisorEvent → Option SupervisorState
  | .listed rows => match s.phase with
    | .listing src => some <| match rows with
      | none => s.endPass src
      | some rows => { s with phase := .reconciling { src, rows, stage := .decoding } }
    | _ => none
  | .advance => match s.phase with
    | .listing _ => none
    | .reconciling p => s.advancePass p
    | .sleeping => some { s with phase := .listing .server }
    | .tearDown src sids task => s.advanceTearDown src sids task
    | .ended => none
  | .cancel => s.cancel
  | .finish task =>
    if s.awaits && (s.fleet.bridges.lookup task).isSome then
      some { s with fleet := s.fleet.finish task }
    else none
  | .done task =>
    if s.awaits then ((s.fleet.bridges.lookup task).filter Bridge.isFinished).map fun b =>
      { s with fleet := s.fleet.evict task b.slot }
    else none

end SupervisorState

/-- The supervisor, from the start of `run`. -/
def supervisor : EventSystem SupervisorState SupervisorEvent := ⟨{}, SupervisorState.step⟩

/-! ### What is to hold -/

/-- A bridge that runs. -/
def Fleet.Runs (f : Fleet) (task : ℕ) (b : Bridge) : Prop :=
  f.bridges.lookup task = some b ∧ b.isFinished = false

/-- The bridges that run are those of the rows that can be read, one for each. -/
structure Converged (f : Fleet) (src : Source) (rows : List AdminDict) : Prop where
  /-- Each row has one bridge, of its configuration. -/
  one : ∀ sid row, (wanted src rows).lookup sid = some row → ∃ task b, f.Runs task b ∧
    b.slot = (src, sid) ∧ b.row.configSignature = row.configSignature ∧
      ∀ task' b', f.Runs task' b' → b'.slot = (src, sid) → task' = task
  /-- There is no other bridge. -/
  only : ∀ task b, f.Runs task b → b.slot.1 = src →
    ((wanted src rows).lookup b.slot.2).isSome = true

namespace SupervisorState

/-- The pass that is going on. -/
def pass (s : SupervisorState) : Option Pass :=
  match s.phase with
  | .reconciling p => some p
  | _ => none

/-- After a pass, the bridges that run are those of its rows. -/
def Reconciles (s s' : SupervisorState) : Prop :=
  ∀ p, s.pass = some p → s'.pass = none → Converged s'.fleet p.src p.rows

/-- The steps that are left for the second half. -/
def rest (s : SupervisorState) : Source → ℕ
  | .server => 3 * (s.fleet.keys .custom).length + 1
  | .custom => 0

/-- The steps that are left of the stop of a bridge. -/
def wait (s : SupervisorState) : Option ℕ → ℕ
  | none => 0
  | some task => if s.fleet.finished task then 1 else 2

/-- The steps that are left of `_tear_down_all`. -/
def work (s : SupervisorState) : ℕ :=
  match s.phase with
  | .tearDown src sids task => 3 * sids.length + s.rest src + s.wait task + 1
  | _ => 0

/-- The supervisor is on its way to the end of `run`: it or the bridge that it awaits can go on, and
less is left then; nothing that happens leaves more. -/
structure Ending (s : SupervisorState) : Prop where
  /-- It stops its bridges, or is through. -/
  phase : s.phase = .ended ∨ ∃ src sids task, s.phase = .tearDown src sids task
  progress : s.phase ≠ .ended → ∃ e s', (e = .advance ∨ ∃ src sids task,
    s.phase = .tearDown src sids (some task) ∧ e = .finish task) ∧ s.step e = some s' ∧
      s'.work < s.work
  /-- Nothing throws it back. -/
  steady : ∀ e s', s.step e = some s' → s'.work ≤ s.work

/-- What holds at any time. -/
structure Ends (s : SupervisorState) : Prop where
  /-- The cancellation is not lost. -/
  ending : s.isCancelled = true → s.Ending
  /-- When `run` is over, so are all bridges. -/
  finished : s.phase = .ended → ∀ task b, s.fleet.bridges.lookup task = some b → b.isFinished = true

/-! ### What may happen -/

/-- The pass has not come to the slot yet, or does not come to it. -/
def ahead (p : Pass) (slot : Slot) : Bool :=
  slot.1 ≠ p.src || match p.stage with
    | .examining todo => slot.2 ∈ todo || ((wanted p.src p.rows).lookup slot.2).isNone
    | .restarting _ row todo =>
      slot.2 = row.id || slot.2 ∈ todo || ((wanted p.src p.rows).lookup slot.2).isNone
    | _ => true

/-- The event may happen. -/
def allowed (s : SupervisorState) : SupervisorEvent → Bool
  | .listed (some rows) => match s.phase with
    | .listing src => decodes src rows
    | _ => true
  | .listed none => true
  -- A bridge that has exited is gone before the pass looks at it, if it would be kept.
  | .advance => s.pass.all fun p => match p.stage with
    | .examining (sid :: _) => ((wanted p.src p.rows).lookup sid).all fun row =>
      (s.fleet.active.lookup (p.src, sid)).all fun e =>
        e.row.configSignature ≠ row.configSignature || !s.fleet.finished e.task
    | _ => true
  | .cancel => s.pass.isNone
  | .finish task => (s.fleet.bridges.lookup task).all fun b => s.pass.all fun p => ahead p b.slot
  | .done _ => true

end SupervisorState

/-! ### The bridges -/

/-- What holds of the bridges at any time; the supervisor may await one that is in no dictionary. -/
structure Fleet.Sound (f : Fleet) (awaited : Option ℕ) : Prop where
  entry : ∀ slot e, f.active.lookup slot = some e → ∃ b, f.bridges.lookup e.task = some b ∧
    b.slot = slot ∧ b.row.configSignature = e.row.configSignature
  /-- A bridge that runs is not lost. -/
  running : ∀ task b, f.Runs task b →
    (∃ e, f.active.lookup b.slot = some e ∧ e.task = task) ∨ awaited = some task
  /-- Bridges are numbered. -/
  numbered : ∀ task b, f.bridges.lookup task = some b → task < f.next
  /-- The bridge that is awaited is there. -/
  known : ∀ task, awaited = some task → ∃ b, f.bridges.lookup task = some b

section Fleet

variable {f : Fleet} {src : Source} {row : BridgeRow} {slot slot' : Slot} {e e' : Entry}
  {task : ℕ} {b : Bridge} {awaited : Option ℕ}

namespace Fleet

theorem finished_eq_false : f.finished task = false ↔
    ∀ b, f.bridges.lookup task = some b → b.isFinished = false := by
  rw [finished]
  cases f.bridges.lookup task <;> simp

theorem not_finished_of_runs (h : f.Runs task b) : ¬ f.finished task = true := by
  intro hfinished
  rw [finished, h.1, Option.any_some, h.2] at hfinished
  exact Bool.false_ne_true hfinished

theorem lookup_evict : (f.evict task slot).active.lookup slot' =
    if slot' = slot ∧ (f.active.lookup slot).any (fun e => e.task = task) = true then none
    else f.active.lookup slot' := by
  rw [evict]
  split_ifs with hany hslot hslot
  · rw [release, hslot.1, AList.lookup_erase]
  · rw [release, AList.lookup_erase_ne fun h => hslot ⟨h, hany⟩]
  · exact absurd hslot.2 hany
  · rfl

theorem bridges_evict : (f.evict task slot).bridges = f.bridges := by
  rw [evict]
  split_ifs <;> rfl

theorem next_evict : (f.evict task slot).next = f.next := by
  rw [evict]
  split_ifs <;> rfl

theorem active_start : (f.start src row).active.lookup slot =
    if slot = (src, row.id) then some { task := f.next, row } else f.active.lookup slot :=
  Table.lookup_insert ..

theorem bridges_start : (f.start src row).bridges.lookup task =
    if task = f.next then some { slot := (src, row.id), row } else f.bridges.lookup task :=
  Table.lookup_insert ..

theorem active_keep : (f.keep slot e row).active.lookup slot' =
    if slot' = slot then some { e with row } else f.active.lookup slot' :=
  Table.lookup_insert ..

theorem lookup_finish {task' : ℕ} : (f.finish task).bridges.lookup task' =
    (f.bridges.lookup task').map fun b =>
      if task' = task then { b with isFinished := true } else b :=
  Table.lookup_update_map ..

theorem lookup_keep {task' : ℕ} : (f.keep slot e row).bridges.lookup task' =
    (f.bridges.lookup task').map fun b => if task' = e.task then
      { b with isRefreshed := b.isRefreshed || e.row.refreshAdvanced row } else b :=
  Table.lookup_update_map ..

theorem runs_finish (h : (f.finish task).Runs task' b) : task' ≠ task ∧ f.Runs task' b := by
  obtain ⟨hlookup, hrunning⟩ := h
  rw [lookup_finish] at hlookup
  obtain ⟨b', hb', rfl⟩ := Option.map_eq_some_iff.1 hlookup
  split_ifs at hrunning with htask
  rw [if_neg htask] at hlookup ⊢
  exact ⟨htask, hb', hrunning⟩

theorem runs_keep (h : (f.keep slot e row).Runs task b) :
    ∃ b', f.Runs task b' ∧ b'.slot = b.slot ∧ b'.row = b.row := by
  obtain ⟨hlookup, hrunning⟩ := h
  rw [lookup_keep] at hlookup
  obtain ⟨b', hb', rfl⟩ := Option.map_eq_some_iff.1 hlookup
  refine ⟨b', ⟨hb', ?_⟩, ?_, ?_⟩
  · split_ifs at hrunning <;> exact hrunning
  · split_ifs <;> rfl
  · split_ifs <;> rfl

namespace Sound

theorem start (h : f.Sound none) (hfree : f.active.lookup (src, row.id) = none) :
    (f.start src row).Sound none := by
  refine ⟨fun slot e he => ?_, fun task b hb => .inl ?_, fun task b hb => ?_, fun _ h => by cases h⟩
  · rw [active_start] at he
    rw [bridges_start]
    split_ifs at he with hslot
    · obtain rfl := Option.some.inj he
      exact ⟨_, if_pos rfl, hslot.symm, rfl⟩
    · obtain ⟨b, hb, hsame⟩ := h.entry slot e he
      have hlt := h.numbered e.task b hb
      exact ⟨b, (if_neg (by omega)).trans hb, hsame⟩
  · obtain ⟨hlookup, hrunning⟩ := hb
    rw [bridges_start] at hlookup
    rw [active_start]
    split_ifs at hlookup with htask
    · obtain rfl := Option.some.inj hlookup
      exact ⟨_, if_pos rfl, htask.symm⟩
    · rcases h.running task b ⟨hlookup, hrunning⟩ with ⟨e, he, hsame⟩ | h
      · refine ⟨e, (if_neg fun hslot => ?_).trans he, hsame⟩
        rw [hslot, hfree] at he
        cases he
      · cases h
  · rw [bridges_start] at hb
    change task < f.next + 1
    split_ifs at hb with htask
    · omega
    · have hlt := h.numbered task b hb
      omega

theorem release (h : f.Sound none) (he : f.active.lookup slot = some e) :
    (f.release slot).Sound (some e.task) := by
  refine ⟨fun slot' e' he' => ?_, fun task b hb => ?_, h.numbered, fun task htask => ?_⟩
  · exact h.entry slot' e' (Table.lookup_of_erase he').2
  · rcases h.running task b hb with ⟨e', he', hsame⟩ | h
    · by_cases hslot : b.slot = slot
      · rw [hslot, he] at he'
        obtain rfl := Option.some.inj he'
        exact .inr (congrArg some hsame)
      · exact .inl ⟨e', (AList.lookup_erase_ne hslot).trans he', hsame⟩
    · cases h
  · obtain ⟨b, hb, -⟩ := h.entry slot e he
    exact ⟨b, Option.some.inj htask ▸ hb⟩

theorem arrive (h : f.Sound (some task)) (hfinished : f.finished task = true) : f.Sound none := by
  refine ⟨h.entry, fun task' b hb => ?_, h.numbered, fun _ h => by cases h⟩
  refine (h.running task' b hb).imp_right fun htask => ?_
  obtain rfl := Option.some.inj htask
  exact absurd hfinished (not_finished_of_runs hb)

theorem keep (h : f.Sound none) (he : f.active.lookup slot = some e)
    (hsame : e.row.configSignature = row.configSignature) : (f.keep slot e row).Sound none := by
  refine ⟨fun slot' e' he' => ?_, fun task b hb => .inl ?_, fun task b hb => ?_,
    fun _ h => by cases h⟩
  · rw [active_keep] at he'
    rw [lookup_keep]
    split_ifs at he' with hslot
    · obtain rfl := Option.some.inj he'
      obtain ⟨b, hb, hslot', hrow⟩ := h.entry slot e he
      rw [hb, Option.map_some, if_pos rfl]
      exact ⟨_, rfl, hslot'.trans hslot.symm, hrow.trans hsame⟩
    · obtain ⟨b, hb, hslot', hrow⟩ := h.entry slot' e' he'
      refine ⟨_, by rw [hb]; rfl, ?_, ?_⟩
      · split_ifs <;> exact hslot'
      · split_ifs <;> exact hrow
  · obtain ⟨b', hb', hslot', -⟩ := runs_keep hb
    rw [active_keep, ← hslot']
    rcases h.running task b' hb' with ⟨e', he', htask⟩ | h
    · split_ifs with hslot
      · rw [hslot, he] at he'
        obtain rfl := Option.some.inj he'
        exact ⟨_, rfl, htask⟩
      · exact ⟨e', he', htask⟩
    · cases h
  · rw [lookup_keep] at hb
    obtain ⟨b', hb', -⟩ := Option.map_eq_some_iff.1 hb
    exact h.numbered task b' hb'

theorem finish (h : f.Sound awaited) (task : ℕ) : (f.finish task).Sound awaited := by
  refine ⟨fun slot e he => ?_, fun task' b hb => ?_, fun task' b hb => ?_, fun task' htask => ?_⟩
  · obtain ⟨b, hb, hslot, hrow⟩ := h.entry slot e he
    rw [lookup_finish]
    refine ⟨_, by rw [hb]; rfl, ?_, ?_⟩
    · split_ifs <;> exact hslot
    · split_ifs <;> exact hrow
  · exact h.running task' b (runs_finish hb).2
  · rw [lookup_finish] at hb
    obtain ⟨b', hb', -⟩ := Option.map_eq_some_iff.1 hb
    exact h.numbered task' b' hb'
  · obtain ⟨b, hb⟩ := h.known task' htask
    rw [lookup_finish, hb]
    exact ⟨_, rfl⟩

theorem evict (h : f.Sound awaited) (hb : f.bridges.lookup task = some b)
    (hfinished : b.isFinished = true) : (f.evict task slot).Sound awaited := by
  refine ⟨fun slot' e he => ?_, fun task' b' hb' => ?_, fun task' b' hb' => ?_,
    fun task' htask => ?_⟩
  · rw [lookup_evict] at he
    rw [bridges_evict]
    split_ifs at he
    exact h.entry slot' e he
  · rw [Runs, bridges_evict] at hb'
    refine (h.running task' b' hb').imp_left fun ⟨e, he, htask⟩ => ?_
    rw [lookup_evict]
    -- What is taken out has finished, and this bridge runs.
    refine ⟨e, (if_neg fun hgone => ?_).trans he, htask⟩
    rw [← hgone.1, he, Option.any_some, decide_eq_true_iff] at hgone
    rw [← htask, hgone.2, hb] at hb'
    obtain rfl := Option.some.inj hb'.1
    exact absurd hb'.2 (by simp [hfinished])
  · rw [bridges_evict] at hb'
    rw [next_evict]
    exact h.numbered task' b' hb'
  · rw [bridges_evict]
    exact h.known task' htask

end Sound

end Fleet

/-! ### The passes -/

/-- The row has a bridge, which runs. -/
def Fleet.Settled (f : Fleet) (src : Source) (sid : String) (row : BridgeRow) : Prop :=
  ∃ e, f.active.lookup (src, sid) = some e ∧ e.row.configSignature = row.configSignature ∧
    f.finished e.task = false

/-- What holds at a stage of a pass. -/
def Fleet.AtStage (f : Fleet) (src : Source) (rows : List AdminDict) : Stage → Prop
  | .decoding => True
  | .removing sids => ∀ sid e, f.active.lookup (src, sid) = some e →
    sid ∈ sids ∨ ((wanted src rows).lookup sid).isSome = true
  | .stopping _ sids => ∀ sid e, f.active.lookup (src, sid) = some e →
    sid ∈ sids ∨ ((wanted src rows).lookup sid).isSome = true
  | .examining todo =>
    (∀ sid e, f.active.lookup (src, sid) = some e → ((wanted src rows).lookup sid).isSome = true) ∧
    ∀ sid row, (wanted src rows).lookup sid = some row → sid ∈ todo ∨ f.Settled src sid row
  | .restarting _ row todo =>
    (∀ sid e, f.active.lookup (src, sid) = some e → ((wanted src rows).lookup sid).isSome = true) ∧
    (wanted src rows).lookup row.id = some row ∧ f.active.lookup (src, row.id) = none ∧
    ∀ sid row', (wanted src rows).lookup sid = some row' →
      sid = row.id ∨ sid ∈ todo ∨ f.Settled src sid row'

variable {rows : List AdminDict} {stage : Stage} {sid : String} {sids todo : List String}

namespace Fleet

theorem mem_keys : sid ∈ f.keys src ↔ ∃ e, f.active.lookup (src, sid) = some e := by
  rw [keys, List.mem_map, ← Option.isSome_iff_exists, AList.lookup_isSome]
  constructor
  · rintro ⟨slot, hmem, rfl⟩
    obtain ⟨hmem, hsrc⟩ := List.mem_filter.1 hmem
    rw [← of_decide_eq_true hsrc]
    exact AList.mem_keys.2 hmem
  · intro hmem
    exact ⟨(src, sid), List.mem_filter.2 ⟨AList.mem_keys.1 hmem, decide_eq_true rfl⟩, rfl⟩

theorem of_evict (h : (f.evict task slot).active.lookup slot' = some e) :
    f.active.lookup slot' = some e := by
  rw [lookup_evict] at h
  split_ifs at h
  exact h

theorem finished_evict {task' : ℕ} : (f.evict task slot).finished task' = f.finished task' := by
  rw [finished, bridges_evict, finished]

/-- A bridge stays settled, unless it is its own end that happens. -/
theorem Settled.finish (h : f.Settled src sid row)
    (hne : ∀ e, f.active.lookup (src, sid) = some e → e.task ≠ task) :
    (f.finish task).Settled src sid row := by
  obtain ⟨e, he, hsame, hrunning⟩ := h
  refine ⟨e, he, hsame, ?_⟩
  rw [finished, lookup_finish]
  rw [finished] at hrunning
  cases hb : f.bridges.lookup e.task with
  | none => rfl
  | some b =>
    rw [hb] at hrunning
    rw [Option.map_some, if_neg (hne e he)]
    exact hrunning

theorem Settled.evict (h : f.Settled src sid row) (hfinished : f.finished task = true) :
    (f.evict task slot).Settled src sid row := by
  obtain ⟨e, he, hsame, hrunning⟩ := h
  refine ⟨e, ?_, hsame, finished_evict.trans hrunning⟩
  rw [lookup_evict, if_neg]
  · exact he
  · rintro ⟨rfl, hany⟩
    rw [he, Option.any_some, decide_eq_true_iff] at hany
    rw [hany, hfinished] at hrunning
    cases hrunning

theorem AtStage.evict (h : f.AtStage src rows stage) (hfinished : f.finished task = true) :
    (f.evict task slot).AtStage src rows stage := by
  cases stage with
  | decoding => trivial
  | removing sids => exact fun sid e he => h sid e (of_evict he)
  | stopping _ sids => exact fun sid e he => h sid e (of_evict he)
  | examining todo =>
    exact ⟨fun sid e he => h.1 sid e (of_evict he),
      fun sid row hrow => (h.2 sid row hrow).imp_right fun h => h.evict hfinished⟩
  | restarting _ row todo =>
    obtain ⟨honly, hrow, hfree, hsettled⟩ := h
    refine ⟨fun sid e he => honly sid e (of_evict he), hrow, ?_, fun sid row' hrow' => ?_⟩
    · rw [lookup_evict, hfree]
      split_ifs <;> rfl
    · exact (hsettled sid row' hrow').imp_right fun h => h.imp_right fun h => h.evict hfinished

/-- A bridge that exits does so ahead of the pass. -/
theorem AtStage.finish (h : f.AtStage src rows stage) (hsound : f.Sound awaited)
    (hb : f.bridges.lookup task = some b)
    (hahead : SupervisorState.ahead { src, rows, stage } b.slot = true) :
    (f.finish task).AtStage src rows stage := by
  have hslot : ∀ {sid e}, f.active.lookup (src, sid) = some e → e.task = task →
      b.slot = (src, sid) := by
    intro sid e he htask
    obtain ⟨b', hb', hslot, -⟩ := hsound.entry _ e he
    rw [htask, hb] at hb'
    obtain rfl := Option.some.inj hb'
    exact hslot
  cases stage with
  | decoding => trivial
  | removing sids => exact h
  | stopping _ sids => exact h
  | examining todo =>
    refine ⟨h.1, fun sid row hrow => (h.2 sid row hrow).elim .inl fun hsettled => ?_⟩
    by_cases hmem : sid ∈ todo
    · exact .inl hmem
    · refine .inr (hsettled.finish fun e he htask => ?_)
      rw [hslot he htask] at hahead
      simp [SupervisorState.ahead, hmem, hrow] at hahead
  | restarting _ row todo =>
    obtain ⟨honly, hrow, hfree, hsettled⟩ := h
    refine ⟨honly, hrow, hfree, fun sid row' hrow' => ?_⟩
    refine (hsettled sid row' hrow').imp_right fun h => h.elim .inl fun hsettled => ?_
    by_cases hmem : sid ∈ todo
    · exact .inl hmem
    · refine .inr (hsettled.finish fun e he htask => ?_)
      rw [hslot he htask] at hahead
      have hid : sid ≠ row.id := fun hid => by
        rw [hid, hfree] at he
        cases he
      simp [SupervisorState.ahead, hmem, hrow', hid] at hahead

theorem finished_start {task : ℕ} (h : f.finished task = false) :
    (f.start src row).finished task = false := by
  rw [finished_eq_false]
  intro b hb
  rw [bridges_start] at hb
  split_ifs at hb
  · exact Option.some.inj hb ▸ rfl
  · exact finished_eq_false.1 h b hb

theorem finished_keep {task : ℕ} : (f.keep slot e row).finished task = f.finished task := by
  rw [finished, lookup_keep, finished, Option.any_map]
  congr 1
  funext b
  change (if _ then _ else _ : Bridge).isFinished = _
  split_ifs <;> rfl

theorem AtStage.start
    (honly : ∀ sid e, f.active.lookup (src, sid) = some e →
      ((wanted src rows).lookup sid).isSome = true)
    (hrow : (wanted src rows).lookup row.id = some row)
    (hsettled : ∀ sid row', (wanted src rows).lookup sid = some row' →
      sid = row.id ∨ sid ∈ todo ∨ f.Settled src sid row') :
    (f.start src row).AtStage src rows (.examining todo) := by
  refine ⟨fun sid e he => ?_, fun sid row' hrow' => ?_⟩
  · rw [active_start] at he
    split_ifs at he with hslot
    · rw [(Prod.mk.inj hslot).2, hrow]
      rfl
    · exact honly sid e he
  · by_cases hid : sid = row.id
    · rw [hid, hrow] at hrow'
      obtain rfl := Option.some.inj hrow'
      refine .inr ⟨_, active_start.trans (if_pos (by rw [hid])), rfl, ?_⟩
      rw [finished_eq_false]
      intro b hb
      rw [bridges_start, if_pos rfl] at hb
      exact Option.some.inj hb ▸ rfl
    · refine ((hsettled sid row' hrow').resolve_left hid).imp_right ?_
      rintro ⟨e, he, hsame, hrunning⟩
      refine ⟨e, ?_, hsame, finished_start hrunning⟩
      exact active_start.trans ((if_neg fun h => hid (Prod.mk.inj h).2).trans he)

/-- The bridge of a row is kept. -/
theorem AtStage.keep (h : f.AtStage src rows (.examining (row.id :: todo)))
    (hrow : (wanted src rows).lookup row.id = some row) (hrunning : f.finished e.task = false) :
    (f.keep (src, row.id) e row).AtStage src rows (.examining todo) := by
  refine ⟨fun sid e' he' => ?_, fun sid row' hrow' => ?_⟩
  · rw [active_keep] at he'
    split_ifs at he' with hslot
    · rw [(Prod.mk.inj hslot).2, hrow]
      rfl
    · exact h.1 sid e' he'
  · by_cases hid : sid = row.id
    · rw [hid, hrow] at hrow'
      obtain rfl := Option.some.inj hrow'
      exact .inr ⟨_, active_keep.trans (if_pos (by rw [hid])), rfl, finished_keep.trans hrunning⟩
    · refine (h.2 sid row' hrow').imp (fun hmem => (List.mem_cons.1 hmem).resolve_left hid) ?_
      rintro ⟨e', he', hsame, hrunning'⟩
      refine ⟨e', ?_, hsame, finished_keep.trans hrunning'⟩
      exact active_keep.trans ((if_neg fun h => hid (Prod.mk.inj h).2).trans he')

/-- The bridge of a row is taken out, for the row has changed. -/
theorem AtStage.release (h : f.AtStage src rows (.examining (row.id :: todo)))
    (hrow : (wanted src rows).lookup row.id = some row) :
    (f.release (src, row.id)).AtStage src rows (.restarting task row todo) := by
  refine ⟨fun sid e he => h.1 sid e (Table.lookup_of_erase he).2, hrow, AList.lookup_erase .., ?_⟩
  intro sid row' hrow'
  by_cases hid : sid = row.id
  · exact .inl hid
  · refine .inr ((h.2 sid row' hrow').imp (fun hmem => (List.mem_cons.1 hmem).resolve_left hid) ?_)
    rintro ⟨e, he, hsame, hrunning⟩
    exact ⟨e, (AList.lookup_erase_ne fun h => hid (Prod.mk.inj h).2).trans he, hsame, hrunning⟩

/-- **When every row has been compared**, the bridges that run are those of the rows. -/
theorem AtStage.converged (h : f.AtStage src rows (.examining [])) (hsound : f.Sound none) :
    Converged f src rows := by
  have hentry : ∀ {task b}, f.Runs task b → ∃ e, f.active.lookup b.slot = some e ∧ e.task = task :=
    fun hruns => (hsound.running _ _ hruns).resolve_right fun hnone => by cases hnone
  refine ⟨fun sid row hrow => ?_, fun task b hruns hsrc => ?_⟩
  · obtain ⟨e, he, hsame, hrunning⟩ := (h.2 sid row hrow).resolve_left List.not_mem_nil
    obtain ⟨b, hb, hslot, hrow'⟩ := hsound.entry _ e he
    refine ⟨e.task, b, ⟨hb, finished_eq_false.1 hrunning b hb⟩, hslot, hrow'.trans hsame, ?_⟩
    intro task' b' hruns hslot'
    obtain ⟨e', he', htask⟩ := hentry hruns
    rw [hslot', he] at he'
    rw [← htask, Option.some.inj he']
  · obtain ⟨e, he, -⟩ := hentry hruns
    rw [show b.slot = (src, b.slot.2) from Prod.ext hsrc rfl] at he
    exact h.1 _ e he

end Fleet

end Fleet

/-! ### The run -/

section Run

variable {s s' : SupervisorState} {f : Fleet} {p : Pass} {event : SupervisorEvent} {src : Source}
  {task : Option ℕ} {sids : List String}

/-- The bridge that the supervisor awaits. -/
def Phase.awaited : Phase → Option ℕ
  | .reconciling p => match p.stage with
    | .stopping task _ => some task
    | .restarting task _ _ => some task
    | _ => none
  | .tearDown _ _ task => task
  | _ => none

/-- `run` is through, or stops all bridges. -/
def Phase.isLeaving : Phase → Bool
  | .tearDown _ _ _ => true
  | .ended => true
  | _ => false

/-- What holds of the bridges where `run` is. -/
def Fleet.AtPhase (f : Fleet) : Phase → Prop
  | .reconciling p => decodes p.src p.rows = true ∧ f.AtStage p.src p.rows p.stage
  | .tearDown src sids _ => ∀ slot e, f.active.lookup slot = some e →
    slot.1 = src ∧ slot.2 ∈ sids ∨ src = .server ∧ slot.1 = .custom
  | .ended => ∀ slot, f.active.lookup slot = none
  | _ => True

namespace SupervisorState

/-- The invariant. -/
structure Inv (s : SupervisorState) : Prop where
  /-- The bridges are accounted for. -/
  sound : s.fleet.Sound s.phase.awaited
  /-- The dictionaries are as the phase has them. -/
  phase : s.fleet.AtPhase s.phase
  /-- A cancellation is not lost. -/
  leaving : s.isCancelled = true → s.phase.isLeaving = true

theorem Inv.endPass (hsound : s.fleet.Sound none) (hcancelled : s.isCancelled = false)
    (src : Source) : (s.endPass src).Inv := by
  cases src <;> exact ⟨hsound, trivial, fun h => absurd (hcancelled.symm.trans h) (by decide)⟩

theorem Inv.toStage {stage : Stage} (hsound : f.Sound (Phase.reconciling { p with stage }).awaited)
    (hdecodes : decodes p.src p.rows = true) (hstage : f.AtStage p.src p.rows stage)
    (hcancelled : s.isCancelled = false) : (s.toStage p f stage).Inv :=
  ⟨hsound, ⟨hdecodes, hstage⟩, fun h => absurd (hcancelled.symm.trans h) (by decide)⟩

theorem reconciles_toStage {stage : Stage} : Reconciles s (s.toStage p f stage) :=
  fun _ _ hnone => by cases hnone

theorem Inv.examine {rows : List AdminDict} {row : BridgeRow} {todo : List String} {stage : Stage}
    (hsound : s.fleet.Sound none) (hdecodes : decodes src rows = true)
    (hstage : s.fleet.AtStage src rows (.examining (row.id :: todo)))
    (hrow : (wanted src rows).lookup row.id = some row) (hcancelled : s.isCancelled = false)
    (hkept : ∀ e, s.fleet.active.lookup (src, row.id) = some e →
      e.row.configSignature = row.configSignature → s.fleet.finished e.task = false) :
    (s.examine ⟨src, rows, stage⟩ row todo).Inv ∧
      Reconciles s (s.examine ⟨src, rows, stage⟩ row todo) := by
  rw [SupervisorState.examine]
  dsimp only
  cases he : s.fleet.active.lookup (src, row.id) with
  | none =>
    refine ⟨.toStage (hsound.start he) hdecodes ?_ hcancelled, reconciles_toStage⟩
    refine .start hstage.1 hrow fun sid row' hrow' => ?_
    exact (hstage.2 sid row' hrow').elim (fun h => (List.mem_cons.1 h).imp_right .inl)
      fun h => .inr (.inr h)
  | some e =>
    dsimp only
    split_ifs with hsame
    · exact ⟨.toStage (hsound.release he) hdecodes (hstage.release hrow) hcancelled,
        reconciles_toStage⟩
    · have hsame := not_not.1 hsame
      exact ⟨.toStage (hsound.keep he hsame) hdecodes (hstage.keep hrow (hkept e he hsame))
        hcancelled, reconciles_toStage⟩

theorem Inv.advancePass (h : s.Inv) (hphase : s.phase = .reconciling p)
    (hallowed : s.allowed .advance = true) (hstep : s.advancePass p = some s') :
    s'.Inv ∧ Reconciles s s' := by
  have hcancelled : s.isCancelled = false := by
    refine Bool.eq_false_iff.2 fun htrue => ?_
    have hleaving := h.leaving htrue
    rw [hphase] at hleaving
    exact Bool.false_ne_true hleaving
  have hsound := h.sound
  obtain ⟨hdecodes, hstage⟩ : s.fleet.AtPhase (.reconciling p) := hphase ▸ h.phase
  have hpass : s.pass = some p := by rw [pass, hphase]
  rw [hphase] at hsound
  rw [allowed, hpass, Option.all_some] at hallowed
  obtain ⟨src, rows, stage⟩ := p
  cases stage with
  | decoding =>
    rw [SupervisorState.advancePass] at hstep
    obtain rfl := Option.some.inj hstep
    dsimp only at hdecodes ⊢
    rw [if_pos hdecodes]
    refine ⟨.toStage hsound hdecodes (fun sid e he => ?_) hcancelled, reconciles_toStage⟩
    exact .inl (Fleet.mem_keys.2 ⟨e, he⟩)
  | removing sids =>
    cases sids with
    | nil =>
      obtain rfl := Option.some.inj hstep
      refine ⟨.toStage hsound hdecodes ⟨fun sid e he => ?_, fun sid row hrow => ?_⟩ hcancelled,
        reconciles_toStage⟩
      · exact (hstage sid e he).resolve_left List.not_mem_nil
      · exact .inl (mem_order hrow)
    | cons sid sids =>
      obtain rfl := Option.some.inj hstep
      dsimp only
      split_ifs with hwanted
      · refine ⟨.toStage hsound hdecodes (fun sid' e he => ?_) hcancelled, reconciles_toStage⟩
        refine (hstage sid' e he).elim (fun hmem => ?_) .inr
        exact (List.mem_cons.1 hmem).elim (fun heq => .inr (heq ▸ hwanted)) .inl
      · cases he : s.fleet.active.lookup (src, sid) with
        | none =>
          refine ⟨.toStage hsound hdecodes (fun sid' e he' => ?_) hcancelled, reconciles_toStage⟩
          refine (hstage sid' e he').imp_left fun hmem => ?_
          refine (List.mem_cons.1 hmem).resolve_left fun heq => ?_
          rw [heq, he] at he'
          cases he'
        | some e =>
          refine ⟨.toStage (hsound.release he) hdecodes (fun sid' e' he' => ?_) hcancelled,
            reconciles_toStage⟩
          obtain ⟨hne, he'⟩ := Table.lookup_of_erase he'
          refine (hstage sid' e' he').imp_left fun hmem => ?_
          exact (List.mem_cons.1 hmem).resolve_left fun heq => hne (by rw [heq])
  | stopping task sids =>
    change (if s.fleet.finished task = true then some _ else none) = some s' at hstep
    split_ifs at hstep with hfinished
    obtain rfl := Option.some.inj hstep
    exact ⟨.toStage (hsound.arrive hfinished) hdecodes hstage hcancelled, reconciles_toStage⟩
  | examining todo =>
    cases todo with
    | nil =>
      obtain rfl := Option.some.inj hstep
      refine ⟨.endPass hsound hcancelled src, fun p' hp' _ => ?_⟩
      obtain rfl := Option.some.inj (hpass.symm.trans hp')
      cases src <;> exact hstage.converged hsound
    | cons sid todo =>
      obtain rfl := Option.some.inj hstep
      dsimp only at hallowed ⊢
      cases hrow : (wanted src rows).lookup sid with
      | none =>
        refine ⟨.toStage hsound hdecodes ⟨hstage.1, fun sid' row hrow' => ?_⟩ hcancelled,
          reconciles_toStage⟩
        refine (hstage.2 sid' row hrow').imp_left fun hmem => ?_
        refine (List.mem_cons.1 hmem).resolve_left fun heq => ?_
        rw [heq, hrow] at hrow'
        cases hrow'
      | some row =>
        obtain ⟨rfl, -⟩ := id_of_byId hrow
        refine Inv.examine hsound hdecodes hstage hrow hcancelled fun e he hsame => ?_
        rw [hrow, Option.all_some, he, Option.all_some] at hallowed
        simpa [hsame] using hallowed
  | restarting task row todo =>
    change (if s.fleet.finished task = true then some _ else none) = some s' at hstep
    split_ifs at hstep with hfinished
    obtain rfl := Option.some.inj hstep
    obtain ⟨honly, hrow, hfree, hsettled⟩ := hstage
    have hsound := hsound.arrive hfinished
    exact ⟨.toStage (hsound.start hfree) hdecodes (.start honly hrow hsettled) hcancelled,
      reconciles_toStage⟩

theorem Inv.advanceTearDown (h : s.Inv) (hphase : s.phase = .tearDown src sids task)
    (hstep : s.advanceTearDown src sids task = some s') : s'.Inv := by
  have hsound := h.sound
  have hactive : s.fleet.AtPhase (.tearDown src sids task) := hphase ▸ h.phase
  rw [hphase] at hsound
  cases task with
  | some task =>
    rw [SupervisorState.advanceTearDown] at hstep
    split_ifs at hstep with hfinished
    obtain rfl := Option.some.inj hstep
    exact ⟨hsound.arrive hfinished, hactive, fun _ => rfl⟩
  | none =>
    cases sids with
    | nil =>
      cases src with
      | server =>
        obtain rfl := Option.some.inj hstep
        refine ⟨hsound, fun slot e he => .inl ?_, fun _ => rfl⟩
        obtain ⟨hsrc, hmem⟩ | ⟨-, hsrc⟩ := hactive slot e he
        · exact absurd hmem List.not_mem_nil
        · exact ⟨hsrc, Fleet.mem_keys.2 ⟨e, by rw [← hsrc]; exact he⟩⟩
      | custom =>
        obtain rfl := Option.some.inj hstep
        refine ⟨hsound, fun slot => Option.eq_none_iff_forall_ne_some.2 fun e he => ?_,
          fun _ => rfl⟩
        obtain ⟨-, hmem⟩ | ⟨hfalse, -⟩ := hactive slot e he
        · exact List.not_mem_nil hmem
        · cases hfalse
    | cons sid sids =>
      obtain rfl := Option.some.inj hstep
      cases he : s.fleet.active.lookup (src, sid) with
      | none =>
        refine ⟨hsound, fun slot e' he' => ?_, fun _ => rfl⟩
        refine (hactive slot e' he').imp_left fun ⟨hsrc, hmem⟩ => ⟨hsrc, ?_⟩
        refine (List.mem_cons.1 hmem).resolve_left fun heq => ?_
        rw [show slot = (src, sid) from Prod.ext hsrc heq, he] at he'
        cases he'
      | some e =>
        refine ⟨hsound.release he, fun slot e' he' => ?_, fun _ => rfl⟩
        obtain ⟨hne, he'⟩ := Table.lookup_of_erase he'
        refine (hactive slot e' he').imp_left fun ⟨hsrc, hmem⟩ => ⟨hsrc, ?_⟩
        exact (List.mem_cons.1 hmem).resolve_left fun heq => hne (Prod.ext hsrc heq)

/-- What happens to the bridges leaves the dictionaries as the phase has them. -/
theorem Inv.of_fleet (h : s.Inv) (hsound : f.Sound s.phase.awaited)
    (hactive : ∀ slot e, f.active.lookup slot = some e → s.fleet.active.lookup slot = some e)
    (hstage : ∀ p, s.phase = .reconciling p → f.AtStage p.src p.rows p.stage) :
    Inv { s with fleet := f } := by
  refine ⟨hsound, ?_, h.leaving⟩
  have hphase := h.phase
  change f.AtPhase s.phase
  cases hp : s.phase with
  | listing src => trivial
  | sleeping => trivial
  | reconciling p =>
    rw [hp] at hphase
    exact ⟨hphase.1, hstage p hp⟩
  | tearDown src sids task =>
    rw [hp] at hphase
    exact fun slot e he => hphase slot e (hactive slot e he)
  | ended =>
    rw [hp] at hphase
    refine fun slot => Option.eq_none_iff_forall_ne_some.2 fun e he => ?_
    exact absurd ((hphase slot).symm.trans (hactive slot e he)) (by simp)

/-- **The invariant is kept**, and a pass that ends has brought the bridges in line. -/
theorem Inv.step (h : s.Inv) (hallowed : s.allowed event = true)
    (hstep : s.step event = some s') : s'.Inv ∧ Reconciles s s' := by
  have hsound := h.sound
  have hrunning : s.phase.isLeaving = false → s.isCancelled = false := by
    refine fun hfalse => Bool.eq_false_iff.2 fun htrue => ?_
    rw [h.leaving htrue] at hfalse
    cases hfalse
  have hsame : ∀ {f : Fleet}, Reconciles s { s with fleet := f } := by
    intro f p hpass hnone
    exact absurd (hpass.symm.trans hnone) (by simp)
  -- A cancellation ends what is going on, which is no pass.
  have htearDown : s.phase.awaited = none → s.pass = none → Inv { s with
      isCancelled := true, phase := .tearDown .server (s.fleet.keys .server) none } ∧
      Reconciles s { s with
        isCancelled := true, phase := .tearDown .server (s.fleet.keys .server) none } := by
    intro hawaited hnone
    refine ⟨⟨hawaited ▸ hsound, ?_, fun _ => rfl⟩, fun p hpass => ?_⟩
    · rintro ⟨src, sid⟩ e he
      cases src with
      | server => exact .inl ⟨rfl, Fleet.mem_keys.2 ⟨e, he⟩⟩
      | custom => exact .inr ⟨rfl, rfl⟩
    · rw [hnone] at hpass
      cases hpass
  cases event with
  | listed rows =>
    rw [SupervisorState.step] at hstep
    cases hphase : s.phase with
    | listing src =>
      rw [hphase] at hstep hsound hrunning
      obtain rfl := Option.some.inj hstep
      refine ⟨?_, fun p hpass => by rw [pass, hphase] at hpass; cases hpass⟩
      cases rows with
      | none => exact .endPass hsound (hrunning rfl) src
      | some rows =>
        rw [allowed, hphase] at hallowed
        refine ⟨hsound, ⟨hallowed, trivial⟩, fun htrue => ?_⟩
        exact absurd ((hrunning rfl).symm.trans htrue) (by decide)
    | _ =>
      rw [hphase] at hstep
      cases hstep
  | advance =>
    rw [SupervisorState.step] at hstep
    cases hphase : s.phase with
    | reconciling p =>
      rw [hphase] at hstep
      exact h.advancePass hphase hallowed hstep
    | sleeping =>
      rw [hphase] at hstep hsound hrunning
      obtain rfl := Option.some.inj hstep
      refine ⟨⟨hsound, trivial, fun htrue => ?_⟩, fun p hpass => ?_⟩
      · exact absurd ((hrunning rfl).symm.trans htrue) (by decide)
      · rw [pass, hphase] at hpass
        cases hpass
    | tearDown src sids task =>
      rw [hphase] at hstep
      refine ⟨h.advanceTearDown hphase hstep, fun p hpass => ?_⟩
      rw [pass, hphase] at hpass
      cases hpass
    | _ =>
      rw [hphase] at hstep
      cases hstep
  | cancel =>
    rw [SupervisorState.step, SupervisorState.cancel] at hstep
    cases hphase : s.phase with
    | listing src =>
      rw [hphase] at hstep
      obtain rfl := Option.some.inj hstep
      exact htearDown (by rw [hphase]; rfl) (by rw [pass, hphase])
    | sleeping =>
      rw [hphase] at hstep
      obtain rfl := Option.some.inj hstep
      exact htearDown (by rw [hphase]; rfl) (by rw [pass, hphase])
    | reconciling p =>
      rw [allowed, pass, hphase] at hallowed
      cases hallowed
    | tearDown src sids task =>
      rw [hphase] at hstep
      dsimp only at hstep
      split_ifs at hstep
      obtain rfl := Option.some.inj hstep
      have hactive := h.phase
      rw [hphase] at hsound hactive
      refine ⟨⟨hsound, hactive, fun _ => rfl⟩, fun p hpass => ?_⟩
      rw [pass, hphase] at hpass
      cases hpass
    | ended =>
      rw [hphase] at hstep
      cases hstep
  | finish task =>
    rw [SupervisorState.step] at hstep
    split_ifs at hstep with hawaits
    obtain rfl := Option.some.inj hstep
    obtain ⟨b, hb⟩ := Option.isSome_iff_exists.1 (Bool.and_eq_true_iff.1 hawaits).2
    refine ⟨h.of_fleet (hsound.finish task) (fun _ _ he => he) fun p hphase => ?_, hsame⟩
    rw [allowed, hb, Option.all_some, pass, hphase, Option.all_some] at hallowed
    have hstage := h.phase
    rw [hphase] at hstage
    exact hstage.2.finish hsound hb hallowed
  | done task =>
    rw [SupervisorState.step] at hstep
    split_ifs at hstep
    obtain ⟨b, hb, rfl⟩ := Option.map_eq_some_iff.1 hstep
    obtain ⟨hb, hfinished⟩ := Option.filter_eq_some_iff.1 hb
    refine ⟨h.of_fleet (hsound.evict hb hfinished) (fun _ _ he => Fleet.of_evict he)
      fun p hphase => ?_, hsame⟩
    have hstage := h.phase
    rw [hphase] at hstage
    refine hstage.2.evict ?_
    rw [Fleet.finished, hb]
    exact hfinished

theorem invariant : supervisor.Invariant (fun s e => s.allowed e = true) Inv where
  init := by
    refine ⟨⟨fun _ _ h => ?_, fun _ _ h => ?_, fun _ _ h => ?_, fun _ h => ?_⟩, trivial,
      fun h => ?_⟩
    · cases h
    · cases h.1
    · cases h
    · cases h
    · cases h
  step h hallowed hstep := (h.step hallowed hstep).1

/-! ### The end of the run -/

theorem length_keys_release {slot : Slot} {src' : Source} :
    ((f.release slot).keys src').length ≤ (f.keys src').length := by
  rw [Fleet.keys, Fleet.keys, List.length_map, List.length_map, Fleet.release, AList.keys_erase]
  exact (List.Sublist.filter _ (@List.erase_sublist _ instBEqOfDecidableEq _ _)).length_le

theorem length_keys_evict {task : ℕ} {slot : Slot} {src' : Source} :
    ((f.evict task slot).keys src').length ≤ (f.keys src').length := by
  rw [Fleet.evict]
  split_ifs
  · exact length_keys_release
  · exact le_rfl

theorem rest_le {s₁ s₂ : SupervisorState}
    (h : (s₂.fleet.keys .custom).length ≤ (s₁.fleet.keys .custom).length) :
    s₂.rest src ≤ s₁.rest src := by
  cases src with
  | server =>
    rw [rest, rest]
    omega
  | custom => exact le_rfl

theorem wait_le : s.wait task ≤ 2 := by
  cases task with
  | none => exact Nat.zero_le 2
  | some task =>
    rw [wait]
    split_ifs <;> omega

/-- Whatever the supervisor does to stop its bridges leaves less to do. -/
theorem work_advanceTearDown (hphase : s.phase = .tearDown src sids task)
    (hstep : s.advanceTearDown src sids task = some s') : s'.work < s.work := by
  have hwork : s.work = 3 * sids.length + s.rest src + s.wait task + 1 := by rw [work, hphase]
  rw [hwork]
  cases task with
  | some task =>
    rw [SupervisorState.advanceTearDown] at hstep
    split_ifs at hstep with hfinished
    obtain rfl := Option.some.inj hstep
    rw [wait, if_pos hfinished]
    exact Nat.lt_of_lt_of_le (Nat.lt_succ_self _) le_rfl
  | none =>
    cases sids with
    | nil =>
      cases src with
      | server =>
        obtain rfl := Option.some.inj hstep
        change 3 * (s.fleet.keys .custom).length + 0 + 0 + 1 <
          3 * 0 + (3 * (s.fleet.keys .custom).length + 1) + 0 + 1
        omega
      | custom =>
        obtain rfl := Option.some.inj hstep
        exact Nat.succ_pos _
    | cons sid sids =>
      obtain rfl := Option.some.inj hstep
      rw [List.length_cons]
      cases he : s.fleet.active.lookup (src, sid) with
      | none =>
        change 3 * sids.length + s.rest src + 0 + 1 < 3 * (sids.length + 1) + s.rest src + 0 + 1
        omega
      | some e =>
        dsimp only
        have hrest : SupervisorState.rest { s with
            fleet := s.fleet.release (src, sid)
            phase := .tearDown src sids (some e.task) } src ≤ s.rest src :=
          rest_le length_keys_release
        have hwait : SupervisorState.wait { s with
            fleet := s.fleet.release (src, sid)
            phase := .tearDown src sids (some e.task) } (some e.task) ≤ 2 := wait_le
        rw [work]
        dsimp only
        omega

theorem finished_finish {task task' : ℕ} (h : f.finished task' = true) :
    (f.finish task).finished task' = true := by
  rw [Fleet.finished] at h
  rw [Fleet.finished, Fleet.lookup_finish]
  cases hb : f.bridges.lookup task' with
  | none =>
    rw [hb] at h
    cases h
  | some b =>
    rw [hb] at h
    rw [Option.map_some, Option.any_some]
    split_ifs
    · rfl
    · exact h

theorem work_of_fleet (hkeys : (f.keys .custom).length ≤ (s.fleet.keys .custom).length)
    (hfinished : ∀ task, s.fleet.finished task = true → f.finished task = true) :
    SupervisorState.work { s with fleet := f } ≤ s.work := by
  rw [work, work]
  cases s.phase with
  | tearDown src sids task =>
    have hrest : SupervisorState.rest { s with fleet := f } src ≤ s.rest src := rest_le hkeys
    have hwait : SupervisorState.wait { s with fleet := f } task ≤ s.wait task := by
      cases task with
      | none => exact le_rfl
      | some task =>
        rw [wait, wait]
        by_cases h : s.fleet.finished task = true
        · rw [if_pos h, if_pos (hfinished task h)]
        · rw [if_neg h]
          split_ifs <;> omega
    change 3 * sids.length + SupervisorState.rest { s with fleet := f } src +
      SupervisorState.wait { s with fleet := f } task + 1 ≤
        3 * sids.length + s.rest src + s.wait task + 1
    omega
  | _ => exact le_rfl

/-- **Once it is cancelled, `run` comes to its end.** -/
theorem Inv.ending (h : s.Inv) (hcancelled : s.isCancelled = true) : s.Ending := by
  have hleaving := h.leaving hcancelled
  cases hphase : s.phase with
  | ended =>
    refine ⟨.inl hphase, fun hne => absurd hphase hne, fun e s' hstep => ?_⟩
    have hended : s'.phase = .ended := by
      cases e with
      | finish task =>
        rw [SupervisorState.step] at hstep
        split_ifs at hstep
        exact Option.some.inj hstep ▸ hphase
      | done task =>
        rw [SupervisorState.step] at hstep
        split_ifs at hstep
        obtain ⟨b, -, rfl⟩ := Option.map_eq_some_iff.1 hstep
        exact hphase
      | cancel =>
        rw [SupervisorState.step, SupervisorState.cancel, hphase] at hstep
        cases hstep
      | _ =>
        rw [SupervisorState.step, hphase] at hstep
        cases hstep
    rw [work, hended]
    exact Nat.zero_le _
  | tearDown src sids task =>
    refine ⟨.inr ⟨src, sids, task, hphase⟩, fun _ => ?_, fun e s' hstep => ?_⟩
    · cases task with
      | none =>
        obtain ⟨s', hstep⟩ : ∃ s', s.advanceTearDown src sids none = some s' := by
          cases sids <;> exact ⟨_, rfl⟩
        exact ⟨.advance, s', .inl rfl, by rw [SupervisorState.step, hphase]; exact hstep,
          work_advanceTearDown hphase hstep⟩
      | some task =>
        by_cases hfinished : s.fleet.finished task = true
        · have hstep : s.advanceTearDown src sids (some task) =
              some { s with phase := .tearDown src sids none } := by
            rw [SupervisorState.advanceTearDown, if_pos hfinished]
          exact ⟨.advance, _, .inl rfl, by rw [SupervisorState.step, hphase]; exact hstep,
            work_advanceTearDown hphase hstep⟩
        -- The bridge that is awaited can finish.
        · obtain ⟨b, hb⟩ := h.sound.known task (by rw [hphase]; rfl)
          have hstep : s.step (.finish task) = some { s with fleet := s.fleet.finish task } := by
            rw [SupervisorState.step, awaits, hphase, hb]
            rfl
          refine ⟨.finish task, _, .inr ⟨src, sids, task, hphase, rfl⟩, hstep, ?_⟩
          have hdone : (s.fleet.finish task).finished task = true := by
            rw [Fleet.finished, Fleet.lookup_finish, hb, Option.map_some, if_pos rfl]
            rfl
          rw [work, work, hphase]
          change 3 * sids.length + _ +
              (if (s.fleet.finish task).finished task = true then 1 else 2) + 1 <
            3 * sids.length + _ + (if s.fleet.finished task = true then 1 else 2) + 1
          rw [if_pos hdone, if_neg hfinished]
          exact Nat.lt_succ_self _
    · cases e with
      | listed rows =>
        rw [SupervisorState.step, hphase] at hstep
        cases hstep
      | advance =>
        rw [SupervisorState.step, hphase] at hstep
        exact (work_advanceTearDown hphase hstep).le
      | cancel =>
        rw [SupervisorState.step, SupervisorState.cancel, hphase] at hstep
        dsimp only at hstep
        split_ifs at hstep
        obtain rfl := Option.some.inj hstep
        rw [work, work, hphase]
        exact le_rfl
      | finish task =>
        rw [SupervisorState.step] at hstep
        split_ifs at hstep
        obtain rfl := Option.some.inj hstep
        exact work_of_fleet le_rfl fun _ => finished_finish
      | done task =>
        rw [SupervisorState.step] at hstep
        split_ifs at hstep
        obtain ⟨b, -, rfl⟩ := Option.map_eq_some_iff.1 hstep
        exact work_of_fleet length_keys_evict fun _ h => Fleet.finished_evict.trans h
  | _ =>
    rw [hphase] at hleaving
    cases hleaving

end SupervisorState

end Run

/-- **The supervisor converges** in every run in which the rows that are polled can be read, no
bridge exits behind a pass, and no cancellation comes while a pass stops a bridge: a pass that ends
has brought the bridges in line with its rows, and once the supervisor is cancelled, `run` ends, and
all bridges with it. -/
theorem supervisor_converges {s : SupervisorState}
    (h : supervisor.Reaches (fun s e => s.allowed e = true) s) :
    s.Ends ∧ ∀ e s', s.allowed e = true → s.step e = some s' → s.Reconciles s' := by
  have hinv := SupervisorState.invariant.of_reaches h
  refine ⟨⟨hinv.ending, fun hended task b hb => ?_⟩, fun e s' hallowed hstep =>
    (hinv.step hallowed hstep).2⟩
  have hsound := hinv.sound
  have hactive := hinv.phase
  rw [hended] at hsound hactive
  by_contra hrunning
  rcases hsound.running task b ⟨hb, Bool.eq_false_iff.2 hrunning⟩ with ⟨e, he, -⟩ | hawaited
  · exact absurd ((hactive b.slot).symm.trans he) (by simp)
  · cases hawaited

namespace Sample

/-- The row of a server. -/
def cityRow : AdminDict :=
  { serverId := some "city", transport := some "sse", authKind := some "none" }

/-- Two polls of the servers with one of the custom agents between them, and the stop of the bridge,
whose command has changed. -/
def changedPolls : List SupervisorEvent :=
  [.listed (some [cityRow]), .advance, .advance, .advance, .advance,
    .listed (some []), .advance, .advance, .advance, .advance,
    .listed (some [{ cityRow with command := some "serve" }]),
    .advance, .advance, .advance, .advance]

/-- The bridge is restarted, and the supervisor cancelled in its sleep. -/
def cancelled : List SupervisorEvent :=
  changedPolls ++ [.finish 0, .done 0, .advance, .advance, .listed none, .cancel, .advance,
    .finish 1, .advance, .advance, .advance]

end Sample

theorem supervisor_converges_cancelled :
    ∃ s, supervisor.run SupervisorState.allowed supervisor.init Sample.cancelled = some s ∧
      s.isCancelled = true ∧ s.Ends := by
  have hrun : (supervisor.run SupervisorState.allowed supervisor.init Sample.cancelled).map
      (fun s => s.isCancelled) = some true := by decide +kernel
  obtain ⟨s, hs, hcancelled⟩ := Option.map_eq_some_iff.1 hrun
  exact ⟨s, hs, hcancelled, (supervisor_converges (.of_run (fun _ _ h => h) hs)).1⟩

/-- **A cancellation is lost** that comes while a pass stops a bridge: the pass goes on. -/
theorem supervisor_loses_cancellation : ¬ ∀ s, supervisor.Reaches (fun _ _ => True) s →
    s.Ends ∧ ∀ e s', s.step e = some s' → s.Reconciles s' := by
  intro hall
  have hrun : (supervisor.run (fun _ _ => true) supervisor.init
      (Sample.changedPolls ++ [.cancel])).map
      (fun s => (s.isCancelled, s.phase.isLeaving)) = some (true, false) := by decide +kernel
  obtain ⟨s, hs, hread⟩ := Option.map_eq_some_iff.1 hrun
  obtain ⟨hcancelled, hgoes⟩ := Prod.mk.inj hread
  have hends := (hall s (.of_run (fun _ _ _ => trivial) hs)).1.ending hcancelled
  rcases hends.phase with hphase | ⟨src, sids, task, hphase⟩
  · rw [hphase] at hgoes
    cases hgoes
  · rw [hphase] at hgoes
    cases hgoes

end Backplane.Mcp
