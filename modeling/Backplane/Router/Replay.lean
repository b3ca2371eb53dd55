import Backplane.Router.Reachable

/-!
# What a retry is told

When a task has ended its caller is sent a Result once.  A request that is made again after that
hits the row, and is answered with a Result that is read off the row.

* `resultSent`, `Ending` : the events that bring a task to its end, and the Result that is sent for
  each.
* `telling` : coroutines send no other Results, and say what they end tasks with.
* `Stored` : what a row keeps of its ending.
* `FannedOut`, `Replays` : the Result that was sent for a task, and that a retry is told the same.
* `replays_iff` : it is, exactly when the agent that the task was admitted for reported its end.
* `cancelled_replay_differs` : the retry of a task that was cancelled is told something else.
-/

namespace Backplane

open Concur Prog

/-! ### Endings and their Results -/

/-- The Result of a task that was failed. -/
def failureResult (row : TaskRow) (status : TaskStatus) (c : Cause) : ResultFrame where
  header := .router
  taskId := row.taskId
  parentTaskId := row.parentTaskId
  status := status
  statusCode := c.statusCode.getD 0
  error := c.error

/-- The Result that a transition of the router is followed by. -/
def transitionResult (row : TaskRow) (c : Cause) : TaskState → Option ResultFrame
  | .cancelled => some (cancelledResult row c.reason)
  | .failed => some (failureResult row .failed c)
  | .timedOut => some (failureResult row .timedOut c)
  | _ => none

/-- The Result that an event is followed by. -/
def resultSent : Event Act → Option ResultFrame
  | ⟨.complete f a, .done _ row⟩ => some
    { f with header := { f.header with agentId := a }, parentTaskId := row.parentTaskId }
  | ⟨.transition _ new c, .done _ row⟩ => transitionResult row c new
  | _ => none

/-- The event brings the task, which was open, to its end. -/
def Ending (t : TaskId) : Event Act → Prop
  | ⟨.complete f _, .done prev _⟩ => f.taskId = t ∧ prev.isTerminal = false
  | ⟨.transition t' new _, .done prev _⟩ =>
    t' = t ∧ prev.isTerminal = false ∧ new.isTerminal = true
  | _ => False

/-- The agent that the task was admitted for reports its end: it sends a Result itself, or the task
is one of the router and fails. -/
def ReportedByAgent : Event Act → Prop
  | ⟨.complete _ a, .done _ row⟩ => row.agentId = a
  | ⟨.transition _ new _, .done _ row⟩ => new ≠ .cancelled ∧ row.agentId = Header.router.agentId
  | _ => False

/-- What transitions record. -/
def CauseOf (c : Cause) : TaskState → Prop
  | .succeeded => False
  | .failed | .timedOut => c.statusCode.isSome = true ∧ c.output = none
  | _ => c.statusCode = none ∧ c.output = none ∧ c.error = none

/-! ### Coroutines -/

/-- Only Results of endings are sent. -/
def Telling.ok : {β : Type} → (ResultFrame → Prop) → Act β → Prop
  | _, q, .deliver _ (.result f) => q f
  | _, _, .transition _ new c => CauseOf c new
  | _, _, _ => True

/-- The discipline of sending Results; what is known is the Results that may be sent. -/
def telling : Discipline Act (ResultFrame → Prop) where
  ok q a := Telling.ok q a
  ans _ _ := True
  next q a b f := q f ∨ resultSent ⟨a, b⟩ = some f

section

variable {cfg : Config} {q : ResultFrame → Prop} {α : Type} {p : Coroutine α} {t : TaskId}
  {u : UserId} {a : AgentId} {row : TaskRow}

theorem telling_accumulates : telling.Accumulates := fun _ _ _ _ => Or.inl

/-- The tags of the actions that have to do with Results. -/
def tellingTagsSpecial : List Tag :=
  .deliver :: [.queued, .running, .waitingChildren, .succeeded, .failed, .cancelled,
    .timedOut].map .transition

/-- A program that ends nothing and sends no Result. -/
theorem Uses.telling {T : List Tag} (h : Uses p T) (hT : ∀ g ∈ T, g ∉ tellingTagsSpecial) :
    telling.Keeps (fun _ => True) p := by
  refine .of_only (Only.mono h fun x hx q _ => ⟨?_, fun _ _ => trivial⟩)
  have hg := hT _ hx
  cases x with
  | deliver => exact absurd (by simp [Act.tag, tellingTagsSpecial]) hg
  | transition t new c => cases new <;> exact absurd (by simp [Act.tag, tellingTagsSpecial]) hg
  | _ => trivial

theorem telling_deliver {dst : AgentId} {f : Frame} (hf : ∀ r, f = .result r → q r) :
    telling.Obeys q (deliverQuietly dst f) fun _ _ => True := by
  refine Discipline.obeys_perform_bind.2 ⟨?_, fun _ _ => trivial⟩
  cases f with
  | result r => exact hf r rfl
  | _ => trivial

theorem telling_completeTask (f : ResultFrame) :
    telling.Obeys q (completeTask f a) fun _ _ => True := by
  refine Discipline.obeys_perform_bind.2 ⟨trivial, fun out _ => ?_⟩
  cases out with
  | done prev row =>
    refine Discipline.obeys_perform_bind.2 ⟨trivial, fun _ _ => telling_deliver ?_⟩
    rintro r ⟨⟩
    exact .inl (.inr rfl)
  | _ => trivial

theorem telling_cancelOne (reason initiator : String) :
    telling.Obeys q (cancelOne reason initiator t) fun q' b =>
      ∀ row ∈ b, q' (cancelledResult row reason) := by
  refine Discipline.obeys_perform_bind.2 ⟨⟨rfl, rfl, rfl⟩, fun out _ => ?_⟩
  cases out with
  | done prev row =>
    refine Discipline.obeys_perform_bind.2 ⟨trivial, fun _ _ => ?_⟩
    rintro row' ⟨⟩
    exact .inl (.inr rfl)
  | _ => exact fun _ hrow => (by cases hrow)

theorem telling_cancelAll (reason initiator : String) (ts : List TaskId) :
    telling.Obeys q (cancelAll reason initiator ts) fun _ _ => True := by
  -- the rows that the first loop has cancelled are told in the second
  refine Discipline.obeys_bind.2 ((Discipline.obeys_collect
    (fun _ bs q' => ∀ row ∈ bs, q' (cancelledResult row reason)) ?_ [] (by simp)).mono
      fun q₁ plan hplan => ?_)
  · intro x _ bs q₁ hbs
    refine ((telling_cancelOne reason initiator).le telling_accumulates).mono ?_
    rintro q₂ b ⟨hle, hb⟩ row hrow
    rcases List.mem_append.1 hrow with hrow | hrow
    · exact hle _ (hbs row hrow)
    · exact hb row (by simpa using hrow)
  · rw [List.nil_append] at hplan
    refine Discipline.obeys_bind.2 ((Discipline.obeys_each_le telling_accumulates
      fun row hrow q₂ hle => ?_).mono fun _ _ _ => trivial)
    refine Discipline.obeys_bind.2 ((telling_deliver ?_).mono fun _ _ _ => telling_deliver ?_)
    · rintro r ⟨⟩
      exact hle _ (hplan row hrow)
    · exact fun r hr => (by cases hr)

theorem telling_failOwned (x : Failure) :
    telling.Obeys q (failOwned t u x) fun _ _ => True := by
  have hcause : CauseOf x.cause x.terminalState.state := by
    cases hstate : x.terminalState <;> exact ⟨rfl, rfl⟩
  refine Discipline.obeys_perform_bind.2 ⟨hcause, fun out _ => ?_⟩
  cases out with
  | done prev row =>
    have hsent : resultSent ⟨.transition t x.terminalState.state x.cause, .done prev row⟩ =
        some (failedResult row x) := by
      cases hstate : x.terminalState <;>
        simp [resultSent, transitionResult, FailureState.state, failureResult, failedResult,
          Failure.cause, FailureState.status, hstate]
    refine Discipline.obeys_perform_bind.2 ⟨trivial, fun _ _ => ?_⟩
    have hsubtree : ∀ q', telling.Obeys q' (cancelSubtree t u x.terminalState.cascadeReason)
        fun _ _ => True := fun q' => Discipline.obeys_perform_bind.2 ⟨trivial, fun _ _ =>
      Discipline.obeys_bind.2 ((telling_cancelAll _ _ _).mono fun _ _ _ => trivial)⟩
    refine (hsubtree _).bind_le telling_accumulates fun q' _ hle _ => ?_
    unfold notifyParentOwner
    cases row.parentTaskId with
    | none => trivial
    | some parent =>
      refine Discipline.obeys_perform_bind.2 ⟨trivial, fun owner _ => ?_⟩
      cases owner with
      | none => trivial
      | some owner =>
        refine telling_deliver ?_
        rintro r ⟨⟩
        exact .inl (hle _ (.inl (.inr hsent)))
  | _ => trivial

theorem telling_safeFail (code : ℕ) (reason : String) (error : Json) :
    telling.Obeys q (safeFail t u code reason error) fun _ _ => True := by
  have hmiss : ∀ q : ResultFrame → Prop, telling.next q Act.fault false = q := by
    intro q
    funext f
    have hnone : resultSent ⟨Act.fault, false⟩ = none := rfl
    simp [telling, hnone]
  refine Discipline.obeys_bind.2 ((Discipline.Obeys.interruptible
    (fun q' => ⟨trivial, hmiss q'⟩) (telling_failOwned _)).mono fun q₁ out _ => ?_)
  cases out with
  | some _ => trivial
  | none =>
    refine Discipline.obeys_perform_bind.2 ⟨trivial, fun hit _ => ?_⟩
    cases hit with
    | true => trivial
    | false => exact Discipline.obeys_perform_bind.2 ⟨trivial, fun _ _ => trivial⟩

theorem telling_keeps (cfg : Config) : KeepsTasks cfg telling fun _ => True where
  plain _ hx := Uses.telling (T := plainTags) (only_perform.2 hx) (by decide)
  progress _ _ _ _ := ⟨trivial, fun _ _ => trivial⟩
  complete f _ _ _ := telling_completeTask f
  cancel _ _ reason initiator _ _ := Discipline.obeys_perform_bind.2
    ⟨trivial, fun _ _ => telling_cancelAll reason initiator _⟩
  fail := keeps_failTask (fun _ _ _ => ⟨trivial, fun _ _ => trivial⟩)
    fun _ _ x _ _ => telling_failOwned x
  admission f _ := keeps_admitTask_of_accepted f
    (fun _ hx => Uses.telling (T := entryTags) (only_perform.2 hx) (by decide))
    (fun _ _ _ _ => ⟨⟨rfl, rfl, rfl⟩, fun _ _ => trivial⟩)
    (fun _ _ => (uses_deliverFrame _ _).telling (by decide))
    fun _ _ code reason error _ _ => telling_safeFail code reason error

end

/-! ### What a row keeps of its ending -/

/-- The outcome columns of the row are empty. -/
def TaskRow.Blank (r : TaskRow) : Prop := r.statusCode = none ∧ r.output = none ∧ r.error = none

/-- The row is as the event has left it, with the outcome of the event. -/
def Stored (db : Db) : Event Act → Prop
  | ⟨.complete f _, .done _ row⟩ => db.tasks.lookup f.taskId = some row ∧
    row.taskId = f.taskId ∧ row.state = stateFromStatus f.status ∧
    row.statusCode = some f.statusCode ∧ row.output = f.output ∧ row.error = f.error
  | ⟨.transition t new c, .done _ row⟩ => db.tasks.lookup t = some row ∧ row.taskId = t ∧
    row.state = new ∧ row.statusCode = c.statusCode ∧ row.output = c.output ∧ row.error = c.error
  | _ => True

/-- Open tasks have no outcome yet. -/
def BlankWhileOpen (db : Db) : Prop :=
  ∀ t r, db.tasks.lookup t = some r → r.state.isTerminal = false → r.Blank

section

variable {named : List TaskId} {db db' : Db} {t : TaskId} {x y : Event Act}

theorem TaskRow.Blank.moved {r : TaskRow} (h : r.Blank) (new : TaskState) (c : Cause) :
    (r.moved new c).statusCode = c.statusCode ∧ (r.moved new c).output = c.output ∧
      (r.moved new c).error = c.error := by
  obtain ⟨hcode, houtput, herror⟩ := h
  refine ⟨?_, ?_, ?_⟩
  · rw [TaskRow.moved, hcode]
    cases c.statusCode <;> rfl
  · rw [TaskRow.moved, houtput]
    cases c.output <;> rfl
  · rw [TaskRow.moved, herror]
    cases c.error <;> rfl

/-- What a transition to an open state records. -/
theorem CauseOf.blank {c : Cause} {new : TaskState} (h : CauseOf c new)
    (hopen : new.isTerminal = false) : c.statusCode = none ∧ c.output = none ∧ c.error = none := by
  cases new with
  | succeeded | failed | cancelled | timedOut => cases hopen
  | _ => exact h

/-- An update of one row leaves open tasks without an outcome, if it does so to this one. -/
theorem BlankWhileOpen.update (h : BlankWhileOpen db) {f : TaskRow → TaskRow} {r₀ : TaskRow}
    (hr₀ : db.tasks.lookup t = some r₀)
    (hf : (f r₀).state.isTerminal = false → (f r₀).Blank) : BlankWhileOpen (db.updateTask t f) := by
  intro t' r hr hopen
  have hlookup := Table.lookup_update db.tasks t t' f
  rw [show AList.lookup t' (db.tasks.update t f) = some r from hr, hr₀] at hlookup
  split_ifs at hlookup
  · obtain rfl := Option.some.inj hlookup
    exact hf hopen
  · exact h t' r hlookup.symm hopen

/-- Open tasks stay without an outcome. -/
theorem Effect.blank (h : Effect named db x db') (hblank : BlankWhileOpen db)
    (hcause : ∀ t new c out, x = ⟨.transition t new c, out⟩ → CauseOf c new) :
    BlankWhileOpen db' := by
  cases h with
  | @create f caller d now root newId y hnew =>
    intro t r hr hopen
    have hlookup := Table.lookup_insert db.tasks newId t (f.row caller d now root newId)
    rw [show AList.lookup t (db.tasks.insert newId _) = some r from hr] at hlookup
    split_ifs at hlookup
    · obtain rfl := Option.some.inj hlookup
      exact ⟨rfl, rfl, rfl⟩
    · exact hblank t r hlookup.symm hopen
  | @move t new c r hr ha =>
    refine hblank.update hr fun hopen => ?_
    have hmoved := (hblank t r hr (allowed_not_isTerminal ha)).moved new c
    obtain ⟨hcode, houtput, herror⟩ := (hcause t new c _ rfl).blank hopen
    exact ⟨hmoved.1.trans hcode, hmoved.2.1.trans houtput, hmoved.2.2.trans herror⟩
  | @result f r hr ha =>
    refine hblank.update hr fun hopen => ?_
    rw [TaskRow.moved_state, isTerminal_stateFromStatus] at hopen
    cases hopen
  | forceFail hr => exact hblank.update hr fun hopen => (by cases hopen)
  | @handOver f t r hr hu ho =>
    have hrow : r.Blank := hblank t r hr ho
    exact hblank.update hr fun _ => hrow
  | _ => exact hblank

/-- An ending stores its outcome. -/
theorem Effect.stored (h : Effect named db x db') (hblank : BlankWhileOpen db)
    (hkey : ∀ {t r}, db.tasks.lookup t = some r → r.taskId = t) (hx : Ending t x) :
    Stored db' x := by
  have hupdate : ∀ {t r} {f : TaskRow → TaskRow}, db.tasks.lookup t = some r →
      (db.updateTask t f).tasks.lookup t = some (f r) := by
    intro t r f hr
    exact (Table.lookup_update db.tasks t t f).trans (by rw [if_pos rfl, hr]; rfl)
  cases h with
  | @move t new c r hr ha =>
    have hid : r.taskId = t := hkey hr
    have hmoved := (hblank t r hr (allowed_not_isTerminal ha)).moved new c
    exact ⟨hupdate hr, hid, rfl, hmoved⟩
  | @result f r hr ha =>
    have hmoved := (hblank f.taskId r hr (allowed_not_isTerminal ha)).moved
      (stateFromStatus f.status) (f.cause r.activeAgentId)
    have hid : r.taskId = f.taskId := hkey hr
    exact ⟨hupdate hr, hid, rfl, hmoved⟩
  | @noop t c r hr =>
    obtain ⟨-, hopen, hended⟩ := hx
    cases hopen.symm.trans hended
  | @repeated f r hr hs =>
    obtain ⟨-, hopen⟩ := hx
    rw [hs, isTerminal_stateFromStatus] at hopen
    cases hopen
  | silent hsilent =>
    obtain ⟨x, out⟩ := x
    cases x with
    | complete f reporter =>
      cases out with
      | done prev row => exact hsilent.elim
      | _ => exact hx.elim
    | transition t' new c =>
      cases out with
      | done prev row => exact hsilent.elim
      | _ => exact hx.elim
    | _ => exact hx.elim
  | _ => exact hx.elim

/-- A row that has ended stays. -/
theorem Effect.keeps_ended (h : Effect named db y db') {r : TaskRow}
    (hr : db.tasks.lookup t = some r) (hended : r.state.isTerminal = true) :
    db'.tasks.lookup t = some r := by
  obtain ⟨r', hr', hlater⟩ := h.later hr
  rw [hr', hlater.ended hended]

/-- What a row keeps stays. -/
theorem Effect.stored_of_stored (h : Effect named db y db') (hx : Ending t x)
    (hstored : Stored db x) : Stored db' x := by
  obtain ⟨x, out⟩ := x
  cases x with
  | complete f reporter =>
    cases out with
    | done prev row =>
      obtain ⟨hrow, hid, hstate, hrest⟩ := hstored
      have hended : row.state.isTerminal = true := by rw [hstate, isTerminal_stateFromStatus]
      exact ⟨h.keeps_ended hrow hended, hid, hstate, hrest⟩
    | _ => trivial
  | transition t' new c =>
    cases out with
    | done prev row =>
      obtain ⟨hrow, hid, hstate, hrest⟩ := hstored
      have hended : row.state.isTerminal = true := by rw [hstate, hx.2.2]
      exact ⟨h.keeps_ended hrow hended, hid, hstate, hrest⟩
    | _ => trivial
  | _ => trivial

end

/-! ### Every run -/

/-- The Result `f` was sent for the task, by the coroutine that brought it to its end with `x`. -/
def FannedOut (log : Log Act) (t : TaskId) (x : Event Act) (f : ResultFrame) : Prop :=
  ∃ i dst b, (i, x) ∈ log ∧ Ending t x ∧ resultSent x = some f ∧
    (i, ⟨.deliver dst (.result f), b⟩) ∈ log

/-- Two Results tell the same. -/
structure ResultFrame.Agrees (r f : ResultFrame) : Prop where
  taskId : r.taskId = f.taskId
  agentId : r.header.agentId = f.header.agentId
  status : r.status = f.status
  statusCode : r.statusCode = f.statusCode
  output : r.output = f.output
  error : r.error = f.error

/-- Whatever request hits the row of the task is told what `f` tells. -/
def Replays (db : Db) (t : TaskId) (f : ResultFrame) : Prop :=
  ∃ row, db.tasks.lookup t = some row ∧
    ∀ request, ∃ r, (idempotentAdmitResult row request).replayResult = some r ∧ r.Agrees f

/-- What holds of a run. -/
structure ReplayInv (s : Router) (log : Log Act) : Prop where
  /-- Open tasks have no outcome. -/
  blank : BlankWhileOpen s.db
  /-- A Result is sent for an ending, or where a task was found at its end. -/
  sent : ∀ i dst f b, (i, ⟨.deliver dst (.result f), b⟩) ∈ log →
    ∃ x, (i, x) ∈ log ∧ resultSent x = some f
  /-- Transitions record what they should. -/
  causes : ∀ i t new c b, (i, ⟨.transition t new c, b⟩) ∈ log → CauseOf c new
  /-- What was ended is stored. -/
  stored : ∀ i x t, (i, x) ∈ log → Ending t x → Stored s.db x

/-- The Results that a coroutine may send are those of its events. -/
def Telling.Holds (q : ResultFrame → Prop) (i : ℕ) (log : Log Act) : Prop :=
  ∀ f, q f → ∃ x, (i, x) ∈ log ∧ resultSent x = some f

section

variable {cfg : Config} {s s' : Router} {β : Type} {a : Act β} {e : Env} {b : β} {t : TaskId}
  {x : Event Act} {log : Log Act} {i j : ℕ} {q : ResultFrame → Prop} {f : ResultFrame}

theorem Telling.Holds.append (h : Telling.Holds q j log) (y : ℕ × Event Act) :
    Telling.Holds q j (log ++ [y]) := by
  intro f hf
  obtain ⟨x, hx, hsent⟩ := h f hf
  exact ⟨x, List.mem_append_left _ hx, hsent⟩

theorem ReplayInv.exec (h : ReplayInv s log) (hw : Wf cfg s.db) (hq : Telling.Holds q i log)
    (hok : telling.ok q a) (he : Act.exec cfg a e s = some (s', b)) :
    ReplayInv s' (log ++ [(i, ⟨a, b⟩)]) := by
  have heffect := (Act.exec_effect he).1
  refine ⟨heffect.blank h.blank ?_, ?_, ?_, ?_⟩
  · rintro t new c out heq
    cases heq
    exact hok
  · intro j dst f out hmem
    rcases List.mem_append.1 hmem with hmem | hmem
    · obtain ⟨x, hx, hsent⟩ := h.sent j dst f out hmem
      exact ⟨x, List.mem_append_left _ hx, hsent⟩
    · cases List.mem_singleton.1 hmem
      exact (hq.append _) f hok
  · intro j t new c out hmem
    rcases List.mem_append.1 hmem with hmem | hmem
    · exact h.causes j t new c out hmem
    · cases List.mem_singleton.1 hmem
      exact hok
  · intro j x t hmem hx
    rcases List.mem_append.1 hmem with hmem | hmem
    · exact heffect.stored_of_stored hx (h.stored j x t hmem hx)
    · cases List.mem_singleton.1 hmem
      exact heffect.stored h.blank hw.key hx

theorem sound_telling (cfg : Config) (g : Guard Act Env Router Call Ret) (d : Deployment) :
    Sound (router cfg) g telling (fun _ _ => False) d.boot ReplayInv
      fun i _ q _ log => Telling.Holds q i log where
  init := ⟨fun _ _ hr => (by cases hr), fun _ _ _ _ hm => absurd hm (by simp),
    fun _ _ _ _ _ hm => absurd hm (by simp), fun _ _ _ hm => absurd hm (by simp)⟩
  start _ _ _ := fun _ hf => hf.elim
  step hrun _ _ he hinv hq hok := by
    refine ⟨trivial, hinv.exec (wf_of_run hrun) hq hok he, ?_⟩
    rintro f (hf | hf)
    · exact hq.append _ f hf
    · exact ⟨_, List.mem_append_right _ (List.mem_singleton_self _), hf⟩
  frame _ _ _ _ _ _ _ _ _ _ _ hq := hq.append _

variable {g : Guard Act Env Router Call Ret} {d : Deployment} {P : Pool Act Router Call Ret}

theorem replayInv_of_run (h : Run (router cfg) g (.init d.boot) P) :
    ReplayInv P.shared P.log :=
  ((sound_telling cfg g d).of_run
    (fun c => (telling_keeps cfg).body c (fun _ => False) trivial) h).1

/-- What a retry is told of a row, read off the row. -/
theorem replays_iff_of_row {db : Db} {row : TaskRow} {status : TaskStatus}
    (hrow : db.tasks.lookup t = some row) (hstatus : statusFromState row.state = some status) :
    Replays db t f ↔ row.taskId = f.taskId ∧ row.agentId = f.header.agentId ∧ status = f.status ∧
      row.statusCode.getD (defaultTerminalStatusCode status) = f.statusCode ∧
      row.output = f.output ∧ row.error = f.error := by
  have hreplay : ∀ request, ∃ r, (idempotentAdmitResult row request).replayResult = some r ∧
      (r.Agrees f ↔ row.taskId = f.taskId ∧ row.agentId = f.header.agentId ∧ status = f.status ∧
        row.statusCode.getD (defaultTerminalStatusCode status) = f.statusCode ∧
        row.output = f.output ∧ row.error = f.error) := by
    intro request
    rw [idempotentAdmitResult, hstatus]
    exact ⟨_, rfl, fun h => ⟨h.1, h.2, h.3, h.4, h.5, h.6⟩,
      fun ⟨h₁, h₂, h₃, h₄, h₅, h₆⟩ => ⟨h₁, h₂, h₃, h₄, h₅, h₆⟩⟩
  constructor
  · rintro ⟨row', hrow', hall⟩
    obtain rfl := Option.some.inj (hrow.symm.trans hrow')
    -- some request is made
    obtain ⟨r, hr, hagrees⟩ := hall (Sample.spawn "" "")
    obtain ⟨r', hr', hiff⟩ := hreplay (Sample.spawn "" "")
    obtain rfl := Option.some.inj (hr.symm.trans hr')
    exact hiff.1 hagrees
  · intro h
    refine ⟨row, hrow, fun request => ?_⟩
    obtain ⟨r, hr, hiff⟩ := hreplay request
    exact ⟨r, hr, hiff.2 h⟩

/-- A failure is told again as it was, but for who reports it. -/
theorem replays_failure_iff {db : Db} {row : TaskRow} {status : TaskStatus} {c : Cause}
    (hrow : db.tasks.lookup t = some row) (hstatus : statusFromState row.state = some status)
    (hcode : row.statusCode = c.statusCode) (houtput : row.output = c.output)
    (herror : row.error = c.error) (hcause : c.statusCode.isSome = true ∧ c.output = none) :
    Replays db t (failureResult row status c) ↔ row.agentId = Header.router.agentId := by
  obtain ⟨code, hcode'⟩ := Option.isSome_iff_exists.1 hcause.1
  rw [replays_iff_of_row hrow hstatus]
  refine ⟨fun h => h.2.1, fun h => ⟨rfl, h, rfl, ?_, houtput.trans hcause.2, herror⟩⟩
  rw [failureResult, hcode, hcode', Option.getD_some, Option.getD_some]

/-- What a retry is told of a row that has kept its ending. -/
theorem replays_iff_of_stored {db : Db} (hx : Ending t x) (hsent : resultSent x = some f)
    (hstored : Stored db x)
    (hcause : ∀ t new c b, x = ⟨.transition t new c, b⟩ → CauseOf c new) :
    Replays db t f ↔ ReportedByAgent x := by
  obtain ⟨x, out⟩ := x
  cases x with
  | complete f' reporter =>
    cases out with
    | done prev row =>
      obtain ⟨rfl, -⟩ := hx
      obtain rfl := Option.some.inj hsent
      obtain ⟨hrow, hid, hstate, hcode, houtput, herror⟩ := hstored
      have hstatus : statusFromState row.state = some f'.status := by
        rw [hstate, statusFromState_stateFromStatus]
      rw [replays_iff_of_row hrow hstatus]
      refine ⟨fun h => h.2.1, fun h => ⟨hid, h, rfl, ?_, houtput, herror⟩⟩
      rw [hcode, Option.getD_some]
    | _ => exact hx.elim
  | transition t' new c =>
    cases out with
    | done prev row =>
      obtain ⟨rfl, -, hended⟩ := hx
      obtain ⟨hrow, hid, rfl, hcode, houtput, herror⟩ := hstored
      have hcause := hcause t' row.state c _ rfl
      have hsent : transitionResult row c row.state = some f := hsent
      change _ ↔ row.state ≠ .cancelled ∧ row.agentId = Header.router.agentId
      cases hstate : row.state with
      | succeeded =>
        rw [hstate] at hcause
        exact hcause.elim
      | cancelled =>
        rw [hstate] at hcause hsent
        obtain rfl := Option.some.inj hsent
        rw [replays_iff_of_row hrow (by rw [hstate]; rfl)]
        refine iff_of_false (fun h => ?_) fun h => h.1 rfl
        -- the row keeps no error, and the Result has one
        have hnone : (none : Option Json) = some [("code", "cancelled"), ("message", c.reason)] :=
          hcause.2.2.symm.trans (herror.symm.trans h.2.2.2.2.2)
        cases hnone
      | failed =>
        rw [hstate] at hcause hsent
        obtain rfl := Option.some.inj hsent
        have hiff := replays_failure_iff hrow (by rw [hstate]; rfl) hcode houtput herror hcause
        exact hiff.trans ⟨fun h => ⟨by decide, h⟩, fun h => h.2⟩
      | timedOut =>
        rw [hstate] at hcause hsent
        obtain rfl := Option.some.inj hsent
        have hiff := replays_failure_iff hrow (by rw [hstate]; rfl) hcode houtput herror hcause
        exact hiff.trans ⟨fun h => ⟨by decide, h⟩, fun h => h.2⟩
      | _ =>
        rw [hstate] at hended
        cases hended
    | _ => exact hx.elim
  | _ => exact hx.elim

theorem replays_of_fannedOut (h : Run (router cfg) g (.init d.boot) P)
    (hfan : FannedOut P.log t x f) : Replays P.shared.db t f ↔ ReportedByAgent x := by
  have hinv := replayInv_of_run h
  obtain ⟨i, -, -, hmem, hx, hsent, -⟩ := hfan
  refine replays_iff_of_stored hx hsent (hinv.stored i x t hmem hx) ?_
  rintro t' new c b rfl
  exact hinv.causes i t' new c b hmem

/-- **What a retry is told.**  In every run a Result is sent for a task only by a coroutine that has
brought it to its end or has found it there.  Whatever brought it there, at any later time a request
that hits the row is told what the caller was, exactly when the end was reported by the agent that
the task was admitted for. -/
theorem replays_iff (h : Run (router cfg) g (.init d.boot) P) :
    (∀ i dst f b, (i, ⟨.deliver dst (.result f), b⟩) ∈ P.log →
      ∃ x, (i, x) ∈ P.log ∧ resultSent x = some f) ∧
    ∀ t x f, FannedOut P.log t x f → (Replays P.shared.db t f ↔ ReportedByAgent x) :=
  ⟨(replayInv_of_run h).sent, fun _ _ _ hfan => replays_of_fannedOut h hfan⟩

end

/-! ### Two runs -/

namespace Sample

/-- The event brings the open task to its end, and meets `p` of the actor or the new state. -/
def endsOpen (t : TaskId) (p : AgentId ⊕ TaskState → TaskRow → Bool) : Event Act → Bool
  | ⟨.complete f a, .done prev row⟩ =>
    decide (f.taskId = t) && !prev.isTerminal && p (.inl a) row
  | ⟨.transition t' new _, .done prev row⟩ =>
    decide (t' = t) && !prev.isTerminal && new.isTerminal && p (.inr new) row
  | _ => false

/-- The event sends the Result. -/
def sends (f : ResultFrame) : Event Act → Bool
  | ⟨.deliver _ (.result f'), _⟩ => decide (f' = f)
  | _ => false

/-- An ending of the task that meets `p` is followed by its Result. -/
def tells (log : Log Act) (t : TaskId) (p : AgentId ⊕ TaskState → TaskRow → Bool) : Bool :=
  log.any fun y => endsOpen t p y.2 && (resultSent y.2).any fun f =>
    log.any fun z => decide (z.1 = y.1) && sends f z.2

variable {log : Log Act} {t : TaskId} {p : AgentId ⊕ TaskState → TaskRow → Bool} {x : Event Act}
  {f : ResultFrame}

theorem ending_of_endsOpen (h : endsOpen t p x = true) : Ending t x := by
  obtain ⟨x, out⟩ := x
  cases x with
  | complete f a =>
    cases out with
    | done prev row => simp_all [endsOpen, Ending]
    | _ => cases h
  | transition t' new c =>
    cases out with
    | done prev row => simp_all [endsOpen, Ending]
    | _ => cases h
  | _ => cases h

theorem eq_of_sends (h : sends f x = true) : ∃ dst b, x = ⟨.deliver dst (.result f), b⟩ := by
  obtain ⟨x, out⟩ := x
  cases x with
  | deliver dst m =>
    cases m with
    | result f' =>
      obtain rfl := of_decide_eq_true h
      exact ⟨dst, out, rfl⟩
    | _ => cases h
  | _ => cases h

theorem fannedOut_of_tells (h : tells log t p = true) :
    ∃ x f, FannedOut log t x f ∧ endsOpen t p x = true := by
  obtain ⟨⟨i, x⟩, hx, h⟩ := List.any_eq_true.1 h
  obtain ⟨hends, h⟩ := Bool.and_eq_true_iff.1 h
  obtain ⟨f, hsent, h⟩ := (Option.any_eq_true _ _).1 h
  obtain ⟨⟨j, y⟩, hy, h⟩ := List.any_eq_true.1 h
  obtain ⟨hj, hsends⟩ := Bool.and_eq_true_iff.1 h
  obtain rfl : j = i := of_decide_eq_true hj
  obtain ⟨dst, b, hy'⟩ := eq_of_sends hsends
  obtain rfl : y = ⟨.deliver dst (.result f), b⟩ := hy'
  exact ⟨x, f, ⟨j, dst, b, hx, ending_of_endsOpen hends, hsent, hy⟩, hends⟩

/-- Task `t` is completed by `b`, the agent that it was admitted for. -/
def completed : List (Move Env Call) :=
  dispatched ++ [receive 1 "b" (.result (result "b" "t" .succeeded))] ++ steps 5 4

/-- Task `t` is cancelled by its user. -/
def cancelled : List (Move Env Call) :=
  dispatched ++ [.start (.cancelTask "u" "t")] ++ steps 5 6

/-- The actor is the agent that the task was admitted for. -/
def byAgent : AgentId ⊕ TaskState → TaskRow → Bool
  | .inl a, row => decide (row.agentId = a)
  | .inr _, _ => false

/-- The task is cancelled. -/
def byCancellation : AgentId ⊕ TaskState → TaskRow → Bool
  | .inr .cancelled, _ => true
  | _, _ => false

theorem reported_of_byAgent (h : endsOpen t byAgent x = true) : ReportedByAgent x := by
  obtain ⟨x, out⟩ := x
  cases x with
  | complete f a =>
    cases out with
    | done prev row =>
      have hagent : row.agentId = a := of_decide_eq_true (Bool.and_eq_true_iff.1 h).2
      exact hagent
    | _ => cases h
  | transition t' new c =>
    cases out with
    | done prev row => cases (Bool.and_eq_true_iff.1 h).2
    | _ => cases h
  | _ => cases h

theorem not_reported_of_byCancellation (h : endsOpen t byCancellation x = true) :
    ¬ ReportedByAgent x := by
  obtain ⟨x, out⟩ := x
  cases x with
  | complete f a =>
    cases out with
    | done prev row => cases (Bool.and_eq_true_iff.1 h).2
    | _ => cases h
  | transition t' new c =>
    cases out with
    | done prev row =>
      rintro ⟨hne, -⟩
      cases new with
      | cancelled => exact hne rfl
      | _ => cases (Bool.and_eq_true_iff.1 h).2
    | _ => cases h
  | _ => cases h

end Sample

/-- A retry of the task that `b` has completed is told so. -/
theorem replays_iff_completed : ∃ P x f, Sample.play Sample.anything Sample.completed = some P ∧
    FannedOut P.log "t" x f ∧ Replays P.shared.db "t" f := by
  have hplay : ((Sample.play Sample.anything Sample.completed).map fun P =>
      Sample.tells P.log "t" Sample.byAgent) = some true := by
    decide +kernel
  obtain ⟨P, hP, htells⟩ := Option.map_eq_some_iff.1 hplay
  obtain ⟨x, f, hfan, hends⟩ := Sample.fannedOut_of_tells htells
  exact ⟨P, x, f, hP, hfan, ((replays_iff (Sample.free_of_play hP)).2 "t" x f hfan).2
    (Sample.reported_of_byAgent hends)⟩

/-- **The retry of a task that was cancelled is told something else.**  The caller was told an
error, by the router; the row keeps no error, and names the agent. -/
theorem cancelled_replay_differs : ¬ ∀ (cfg : Config) (d : Deployment)
    (P : Pool Act Router Call Ret), Run (router cfg) .free (.init d.boot) P →
    ∀ t x f, FannedOut P.log t x f → Replays P.shared.db t f := by
  intro hall
  have hplay : ((Sample.play Sample.anything Sample.cancelled).map fun P =>
      Sample.tells P.log "t" Sample.byCancellation) = some true := by
    decide +kernel
  obtain ⟨P, hP, htells⟩ := Option.map_eq_some_iff.1 hplay
  obtain ⟨x, f, hfan, hends⟩ := Sample.fannedOut_of_tells htells
  have hrun := Sample.free_of_play hP
  have hreplays := hall {} Sample.deployment P hrun "t" x f hfan
  exact Sample.not_reported_of_byCancellation hends ((replays_of_fannedOut hrun hfan).1 hreplays)

end Backplane
