import Backplane.Router.Answer

/-!
# Idempotent admission

A request with a key is looked up before anything else, and once more when its insert runs into the
unique constraint on caller, user and key; a request without one (`NULL`) always inserts.  An empty
key is skipped by the first look-up, but it is a key to the constraint.

* `KeysUnique` : no two rows carry the same key for the same caller and user.
* `FoundByKey` : the answer of a look-up by key.
* `admitTask_ok` : a spawn that succeeds has found the row with its key or inserted one.
* `admission_idempotent` : it returns the row of its key; without a key, a row of its own.
* `delegation_makes_no_row` : a hand-on returns the task it names and inserts nothing.
-/

namespace Backplane

open Concur Prog

/-- No two rows carry the same key for the same caller and user. -/
def KeysUnique (db : Db) : Prop :=
  ∀ t t' r r' key, db.tasks.lookup t = some r → db.tasks.lookup t' = some r' →
    r.callerAgentId = r'.callerAgentId → r.userId = r'.userId → r.idempotencyKey = some key →
    r'.idempotencyKey = some key → t = t'

/-- The event inserts the task. -/
def inserts (t : TaskId) : Event Act → Bool
  | ⟨.createTask _ _ _, .created r⟩ => decide (r.taskId = t)
  | _ => false

/-! ### Keys never change -/

section

variable {named : List TaskId} {db db' : Db} {x : Event Act} {t : TaskId} {r r' : TaskRow}

/-- What a request asked for stays with its row. -/
theorem Effect.key_eq (h : Effect named db x db') (hr : db.tasks.lookup t = some r)
    (hr' : db'.tasks.lookup t = some r') : r'.idempotencyKey = r.idempotencyKey := by
  have hupd : ∀ t₀ (f : TaskRow → TaskRow), AList.lookup t (db.tasks.update t₀ f) = some r' →
      (∀ r, (f r).idempotencyKey = r.idempotencyKey) →
      r'.idempotencyKey = r.idempotencyKey := by
    intro t₀ f hu hf
    rw [Table.lookup_update_map, hr, Option.map_some, Option.some.injEq] at hu
    rw [← hu]
    split_ifs
    · exact hf r
    · rfl
  cases h with
  | @create f caller d now root newId y hnew =>
    have ht : t ≠ newId := fun he => by rw [he, hnew] at hr; exact absurd hr (by simp)
    have hsame : db.tasks.lookup t = some r' := (AList.lookup_insert_ne ht).symm.trans hr'
    rw [Option.some.inj (hsame.symm.trans hr)]
  | move => exact hupd _ _ hr' fun _ => rfl
  | result => exact hupd _ _ hr' fun _ => rfl
  | forceFail => exact hupd _ _ hr' fun _ => rfl
  | handOver => exact hupd _ _ hr' fun _ => rfl
  | _ => rw [Option.some.inj (hr'.symm.trans hr)]

end

section

variable {cfg : Config} {s s' : Router} {β : Type} {a : Act β} {e : Env} {b : β}
  {d : Deployment} {P : Pool Act Router Call Ret} {t : TaskId}

/-- The insert is refused while another row carries the key. -/
theorem Act.exec_created_key {f : NewTaskFrame} {caller : AgentId} {deadline : ℕ} {r : TaskRow}
    (h : exec cfg (.createTask f caller deadline) e s = some (s', .created r)) {key : String}
    (hkey : f.idempotencyKey = some key) :
    s.db.findIdempotent f.userId key caller = none := by
  simp only [exec, Option.ite_none_left_eq_some] at h
  exact Db.createTaskTx_key (congrArg Prod.snd (Option.some.inj h.2)) hkey

theorem KeysUnique.exec (hk : KeysUnique s.db) (he : Act.exec cfg a e s = some (s', b)) :
    KeysUnique s'.db := by
  obtain ⟨heff, -⟩ := Act.exec_effect he
  -- the row of `t` is there already, or it is the one that was inserted
  have hnew : ∀ t r, s'.db.tasks.lookup t = some r → s.db.tasks.lookup t = none →
      ∀ t' r' key, s.db.tasks.lookup t' = some r' → r'.callerAgentId = r.callerAgentId →
        r'.userId = r.userId → r.idempotencyKey = some key → r'.idempotencyKey ≠ some key := by
    intro t r hr hn t' r' key hr' hc hu hkey
    obtain ⟨f, caller, dl, now, root, hx, rfl, -⟩ := heff.created hn hr
    cases hx
    exact Db.findIdempotent_eq_none (Act.exec_created_key he hkey) hr' hc hu
  intro t t' r r' key hr hr' hc hu hkey hkey'
  cases ht : s.db.tasks.lookup t with
  | some r₀ =>
    obtain ⟨r₁, hr₁, hl⟩ := heff.later ht
    obtain rfl := Option.some.inj (hr.symm.trans hr₁)
    have hk₀ := (heff.key_eq ht hr).symm.trans hkey
    cases ht' : s.db.tasks.lookup t' with
    | some r₀' =>
      obtain ⟨r₁', hr₁', hl'⟩ := heff.later ht'
      obtain rfl := Option.some.inj (hr'.symm.trans hr₁')
      refine hk t t' r₀ r₀' key ht ht' ?_ ?_ hk₀ ((heff.key_eq ht' hr').symm.trans hkey')
      · rw [← hl.callerAgentId, ← hl'.callerAgentId, hc]
      · rw [← hl.userId, ← hl'.userId, hu]
    | none =>
      refine absurd hk₀ (hnew t' r' hr' ht' t r₀ key ht ?_ ?_ hkey')
      · rw [← hl.callerAgentId, hc]
      · rw [← hl.userId, hu]
  | none =>
    cases ht' : s.db.tasks.lookup t' with
    | some r₀' =>
      obtain ⟨r₁', hr₁', hl'⟩ := heff.later ht'
      obtain rfl := Option.some.inj (hr'.symm.trans hr₁')
      refine absurd ((heff.key_eq ht' hr').symm.trans hkey')
        (hnew t r hr ht t' r₀' key ht' ?_ ?_ hkey)
      · rw [← hl'.callerAgentId, hc]
      · rw [← hl'.userId, hu]
    | none =>
      -- only one row is inserted at a time
      obtain ⟨f, caller, dl, now, root, hx, rfl, -⟩ := heff.created ht hr
      obtain ⟨f', caller', dl', now', root', hx', rfl, -⟩ := heff.created ht' hr'
      rw [hx] at hx'
      cases hx'
      rfl

theorem keysUnique_of_run (h : Run (router cfg) .free (.init d.boot) P) :
    KeysUnique P.shared.db := by
  refine h.invariant (I := fun s => KeysUnique s.db) ?_ fun hk he => hk.exec he
  intro t t' r r' key hr
  exact absurd hr (by simp [Pool.init, Deployment.boot])

/-- A task is inserted once at most. -/
theorem inserts_le_one (h : Run (router cfg) .free (.init d.boot) P) (t : TaskId) :
    P.log.countP (fun x => inserts t x.2) ≤ 1 ∧
      (P.shared.db.tasks.lookup t = none → P.log.countP (fun x => inserts t x.2) = 0) := by
  refine h.guarded (I := fun s log => log.countP (fun x => inserts t x.2) ≤ 1 ∧
    (s.db.tasks.lookup t = none → log.countP (fun x => inserts t x.2) = 0)) (by simp [Pool.init]) ?_
  rintro Q i c β a e s b ⟨hone, hzero⟩ - he
  simp only [List.countP_append, List.countP_singleton]
  cases hx : inserts t ⟨a, b⟩ with
  | false =>
    refine ⟨hone, fun hn => ?_⟩
    simp only [Bool.false_eq_true, if_false, Nat.add_zero]
    refine hzero (Option.eq_none_iff_forall_not_mem.2 fun r hr => ?_)
    obtain ⟨r', hr', -⟩ := (Act.exec_effect he).1.later hr
    exact absurd (hr'.symm.trans hn) (by simp)
  | true =>
    cases a with
    | createTask f caller dl =>
      cases b with
      | created r =>
        have hexec : Act.exec cfg (.createTask f caller dl) e Q.shared = some (s, .created r) := he
        obtain ⟨hn, hr, -⟩ := Act.exec_created hexec
        obtain rfl : r.taskId = t := by simpa [inserts] using hx
        rw [hzero hn]
        exact ⟨le_rfl, fun hnone => absurd (hr.symm.trans hnone) (by simp)⟩
      | _ => exact absurd hx (by simp [inserts])
    | _ => exact absurd hx (by simp [inserts])

end

/-! ### How a spawn succeeds -/

/-- The event found a row that carries the key of the request. -/
def FoundByKey (f : NewTaskFrame) (a : AgentId) (row : TaskRow) (x : Event Act) : Prop :=
  ∃ g : Router → Option TaskRow, x = ⟨.read g, some row⟩ ∧ ∀ s, g s = some row →
    ∃ key, f.idempotencyKey = some key ∧ s.db.findIdempotent f.userId key a = some row

section

variable {cfg : Config} {f : NewTaskFrame} {a : AgentId} {tr : List (Event Act)}
  {res : AdmitResult} {level : String}

theorem After.ok_call {ε β : Type} {x : Act β} {b : β}
    (h : After (call x : Raising ε β).run tr (.ret (.ok b))) : tr = [⟨x, b⟩] := by
  cases h.ok_lift with
  | cons h => rw [(After.ret_iff.1 h).1, (After.ret_iff.1 h).2]

/-- A dispatch that succeeds returns the task it was given. -/
theorem dispatchTask_ok {row : TaskRow}
    (h : After (dispatchTask f row level).run tr (.ret (.ok res))) : res.taskId = row.taskId := by
  obtain ⟨tr₁, out, tr₂, rfl, -, h⟩ := h.ok_bind
  have hfail : ∀ code reason error (e : Exn) tr, ¬ After
      (ExceptT.lift (safeFail row.taskId f.userId code reason error) >>= fun _ =>
        (throw e : Raising Exn AdmitResult)).run tr (.ret (.ok res)) := by
    intro code reason error e tr h
    obtain ⟨_, _, _, -, -, h⟩ := h.ok_bind
    exact After.not_ok_throw h
  rcases out with (_ | _ | _ | _) | m
  · exact absurd h (hfail _ _ _ _ _)
  · exact absurd h After.not_ok_throw
  · exact absurd h (hfail _ _ _ _ _)
  · exact absurd h After.not_ok_throw
  cases m with
  | ack ack =>
    dsimp only at h
    split_ifs at h
    · exact absurd h (hfail _ _ _ _ _)
    · obtain ⟨_, _, _, -, -, h⟩ := h.ok_bind
      obtain ⟨-, rfl⟩ := After.ok_pure h
      rfl
  | _ => exact absurd h After.not_ok_throw

/-- A spawn that succeeds has found the row with its key, or inserted one. -/
theorem admitTask_ok (hf : f.taskId = none)
    (h : After (admitTask cfg f a).run tr (.ret (.ok res))) :
    (∃ x ∈ tr, ∃ row, FoundByKey f a row x ∧ res.taskId = row.taskId) ∨
      ∃ deadline row, ⟨.createTask f a deadline, .created row⟩ ∈ tr ∧ res.taskId = row.taskId := by
  unfold admitTask at h
  rw [hf] at h
  obtain ⟨tr₁, existing, tr₂, rfl, hjoin, h⟩ := h.ok_bind
  cases existing with
  | some row =>
    obtain ⟨rfl, rfl⟩ := After.ok_pure h
    unfold joinExisting at hjoin
    cases hkey : f.idempotencyKey.filter (· ≠ "") with
    | none =>
      rw [hkey] at hjoin
      exact absurd (After.ok_pure hjoin).2 (by simp)
    | some key =>
      rw [hkey] at hjoin
      obtain rfl := After.ok_call hjoin
      refine .inl ⟨_, by simp, row, ⟨_, rfl, fun s hs => ⟨key, ?_, hs⟩⟩, rfl⟩
      exact (Option.filter_eq_some_iff.1 hkey).1
  | none =>
    obtain ⟨tr₃, lvl, tr₄, rfl, -, hrest⟩ := h.ok_bind
    obtain ⟨tr₅, now, tr₆, rfl, -, hinsert⟩ := hrest.ok_bind
    obtain ⟨tr₇, out, tr₈, rfl, hcreate, hout⟩ := hinsert.ok_bind
    have hev := After.ok_call hcreate
    cases out with
    | refused e => exact absurd hout After.not_ok_throw
    | checkViolation => exact absurd hout After.not_ok_throw
    | uniqueViolation =>
      obtain ⟨tr₉, racer, tr₁₀, rfl, hread, hjoined⟩ := hout.ok_bind
      have hev' := After.ok_call hread
      cases racer with
      | none => exact absurd hjoined After.not_ok_throw
      | some row =>
        obtain ⟨rfl, rfl⟩ := After.ok_pure hjoined
        exact .inl ⟨_, by simp [hev'], row, ⟨_, rfl, fun s hs => Option.bind_eq_some_iff.1 hs⟩, rfl⟩
    | created row =>
      obtain ⟨tr₉, -, tr₁₀, rfl, -, hdone⟩ := hout.ok_bind
      exact .inr ⟨f.deadline.getD (now + cfg.defaultTaskDeadlineS), row, by simp [hev],
        dispatchTask_ok hdone⟩

end

/-! ### Every run -/

/-- The task has a row that carries this request's key, for its caller and its user. -/
def RowOf (db : Db) (f : NewTaskFrame) (a : AgentId) (t : TaskId) : Prop :=
  ∃ r, db.tasks.lookup t = some r ∧ r.callerAgentId = a ∧ r.userId = f.userId ∧
    r.idempotencyKey = f.idempotencyKey

section

variable {cfg : Config} {d : Deployment} {P Q : Pool Act Router Call Ret} {f : NewTaskFrame}
  {a : AgentId} {t : TaskId} {i : ℕ} {x : Event Act}

theorem RowOf.of_run (h : Run (router cfg) .free P Q) (hr : RowOf P.shared.db f a t) :
    RowOf Q.shared.db f a t := by
  refine h.invariant (I := fun s => RowOf s.db f a t) hr fun hr he => ?_
  obtain ⟨r, hr, ha, hu, hk⟩ := hr
  obtain ⟨heff, -⟩ := Act.exec_effect he
  obtain ⟨r', hr', hl⟩ := heff.later hr
  exact ⟨r', hr', hl.callerAgentId.trans ha, hl.userId.trans hu, (heff.key_eq hr hr').trans hk⟩

/-- A row that was found by key is there, and carries the key. -/
theorem rowOf_of_found (h : Run (router cfg) .free (.init d.boot) P) (hx : (i, x) ∈ P.log)
    {row : TaskRow} (hfound : FoundByKey f a row x) :
    RowOf P.shared.db f a row.taskId ∧ f.idempotencyKey ≠ none := by
  obtain ⟨g, rfl, hg⟩ := hfound
  obtain ⟨l, l', hlog⟩ := List.append_of_mem hx
  obtain ⟨Q, c, β, act, k, e, s, b, hQ, -, ht, -, he, hev, hrest⟩ :=
    h.exists_step hlog (by simp [Pool.init])
  cases hev
  obtain ⟨rfl, hans⟩ := Prod.mk.inj (Option.some.inj he)
  obtain ⟨key, hkey, hfind⟩ := hg _ hans
  obtain ⟨⟨t, hr⟩, ha, hu, hk⟩ := Db.findIdempotent_eq_some hfind
  obtain rfl := (wf_of_run hQ).key hr
  refine ⟨RowOf.of_run (((Run.refl Q).step ht trivial he).trans hrest) ?_, by simp [hkey]⟩
  exact ⟨row, hr, ha, hu, hk.trans hkey.symm⟩

/-- An inserted row is there, and carries the key of the request. -/
theorem rowOf_of_created (h : Run (router cfg) .free (.init d.boot) P) {deadline : ℕ}
    {row : TaskRow} (hx : (i, ⟨.createTask f a deadline, .created row⟩) ∈ P.log) :
    RowOf P.shared.db f a row.taskId := by
  obtain ⟨l, l', hlog⟩ := List.append_of_mem hx
  obtain ⟨Q, c, β, act, k, e, s, b, hQ, -, ht, -, he, hev, hrest⟩ :=
    h.exists_step hlog (by simp [Pool.init])
  cases hev
  have hexec : Act.exec cfg (.createTask f a deadline) e Q.shared = some (s, .created row) := he
  obtain ⟨-, hr, now, root, newId, rfl⟩ := Act.exec_created hexec
  refine RowOf.of_run hrest ?_
  exact ⟨_, hr, rfl, rfl, rfl⟩

/-- **At most one row carries a key, and a spawn with that key that succeeds returns its id; a spawn
without a key that succeeds has inserted a row of its own.** -/
theorem admission_idempotent (h : Run (router cfg) .free (.init d.boot) P) :
    KeysUnique P.shared.db ∧
    ∀ i f a res, f.taskId = none → AdmissionEnded cfg f a (P.past i) (.ok res) →
      RowOf P.shared.db f a res.taskId ∧
      (f.idempotencyKey = none →
        (∃ deadline row, (i, ⟨.createTask f a deadline, .created row⟩) ∈ P.log ∧
          row.taskId = res.taskId) ∧
        P.log.countP (fun x => inserts res.taskId x.2) = 1) := by
  refine ⟨keysUnique_of_run h, ?_⟩
  rintro i f a res hf ⟨tr, tr', hpast, hended⟩
  have hmem : ∀ x ∈ tr, (i, x) ∈ P.log := by
    intro x hx
    rw [← Log.mem_past, show P.log.past i = tr ++ tr' from hpast]
    exact List.mem_append_left _ hx
  rcases admitTask_ok hf hended with ⟨x, hx, row, hfound, hid⟩ | ⟨deadline, row, hx, hid⟩
  · obtain ⟨hrow, hkey⟩ := rowOf_of_found h (hmem x hx) hfound
    exact ⟨hid ▸ hrow, fun hnone => absurd hnone hkey⟩
  · have hin := hmem _ hx
    refine ⟨hid ▸ rowOf_of_created h hin, fun _ => ⟨⟨deadline, row, hin, hid.symm⟩, ?_⟩⟩
    have hpos : 0 < P.log.countP (fun x => inserts res.taskId x.2) :=
      List.countP_pos_iff.2 ⟨_, hin, by simp [inserts, hid]⟩
    have hle := (inserts_le_one h res.taskId).1
    omega

end

def Sample.keyed : NewTaskFrame := { Sample.spawn "a" "b" with idempotencyKey := some "key" }

/-- `a` spawns `t` on `b` with a key (coroutine `3`) and asks again (coroutine `5`). -/
def Sample.askedAgain : List (Move Env Call) :=
  Sample.connected ++ [Sample.receive 0 "a" (.newTask Sample.keyed)] ++ Sample.steps 3 6 ++
    [Sample.step 3 "t", Sample.step 3, Sample.step 3 "k",
      Sample.receive 1 "b" (.ack (Sample.ack "b" "k" true)), Sample.step 4] ++ Sample.steps 3 3 ++
    [.start (.admission Sample.keyed "a"), Sample.step 5]

def Sample.admittedTask : Prog Act Ret → Option TaskId
  | .ret (.admitted (.ok res)) => some res.taskId
  | _ => none

theorem Sample.admittedTask_eq_some {p : Prog Act Ret} {t : TaskId}
    (h : Sample.admittedTask p = some t) : ∃ res, p = .ret (.admitted (.ok res)) := by
  unfold Sample.admittedTask at h
  split at h
  · exact ⟨_, rfl⟩
  · cases h

/-- The second request joins the task of the first. -/
theorem admission_idempotent_asked : ∃ P res,
    Sample.play Sample.anything Sample.askedAgain = some P ∧
    AdmissionEnded {} Sample.keyed "a" (P.past 5) (.ok res) ∧
    RowOf P.shared.db Sample.keyed "a" res.taskId := by
  have hplay : ((Sample.play Sample.anything Sample.askedAgain).bind fun P =>
      P.threads[5]?.map fun th => (th.call, Sample.admittedTask th.prog)) = some (.admission Sample.keyed "a", some "t") := by
    decide +kernel
  obtain ⟨P, hP, h⟩ := Option.bind_eq_some_iff.1 hplay
  obtain ⟨⟨c, p⟩, hth, h⟩ := Option.map_eq_some_iff.1 h
  obtain ⟨rfl, hret⟩ := Prod.mk.inj h
  have hrun := Sample.free_of_play hP
  obtain ⟨res, rfl⟩ := Sample.admittedTask_eq_some hret
  have hended := admissionEnded_of_returned hrun hth
  exact ⟨P, res, hP, hended, ((admission_idempotent hrun).2 5 Sample.keyed "a" res rfl hended).1⟩

/-- `b` hands `t` on without a key: the admission succeeds and makes no row. -/
theorem delegation_makes_no_row : ¬ ∀ (cfg : Config) (d : Deployment)
    (P : Pool Act Router Call Ret) (i : ℕ) (f : NewTaskFrame) (a : AgentId) (res : AdmitResult),
    Run (router cfg) .free (.init d.boot) P → AdmissionEnded cfg f a (P.past i) (.ok res) →
    f.idempotencyKey = none →
    ∃ deadline row, (i, ⟨.createTask f a deadline, .created row⟩) ∈ P.log := by
  intro hall
  have hplay : ((Sample.play Sample.anything (Sample.dispatched ++
      [.start (.admission (Sample.delegate "b" "c" "t") "b")] ++ Sample.steps 5 4 ++
      [Sample.step 5 "k'", Sample.receive 2 "c" (.ack (Sample.ack "c" "k'" true)),
        Sample.step 6, Sample.step 5, Sample.step 5])).bind fun P =>
      P.threads[5]?.map fun th => ((th.call, (Sample.admittedTask th.prog).isSome), (P.past 5).all fun x => x.act.tag ≠ .createTask)) =
      some ((.admission (Sample.delegate "b" "c" "t") "b", true), true) := by
    decide +kernel
  obtain ⟨P, hP, h⟩ := Option.bind_eq_some_iff.1 hplay
  obtain ⟨⟨c, p⟩, hth, h⟩ := Option.map_eq_some_iff.1 h
  obtain ⟨hcall, hnone⟩ := Prod.mk.inj h
  obtain ⟨rfl, hret⟩ := Prod.mk.inj hcall
  have hrun := Sample.free_of_play hP
  obtain ⟨t, hret⟩ := Option.isSome_iff_exists.1 hret
  obtain ⟨res, rfl⟩ := Sample.admittedTask_eq_some hret
  obtain ⟨deadline, row, hm⟩ := hall {} Sample.deployment P 5 _ "b" res hrun
    (admissionEnded_of_returned hrun hth) rfl
  exact absurd (List.all_eq_true.1 hnone _ (Log.mem_past.2 hm)) (by simp [Act.tag])

end Backplane
