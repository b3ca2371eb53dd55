import Backplane.Router.Footprint
import Backplane.Concur.Trace

/-!
# What the actions do to the database

* `Effect named db x db'` : the event `x`, an action with its answer, can turn `db` into `db'`;
  one constructor for each way an action writes, with what the transaction has checked.
* `Act.exec_effect` : what an action does is one of these.
* `Act.exec_db` : the actions that work in memory leave the database alone.
* `TaskRow.Later` : what never changes about a row, and that a row that has ended never changes
  (`Effect.later`, `Run.later`).
* `Effect.created` : where new rows come from.
-/

namespace Backplane

open Concur

/-! ### The effects -/

/-- Whether the action is a transaction that may write. -/
def Act.writes : {β : Type} → Act β → Bool
  | _, createTask _ _ _ | _, transition _ _ _ | _, complete _ _ | _, forceFailTask _ _ _ _
  | _, delegationPhaseC _ _ _ | _, closeSession _ _ | _, reopenSession _ _ | _, openSession _
  | _, allocateName _ _ _ _ _ => true
  | _, _ => false

/-- The tags of the transactions that may write. -/
def writeTags : List Tag :=
  [.createTask, .complete, .forceFailTask, .delegationPhaseC, .closeSession, .reopenSession,
    .openSession, .allocateName] ++
  [.queued, .running, .waitingChildren, .succeeded, .failed, .cancelled, .timedOut].map .transition

theorem Uses.writes {α : Type} {p : Coroutine α} {T : List Tag} (h : Uses p T)
    (hT : ∀ g ∈ T, g ∉ writeTags) : p.Only fun x => x.writes = false := by
  refine Prog.Only.mono h fun x hx => ?_
  have hg := hT _ hx
  cases x with
  | transition t new c => cases new <;> exact absurd (by simp [Act.tag, writeTags]) hg
  | _ => first | rfl | exact absurd (by simp [Act.tag, writeTags]) hg

/-- The answer says that nothing was written. -/
def Silent : Event Act → Prop
  | ⟨.createTask _ _ _, .created _⟩ => False
  | ⟨.transition _ _ _, .done _ _⟩ => False
  | ⟨.complete _ _, .done _ _⟩ => False
  | ⟨.forceFailTask _ _ _ _, true⟩ => False
  | ⟨.delegationPhaseC _ _ _, .ok _⟩ => False
  | ⟨.closeSession _ _, _⟩ => False
  | ⟨.reopenSession _ _, true⟩ => False
  | ⟨.openSession _, _⟩ => False
  | _ => True

/-- What an event can do to the database; `named` are the task ids that requests have named. -/
inductive Effect (named : List TaskId) (db : Db) : Event Act → Db → Prop
  | silent {x : Event Act} (hx : Silent x) : Effect named db x db
  /-- A task is admitted into an open session, below a task of the same user. -/
  | create {f : NewTaskFrame} {caller : AgentId} {deadline now : ℕ} {root newId : TaskId}
      {x : SessionRow} (hnew : db.tasks.lookup newId = none) (hnamed : newId ∉ named)
      (hx : db.sessions.lookup f.sessionId = some x) (hu : x.userId = f.userId)
      (hopen : x.closedAt = none) (hp : ∀ p, f.parentTaskId = some p →
        ∃ r, db.tasks.lookup p = some r ∧ r.userId = f.userId) :
      Effect named db ⟨.createTask f caller deadline, .created (f.row caller deadline now root newId)⟩
        (({ db with tasks := db.tasks.insert newId (f.row caller deadline now root newId) } :
          Db).insertEvent (admittedEvent newId caller))
  /-- A transition to the state the task has already. -/
  | noop {t : TaskId} {c : Cause} {r : TaskRow} (hr : db.tasks.lookup t = some r) :
      Effect named db ⟨.transition t r.state c, .done r.state r⟩
        (db.insertEvent (transitionEvent .transitionNoop t r.state r.state c))
  | move {t : TaskId} {new : TaskState} {c : Cause} {r : TaskRow}
      (hr : db.tasks.lookup t = some r) (ha : allowed r.state new = true) :
      Effect named db ⟨.transition t new c, .done r.state (r.moved new c)⟩
        ((db.updateTask t fun r => r.moved new c).insertEvent
          (transitionEvent .transition t r.state new c))
  /-- A Result that reports the state the task has already. -/
  | repeated {f : ResultFrame} {r : TaskRow} (hr : db.tasks.lookup f.taskId = some r)
      (hs : r.state = stateFromStatus f.status) :
      Effect named db ⟨.complete f r.activeAgentId, .done r.state r⟩
        (db.insertEvent (transitionEvent .transitionNoop f.taskId r.state
          (stateFromStatus f.status) (f.cause r.activeAgentId)))
  | result {f : ResultFrame} {r : TaskRow} (hr : db.tasks.lookup f.taskId = some r)
      (ha : allowed r.state (stateFromStatus f.status) = true) :
      Effect named db ⟨.complete f r.activeAgentId,
          .done r.state (r.moved (stateFromStatus f.status) (f.cause r.activeAgentId))⟩
        ((db.updateTask f.taskId fun r' =>
            r'.moved (stateFromStatus f.status) (f.cause r.activeAgentId)).insertEvent
          (transitionEvent .transition f.taskId r.state (stateFromStatus f.status)
            (f.cause r.activeAgentId)))
  /-- The fallback of a compensation ends the task. -/
  | forceFail {u : UserId} {t : TaskId} {code : ℕ} {err : Option Json} {r : TaskRow}
      (hr : db.tasks.lookup t = some r) (hu : r.userId = u) (ho : r.state.isTerminal = false) :
      Effect named db ⟨.forceFailTask u t code err, true⟩
        (db.updateTask t fun r =>
          { r with state := .failed, statusCode := some code, error := err })
  | handOver {f : NewTaskFrame} {t : TaskId} {r : TaskRow} (hr : db.tasks.lookup t = some r)
      (hu : r.userId = f.userId) (ho : r.state.isTerminal = false) :
      Effect named db ⟨.delegationPhaseC f t r.activeAgentId, .ok ()⟩
        ((db.updateTask t fun r => { r with activeAgentId := f.destinationAgentId }).insertEvent
          (delegatedEvent t r.activeAgentId f.destinationAgentId))
  | close {u : UserId} {x : SessionId} (now : ℕ) :
      Effect named db ⟨.closeSession u x, ()⟩ (db.closeSessionTx now u x)
  | reopen {u : UserId} {x : SessionId} {row : SessionRow} (hx : db.sessions.lookup x = some row)
      (hu : row.userId = u) :
      Effect named db ⟨.reopenSession u x, true⟩
        { db with sessions := db.sessions.insert x { row with closedAt := none } }
  | openSession {u : UserId} {x : SessionId} (now : ℕ) (hx : db.sessions.lookup x = none) :
      Effect named db ⟨.openSession u, x⟩ (db.openSessionTx now u x)
  | bind {u : UserId} {scope name n : String} {row : FileNameRow} {d : Dedup}
      {out : Except String String} :
      Effect named db ⟨.allocateName u scope name row d, out⟩ (db.bindName u scope n row)

/-! ### What happens to a row -/

/-- `r'` is a later version of the row `r`: what its admission fixed has not changed, and if it had
ended nothing has. -/
structure TaskRow.Later (r r' : TaskRow) : Prop where
  /-- Same key. -/
  taskId : r'.taskId = r.taskId
  parentTaskId : r'.parentTaskId = r.parentTaskId
  userId : r'.userId = r.userId
  sessionId : r'.sessionId = r.sessionId
  /-- Admitted for the same agent. -/
  agentId : r'.agentId = r.agentId
  callerAgentId : r'.callerAgentId = r.callerAgentId
  /-- Nothing happens to a row that has ended. -/
  ended : r.state.isTerminal = true → r' = r

theorem TaskRow.Later.refl (r : TaskRow) : r.Later r := ⟨rfl, rfl, rfl, rfl, rfl, rfl, fun _ => rfl⟩

theorem TaskRow.Later.trans {r r' r'' : TaskRow} (h : r.Later r') (h' : r'.Later r'') :
    r.Later r'' where
  taskId := h'.taskId.trans h.taskId
  parentTaskId := h'.parentTaskId.trans h.parentTaskId
  userId := h'.userId.trans h.userId
  sessionId := h'.sessionId.trans h.sessionId
  agentId := h'.agentId.trans h.agentId
  callerAgentId := h'.callerAgentId.trans h.callerAgentId
  ended he := by
    have hr := h.ended he
    rw [← hr] at he
    exact (h'.ended he).trans hr

theorem allowed_not_isTerminal {frm dst : TaskState} (h : allowed frm dst = true) :
    frm.isTerminal = false := by
  by_contra ht
  rw [not_allowed_of_isTerminal (by simpa using ht)] at h
  exact absurd h (by simp)

theorem TaskRow.later_moved {r : TaskRow} {new : TaskState} {c : Cause}
    (ha : allowed r.state new = true) : r.Later (r.moved new c) :=
  ⟨rfl, rfl, rfl, rfl, rfl, rfl, fun h => by simp [allowed_not_isTerminal ha] at h⟩

theorem Tasks.later_update {ts : Tasks} {t₀ t : TaskId} {r₀ r : TaskRow} {f : TaskRow → TaskRow}
    (h₀ : ts.lookup t₀ = some r₀) (hf : r₀.Later (f r₀)) (hr : ts.lookup t = some r) :
    ∃ r', AList.lookup t (ts.update t₀ f) = some r' ∧ r.Later r' := by
  rw [Table.lookup_update]
  split_ifs with h
  · subst h
    rw [hr, Option.some.injEq] at h₀
    exact ⟨f r, by rw [hr]; rfl, h₀ ▸ hf⟩
  · exact ⟨r, hr, .refl r⟩

/-! ### The actions have these effects -/

/-- `s'` has the database of `s`, and every name of `s`. -/
def Router.InMemory (s s' : Router) : Prop := s'.db = s.db ∧ s.named ⊆ s'.named

section

variable {s s' : Router} {a : AgentId} {k : SocketId} {cap d now ttl : ℕ} {e : Envelope}

theorem Router.InMemory.of_eq (hd : s'.db = s.db) (hn : s'.named = s.named) : s.InMemory s' :=
  ⟨hd, hn ▸ List.Subset.refl _⟩

/-- Nothing has changed but channels and pending acks. -/
def Router.Transmits (s s' : Router) : Prop :=
  s' = { s with channels := s'.channels, correlation := s'.correlation }

theorem Router.Transmits.inMemory (h : s.Transmits s') : s.InMemory s' :=
  .of_eq (by rw [h]) (by rw [h])

theorem Router.Transmits.registry (h : s.Transmits s') : s'.registry = s.registry := by rw [h]

theorem Router.Transmits.callerAgentCache (h : s.Transmits s') :
    s'.callerAgentCache = s.callerAgentCache := by rw [h]

theorem Router.transmits_putNowait {ch : ChannelId} (h : s.putNowait cap ch e = some s') :
    s.Transmits s' := by
  simp only [putNowait, Option.ite_none_right_eq_some, Option.some.injEq] at h
  obtain ⟨-, rfl⟩ := h
  rfl

theorem Router.transmits_deliver : s.Transmits (s.deliver cap a e).1 := by
  unfold deliver
  split
  · rfl
  · split
    · exact transmits_putNowait ‹_›
    · rfl

theorem Router.transmits_deliverAwait : s.Transmits (s.deliverAwait cap d a e).1 := by
  unfold deliverAwait
  split
  · rfl
  · split
    · rfl
    · rename_i s₁ h
      show _ = _
      rw [transmits_putNowait h]
      rfl

theorem Router.transmits_settleFrom (ref : CorrelationId) (f : Frame) :
    s.Transmits (s.settleFrom k ref f) := by
  unfold settleFrom
  split
  · rfl
  · split_ifs <;> rfl

theorem Router.transmits_sendNext {fails : Bool} (h : s.sendNext k fails = some s') :
    s.Transmits s' := by
  simp only [sendNext, Option.bind_eq_some_iff] at h
  obtain ⟨e, -, h⟩ := h
  split at h
  · exact absurd h (by simp)
  · obtain rfl := Option.some.inj h
    rfl

theorem Router.inMemory_sessionLevel (u : UserId) : s.InMemory (s.sessionLevel now ttl u).1 := by
  unfold sessionLevel
  split_ifs
  · exact .of_eq rfl rfl
  · split
    · exact .of_eq rfl rfl
    · split
      · exact .of_eq rfl rfl
      · split_ifs <;> exact .of_eq rfl rfl

theorem Router.inMemory_detach : s.InMemory (s.detach k).1 := by
  unfold detach
  split
  · exact .of_eq rfl rfl
  · dsimp only
    split_ifs <;> exact .of_eq rfl rfl

theorem Router.inMemory_expireResume : s.InMemory (s.expireResume a k).1 := by
  unfold expireResume
  split_ifs <;> exact .of_eq rfl rfl

end

namespace Act

variable {cfg : Config} {β : Type} {a : Act β} {e : Env} {s s' : Router} {b : β}

/-- The actions that only send, receive and wait. -/
def transmits : {β : Type} → Act β → Bool
  | _, deliver _ _ => true
  | _, deliverAwait _ _ => true
  | _, awaitAck _ => true
  | _, put _ _ => true
  | _, settle _ _ _ => true
  | _, reap => true
  | _, sendNext _ => true
  | _, _ => false

theorem exec_transmits (h : exec cfg a e s = some (s', b)) (ha : a.transmits = true) :
    s.Transmits s' := by
  cases a with
  | deliver dst f =>
    obtain rfl : _ = s' := congrArg Prod.fst (Option.some.inj h)
    exact Router.transmits_deliver
  | deliverAwait dst f =>
    unfold exec at h
    simp only [Option.ite_none_left_eq_some] at h
    obtain rfl : _ = s' := congrArg Prod.fst (Option.some.inj h.2)
    exact Router.transmits_deliverAwait
  | awaitAck x =>
    obtain ⟨v, -, hv⟩ := Option.map_eq_some_iff.1 h
    obtain ⟨rfl, -⟩ := Prod.mk.inj hv
    rfl
  | put k f =>
    obtain ⟨entry, -, hv⟩ := Option.bind_eq_some_iff.1 h
    obtain ⟨s₁, hs₁, hv⟩ := Option.map_eq_some_iff.1 hv
    obtain ⟨rfl, -⟩ := Prod.mk.inj hv
    exact Router.transmits_putNowait hs₁
  | settle k ref f =>
    obtain rfl : _ = s' := congrArg Prod.fst (Option.some.inj h)
    exact Router.transmits_settleFrom ref f
  | reap =>
    obtain rfl : _ = s' := congrArg Prod.fst (Option.some.inj h)
    rfl
  | sendNext k =>
    obtain ⟨s₁, hs₁, hv⟩ := Option.map_eq_some_iff.1 h
    obtain ⟨rfl, -⟩ := Prod.mk.inj hv
    exact Router.transmits_sendNext hs₁
  | _ => exact absurd ha (by simp [transmits])

/-- An action that is no transaction leaves the database alone. -/
theorem exec_inMemory (h : exec cfg a e s = some (s', b)) (hw : a.writes = false) :
    s.InMemory s' := by
  by_cases ht : a.transmits = true
  · exact (exec_transmits h ht).inMemory
  cases a with
  | createTask | transition | complete | forceFailTask | delegationPhaseC | closeSession
  | reopenSession | openSession | allocateName => exact absurd hw (by simp [writes])
  | deliver | deliverAwait | awaitAck | put | settle | reap | sendNext => exact absurd rfl ht
  | _ =>
    obtain rfl : _ = s' := congrArg Prod.fst (Option.some.inj h)
    first
      | exact Router.inMemory_sessionLevel _
      | exact Router.inMemory_detach
      | exact Router.inMemory_expireResume
      | exact ⟨rfl, List.subset_cons_self _ _⟩
      | exact .of_eq rfl rfl

theorem of_commit {tx : Db × β} (h : some (s.commit tx) = some (s', b))
    (he : Effect s.named s.db ⟨a, tx.2⟩ tx.1) :
    Effect s.named s.db ⟨a, b⟩ s'.db ∧ s.named ⊆ s'.named := by
  obtain ⟨rfl, rfl⟩ := Prod.mk.inj (Option.some.inj h)
  exact ⟨he, fun _ hx => hx⟩

/-- **What an action does to the database is one of its effects, and names are never forgotten.** -/
theorem exec_effect (h : exec cfg a e s = some (s', b)) :
    Effect s.named s.db ⟨a, b⟩ s'.db ∧ s.named ⊆ s'.named := by
  cases hw : a.writes with
  | false =>
    obtain ⟨hdb, hn⟩ := exec_inMemory h hw
    refine ⟨hdb ▸ .silent ?_, hn⟩
    cases a <;> first | exact trivial | exact absurd hw (by simp [writes])
  | true =>
    cases a with
    | createTask f c d =>
      unfold exec at h
      simp only [Option.ite_none_left_eq_some, not_or, Bool.not_eq_true,
        Option.isSome_eq_false_iff, Option.isNone_iff_eq_none] at h
      obtain ⟨⟨hnew, hnamed⟩, h⟩ := h
      refine of_commit h ?_
      rcases s.db.createTaskTx_cases cfg.isPrintable f c d e.now e.freshId with
        ⟨hdb, hout⟩ | ⟨x, root, hx, hu, ho, -, hp, htx⟩
      · rw [hdb]
        refine .silent ?_
        cases hc : (s.db.createTaskTx cfg.isPrintable f c d e.now e.freshId).2 with
        | created r => exact absurd hc (hout r)
        | _ => trivial
      · rw [htx]
        exact .create hnew hnamed hx hu ho hp
    | transition t new c =>
      refine of_commit h ?_
      rcases s.db.transitionTx_cases t new c with
        ⟨-, htx⟩ | ⟨r, -, -, -, htx⟩ | ⟨r, hr, hs, htx⟩ | ⟨r, hr, ha, htx⟩ <;> rw [htx]
      · exact .silent trivial
      · exact .silent trivial
      · subst hs
        exact .noop hr
      · exact .move hr ha
    | complete f reporter =>
      refine of_commit h ?_
      rcases s.db.completeTx_cases f reporter with
        ⟨-, htx⟩ | ⟨r, -, -, htx⟩ | ⟨r, -, -, -, -, htx⟩ | ⟨r, hr, rfl, hs, htx⟩ |
          ⟨r, hr, rfl, ha, htx⟩ <;> rw [htx]
      · exact .silent trivial
      · exact .silent trivial
      · exact .silent trivial
      · exact .repeated hr hs
      · exact .result hr ha
    | forceFailTask u t code err =>
      refine of_commit h ?_
      rcases s.db.forceFail_cases u t code err with htx | ⟨r, hr, hu, ho, htx⟩ <;> rw [htx]
      · exact .silent trivial
      · exact .forceFail hr hu ho
    | delegationPhaseC f t c =>
      unfold exec at h
      dsimp only at h
      rcases s.db.delegationPhaseC_cases f t c with ⟨hdb, hout⟩ | ⟨r, hr, hu, ho, rfl, htx⟩
      · cases hc : s.db.delegationPhaseC f t c with
        | mk db out =>
          rw [hc] at h hdb hout
          cases out with
          | ok u => exact absurd rfl (hout u)
          | error err =>
            obtain ⟨rfl, rfl⟩ := Prod.mk.inj (Option.some.inj h)
            exact ⟨hdb ▸ .silent trivial, fun _ hx => hx⟩
      · rw [htx] at h
        obtain ⟨rfl, rfl⟩ := Prod.mk.inj (Option.some.inj h)
        exact ⟨.handOver hr hu ho, fun _ hx => hx⟩
    | closeSession u x =>
      obtain ⟨rfl, rfl⟩ := Prod.mk.inj (Option.some.inj h)
      exact ⟨.close e.now, fun _ hx => hx⟩
    | reopenSession u x =>
      refine of_commit h ?_
      unfold Db.reopenSessionTx
      cases hr : s.db.getSession u x with
      | none => exact .silent trivial
      | some row =>
        obtain ⟨hl, hu⟩ := Db.getSession_eq_some.1 hr
        exact .reopen hl hu
    | openSession u =>
      unfold exec at h
      simp only [Option.ite_none_left_eq_some, Bool.not_eq_true,
        Option.isSome_eq_false_iff, Option.isNone_iff_eq_none] at h
      obtain ⟨hnew, h⟩ := h
      obtain ⟨rfl, rfl⟩ := Prod.mk.inj (Option.some.inj h)
      exact ⟨.openSession e.now hnew, fun _ hx => hx⟩
    | allocateName u scope name row d =>
      refine of_commit h ?_
      rcases s.db.allocateName_cases u scope name row d with hdb | ⟨n, hdb⟩ <;> rw [hdb]
      · exact .silent trivial
      · exact .bind
    | _ => exact absurd hw (by simp [writes])

/-- An admission that succeeded has inserted its row. -/
theorem exec_created {f : NewTaskFrame} {caller : AgentId} {deadline : ℕ} {r : TaskRow}
    (h : exec cfg (.createTask f caller deadline) e s = some (s', .created r)) :
    s.db.tasks.lookup r.taskId = none ∧ s'.db.tasks.lookup r.taskId = some r ∧
      ∃ now root newId, r = f.row caller deadline now root newId := by
  unfold exec at h
  simp only [Option.ite_none_left_eq_some, not_or, Bool.not_eq_true,
    Option.isSome_eq_false_iff, Option.isNone_iff_eq_none] at h
  obtain ⟨⟨hnew, -⟩, h⟩ := h
  rcases s.db.createTaskTx_cases cfg.isPrintable f caller deadline e.now e.freshId with
    ⟨-, hout⟩ | ⟨x, root, -, -, -, -, -, htx⟩
  · exact absurd (congrArg Prod.snd (Option.some.inj h)) (hout r)
  · rw [htx] at h
    obtain ⟨rfl, hr⟩ := Prod.mk.inj (Option.some.inj h)
    obtain rfl := Created.created.inj hr
    exact ⟨hnew, AList.lookup_insert _, _, _, _, rfl⟩

/-- A transition that was not refused answers the row as it stands. -/
theorem exec_transition_done {t : TaskId} {new prev : TaskState} {c : Cause} {r : TaskRow}
    (h : exec cfg (.transition t new c) e s = some (s', .done prev r)) :
    s'.db.tasks.lookup t = some r ∧ ∃ r₀, s.db.tasks.lookup t = some r₀ ∧ r₀.Later r ∧
      r₀.state = prev ∧ (prev = new ∨ allowed prev new = true) ∧ r.state = new := by
  unfold exec at h
  dsimp only at h
  rcases s.db.transitionTx_cases t new c with
    ⟨-, htx⟩ | ⟨r₀, -, -, -, htx⟩ | ⟨r₀, hr, hs, htx⟩ | ⟨r₀, hr, ha, htx⟩ <;> rw [htx] at h <;>
    obtain ⟨rfl, hd⟩ := Prod.mk.inj (Option.some.inj h)
  · cases hd
  · cases hd
  · cases hd
    exact ⟨hr, r, hr, .refl r, rfl, .inl hs, hs⟩
  · cases hd
    refine ⟨?_, r₀, hr, TaskRow.later_moved ha, rfl, .inr ha, rfl⟩
    exact (Table.lookup_update _ _ _ _).trans (by rw [if_pos rfl, hr]; rfl)

/-- So does a Result that was not refused. -/
theorem exec_complete_done {f : ResultFrame} {reporter : AgentId} {prev : TaskState} {r : TaskRow}
    (h : exec cfg (.complete f reporter) e s = some (s', .done prev r)) :
    s'.db.tasks.lookup f.taskId = some r ∧ ∃ r₀, s.db.tasks.lookup f.taskId = some r₀ ∧
      r₀.Later r ∧ r₀.activeAgentId = reporter ∧ r₀.state = prev ∧
      (prev = stateFromStatus f.status ∨ allowed prev (stateFromStatus f.status) = true) ∧
      r.state = stateFromStatus f.status := by
  unfold exec at h
  dsimp only at h
  rcases s.db.completeTx_cases f reporter with
    ⟨-, htx⟩ | ⟨r₀, -, -, htx⟩ | ⟨r₀, -, -, -, -, htx⟩ | ⟨r₀, hr, ha, hs, htx⟩ |
      ⟨r₀, hr, ha, hal, htx⟩ <;> rw [htx] at h <;>
    obtain ⟨rfl, hd⟩ := Prod.mk.inj (Option.some.inj h)
  · cases hd
  · cases hd
  · cases hd
  · cases hd
    exact ⟨hr, r, hr, .refl r, ha.symm, rfl, .inl hs, hs⟩
  · cases hd
    refine ⟨?_, r₀, hr, TaskRow.later_moved hal, ha.symm, rfl, .inr hal, rfl⟩
    exact (Table.lookup_update _ _ _ _).trans (by rw [if_pos rfl, hr]; rfl)

end Act

/-! ### What happens over a run -/

namespace Effect

variable {named : List TaskId} {db db' : Db} {x : Event Act} {t : TaskId} {r r' : TaskRow}

/-- **A row stays, and only gets later.** -/
theorem later (h : Effect named db x db') (hr : db.tasks.lookup t = some r) :
    ∃ r', db'.tasks.lookup t = some r' ∧ r.Later r' := by
  cases h with
  | @create f caller d now root newId y hnew =>
    have ht : t ≠ newId := fun he => by rw [he, hnew] at hr; exact absurd hr (by simp)
    exact ⟨r, (AList.lookup_insert_ne ht).trans hr, .refl r⟩
  | move h₀ ha => exact Tasks.later_update h₀ (TaskRow.later_moved ha) hr
  | result h₀ ha => exact Tasks.later_update h₀ (TaskRow.later_moved ha) hr
  | forceFail h₀ _ ho =>
    exact Tasks.later_update h₀ ⟨rfl, rfl, rfl, rfl, rfl, rfl, fun h => by simp [ho] at h⟩ hr
  | handOver h₀ _ ho =>
    exact Tasks.later_update h₀ ⟨rfl, rfl, rfl, rfl, rfl, rfl, fun h => by simp [ho] at h⟩ hr
  | _ => exact ⟨r, hr, .refl r⟩

/-- A new row was inserted by `createTask`. -/
theorem created (h : Effect named db x db') (hnew : db.tasks.lookup t = none)
    (hr : db'.tasks.lookup t = some r') :
    ∃ f caller deadline now root, x = ⟨.createTask f caller deadline, .created r'⟩ ∧
      r' = f.row caller deadline now root t ∧ t ∉ named ∧
      (∃ y, db.sessions.lookup f.sessionId = some y ∧ y.userId = f.userId ∧ y.closedAt = none) ∧
      ∀ p, f.parentTaskId = some p → ∃ r, db.tasks.lookup p = some r ∧ r.userId = f.userId := by
  have hupd : ∀ t₀ (f : TaskRow → TaskRow) r₀, db.tasks.lookup t₀ = some r₀ →
      AList.lookup t (db.tasks.update t₀ f) = none := by
    intro t₀ f r₀ h₀
    rw [Table.lookup_update, if_neg (fun he => ?_), hnew]
    rw [← he, hnew] at h₀
    exact absurd h₀ (by simp)
  cases h with
  | @create f caller d now root newId y _ hnamed hx hu ho hp =>
    have hl : (if t = newId then some (f.row caller d now root newId) else db.tasks.lookup t) =
        some r' := (Table.lookup_insert _ _ _ _).symm.trans hr
    split_ifs at hl with ht
    · obtain rfl := Option.some.inj hl
      subst ht
      exact ⟨f, caller, d, now, root, rfl, rfl, hnamed, ⟨y, hx, hu, ho⟩, hp⟩
    · rw [hnew] at hl
      exact absurd hl (by simp)
  | move h₀ => exact absurd ((hupd _ _ _ h₀).symm.trans hr) (by simp)
  | result h₀ => exact absurd ((hupd _ _ _ h₀).symm.trans hr) (by simp)
  | forceFail h₀ => exact absurd ((hupd _ _ _ h₀).symm.trans hr) (by simp)
  | handOver h₀ => exact absurd ((hupd _ _ _ h₀).symm.trans hr) (by simp)
  | _ => exact absurd (hnew.symm.trans hr) (by simp)

end Effect

/-- The task has ended. -/
def Db.Ended (db : Db) (t : TaskId) : Prop :=
  ∃ r, db.tasks.lookup t = some r ∧ r.state.isTerminal = true

/-- A task that has ended stays ended. -/
theorem Effect.ended {named : List TaskId} {db db' : Db} {x : Event Act} {t : TaskId}
    (h : Effect named db x db') (ht : db.Ended t) : db'.Ended t := by
  obtain ⟨r, hr, he⟩ := ht
  obtain ⟨r', hr', hl⟩ := h.later hr
  exact ⟨r', hr', by rw [hl.ended he, he]⟩

section

variable {cfg : Config} {g : Guard Act Env Router Call Ret} {P Q : Pool Act Router Call Ret}
  {t : TaskId} {r : TaskRow}

/-- In every run a row stays, and only gets later. -/
theorem later_of_run (h : Run (router cfg) g P Q) (hr : P.shared.db.tasks.lookup t = some r) :
    ∃ r', Q.shared.db.tasks.lookup t = some r' ∧ r.Later r' := by
  induction h with
  | refl => exact ⟨r, hr, .refl r⟩
  | start _ _ _ ih => exact ih
  | step _ _ _ he ih =>
    obtain ⟨r₁, hr₁, hl₁⟩ := ih
    obtain ⟨r₂, hr₂, hl₂⟩ := (Act.exec_effect he).1.later hr₁
    exact ⟨r₂, hr₂, hl₁.trans hl₂⟩

theorem ended_of_run (h : Run (router cfg) g P Q) (ht : P.shared.db.Ended t) :
    Q.shared.db.Ended t := by
  obtain ⟨r, hr, he⟩ := ht
  obtain ⟨r', hr', hl⟩ := later_of_run h hr
  exact ⟨r', hr', by rw [hl.ended he, he]⟩

end

end Backplane
