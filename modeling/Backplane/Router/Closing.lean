import Backplane.Router.Reachable
import Mathlib.Data.List.DropRight

/-!
# Closing a session

What a close request leaves behind.

* `Db.Settled u x` : every task of the session has ended and no name is bound in its scope.
* `Db.Archived u x` : the user's session is closed.
* `Closing`, `closing` : what the coroutine of a close request has listed and what it has cancelled.
* `closesAll` : the closing transaction meets no open task that was not listed, and no name is bound
  in the scope of a closed session.
* `close_final` : in the runs that keep to this guard a close request that has returned leaves a
  settled session, until the session is reopened.
-/

namespace Backplane

open Concur Prog

/-- Every task of the session has ended, and no name is bound in its scope. -/
def Db.Settled (db : Db) (u : UserId) (x : SessionId) : Prop :=
  (∀ t r, db.tasks.lookup t = some r → r.sessionId = x → r.state.isTerminal = true) ∧
    db.sessionNames u x = []

/-- The user's session is closed. -/
def Db.Archived (db : Db) (u : UserId) (x : SessionId) : Prop :=
  ∃ row, db.sessions.lookup x = some row ∧ row.userId = u ∧ row.closedAt.isSome = true

section

variable {named : List TaskId} {db db' : Db} {y : Event Act} {u v : UserId} {x z : SessionId}

theorem Db.sessionNames_eq_nil : db.sessionNames u x = [] ↔
    ∀ n, db.fileNames.lookup (u, scopeFor false x, n) = none := by
  rw [List.eq_nil_iff_forall_not_mem]
  constructor
  · intro h n
    by_contra hn
    exact h (u, scopeFor false x, n)
      (Db.mem_sessionNames.2 ⟨Option.isSome_iff_ne_none.2 hn, rfl, rfl⟩)
  · rintro h ⟨w, sc, n⟩ hk
    obtain ⟨hs, rfl, rfl⟩ := Db.mem_sessionNames.1 hk
    rw [h n] at hs
    exact absurd hs (by simp)

/-- Closing a session deletes the names in its scope, and no name comes back. -/
theorem Db.lookup_closeSessionTx (db : Db) (now : ℕ) (v : UserId) (z : SessionId)
    (k : UserId × String × String) :
    (db.closeSessionTx now v z).fileNames.lookup k =
      if k.1 = v ∧ k.2.1 = scopeFor false z then none else db.fileNames.lookup k := by
  have hdel : ∀ row, (db.closeSessionTx now v z).fileNames.lookup k = some row ↔ _ :=
    fun row => Table.lookup_deleteWhere
  split_ifs with hk
  · by_contra hne
    obtain ⟨row, hrow⟩ := Option.ne_none_iff_exists'.1 hne
    obtain ⟨-, hfalse⟩ := (hdel row).1 hrow
    simp [hk] at hfalse
  · refine Option.ext fun row => ?_
    rw [hdel row]
    refine and_iff_left ?_
    simpa using hk

/-- A settled session stays settled while it is closed and no name is bound in its scope. -/
theorem Effect.settled (h : Effect named db y db') (hs : db.Settled u x) (hc : db.Archived u x)
    (hb : ∀ scope name row d out, y = ⟨.allocateName u scope name row d, out⟩ →
      scope ≠ scopeFor false x) : db'.Settled u x := by
  constructor
  · intro t r' hr' hx
    cases hr : db.tasks.lookup t with
    | none =>
      -- a new task is admitted into an open session only
      obtain ⟨f, c, d, now, root, -, rfl, -, ⟨w, hw, -, hopen⟩, -⟩ := h.created hr hr'
      obtain ⟨row, hrow, -, hclosed⟩ := hc
      have hfx : f.sessionId = x := hx
      rw [hfx, hrow, Option.some.injEq] at hw
      rw [hw, hopen] at hclosed
      exact absurd hclosed (by simp)
    | some r =>
      obtain ⟨r₁, hr₁, hl⟩ := h.later hr
      obtain rfl := Option.some.inj (hr'.symm.trans hr₁)
      have hend := hs.1 t r hr (hl.sessionId.symm.trans hx)
      rw [hl.ended hend, hend]
  · have hnames := Db.sessionNames_eq_nil.1 hs.2
    rw [Db.sessionNames_eq_nil]
    intro n
    cases h with
    | close now =>
      rw [Db.lookup_closeSessionTx]
      split_ifs
      · rfl
      · exact hnames n
    | @bind w scope name m row d out =>
      refine (Table.lookup_insert _ _ _ _).trans ?_
      split_ifs with hk
      · obtain ⟨rfl, hkey⟩ := Prod.mk.inj hk
        exact absurd (Prod.mk.inj hkey).1.symm (hb scope name row d out rfl)
      · exact hnames n
    | _ => exact hnames n

/-- A closed session stays closed until it is reopened. -/
theorem Effect.archived (h : Effect named db y db') (hc : db.Archived u x)
    (hno : ∀ v, y ≠ ⟨.reopenSession v x, true⟩) : db'.Archived u x := by
  obtain ⟨row, hrow, hu, hclosed⟩ := hc
  cases h with
  | @close v z now =>
    refine ⟨row, ?_, hu, hclosed⟩
    simp only [Db.closeSessionTx]
    cases hg : db.getSession v z with
    | none => exact hrow
    | some row' =>
      dsimp only
      split_ifs with hz
      · exact hrow
      · refine (AList.lookup_insert_ne ?_).trans hrow
        rintro rfl
        rw [(Db.getSession_eq_some.1 hg).1, Option.some.injEq] at hrow
        exact hz (hrow ▸ hclosed)
  | @reopen v z row' hz =>
    refine ⟨row, (AList.lookup_insert_ne ?_).trans hrow, hu, hclosed⟩
    rintro rfl
    exact hno v rfl
  | @openSession v z now hz =>
    refine ⟨row, (AList.lookup_insert_ne ?_).trans hrow, hu, hclosed⟩
    rintro rfl
    rw [hz] at hrow
    exact absurd hrow (by simp)
  | _ => exact ⟨row, hrow, hu, hclosed⟩

/-- A session that is closed was closed before, or has just been closed by its user. -/
theorem Effect.archived_before (h : Effect named db y db') (hc : db'.Archived u x) :
    db.Archived u x ∨ y = ⟨.closeSession u x, ()⟩ := by
  obtain ⟨row, hrow, hu, hclosed⟩ := hc
  cases h with
  | @close v z now =>
    simp only [Db.closeSessionTx] at hrow
    cases hg : db.getSession v z with
    | none =>
      rw [hg] at hrow
      exact .inl ⟨row, hrow, hu, hclosed⟩
    | some row' =>
      rw [hg] at hrow
      dsimp only at hrow
      split_ifs at hrow with hz
      · exact .inl ⟨row, hrow, hu, hclosed⟩
      · rw [Table.lookup_insert] at hrow
        split_ifs at hrow with hx
        · obtain rfl := Option.some.inj hrow
          obtain ⟨-, hown⟩ := Db.getSession_eq_some.1 hg
          have huv : v = u := hown.symm.trans hu
          exact .inr (by rw [hx, huv])
        · exact .inl ⟨row, hrow, hu, hclosed⟩
  | @reopen v z row' hz =>
    have hl := (Table.lookup_insert _ _ _ _).symm.trans hrow
    split_ifs at hl with hx
    · obtain rfl := Option.some.inj hl
      exact absurd hclosed (by simp)
    · exact .inl ⟨row, hl, hu, hclosed⟩
  | @openSession v z now hz =>
    have hl := (Table.lookup_insert _ _ _ _).symm.trans hrow
    split_ifs at hl with hx
    · obtain rfl := Option.some.inj hl
      exact absurd hclosed (by simp)
    · exact .inl ⟨row, hl, hu, hclosed⟩
  | _ => exact .inl ⟨row, hrow, hu, hclosed⟩

end

/-! ### What a close request does -/

/-- What the coroutine of a close request knows. -/
structure Closing where
  found : Option (UserId × SessionId)
  listed : TaskId → Prop
  cancelled : TaskId → Prop
  /-- The session it left closed. -/
  closed : Option (UserId × SessionId)

namespace Closing

/-- Nothing found, nothing done. -/
def none : Closing := ⟨Option.none, fun _ => False, fun _ => False, Option.none⟩

/-- The session that was found is closed after everything that was listed has been cancelled, and
then there is nothing left to do. -/
def ok : {β : Type} → Closing → Act β → Prop
  | _, q, .closeSession u x =>
    q.closed = Option.none ∧ q.found = some (u, x) ∧ ∀ t, q.listed t → q.cancelled t
  | _, q, _ => q.closed = Option.none

/-- Nothing is listed in a session that is closed already. -/
def ans : {β : Type} → Act β → β → Prop
  | _, .closingView _ _, some (true, ts) => ts = []
  | _, _, _ => True

/-- What an answer teaches. -/
def next : {β : Type} → Closing → Act β → β → Closing
  | _, q, .closingView u x, some (false, ts) =>
    { q with found := some (u, x), listed := fun t => q.listed t ∨ t ∈ ts }
  | _, q, .closingView u x, some (true, _) =>
    { q with found := some (u, x), closed := some (u, x) }
  | _, q, .transition t .cancelled _, _ =>
    { q with cancelled := fun y => q.cancelled y ∨ (y = t ∧ q.listed y) }
  | _, q, .closeSession u x, _ => { q with closed := some (u, x) }
  | _, q, _, _ => q

end Closing

/-- The discipline of a close request. -/
def closing : Discipline Act Closing := ⟨Closing.ok, Closing.ans, Closing.next⟩

section

variable {cfg : Config} {q : Closing} {α : Type} {p : Coroutine α} {u : UserId} {x : SessionId}
  {t : TaskId} {rows ts : List TaskId}

/-- Cancelling takes nothing back. -/
theorem Uses.cancelling {I : Closing → Prop} {T : List Tag} (h : Uses p T)
    (hT : ∀ g ∈ T, g ∉ [.closeSession, .closingView]) (hclosed : ∀ q, I q → q.closed = none)
    (hI : ∀ q c, I q → (∀ t, q.cancelled t → c t) → I { q with cancelled := c }) :
    closing.Keeps I p := by
  refine h.keeps fun a ha q hq => ?_
  have hg := hT _ ha
  cases a with
  | closeSession | closingView => exact absurd (by simp [Act.tag]) hg
  | transition t new c =>
    cases new with
    | cancelled => exact ⟨hclosed q hq, fun _ _ => hI q _ hq fun _ => .inl⟩
    | _ => exact ⟨hclosed q hq, fun _ _ => hq⟩
  | _ => exact ⟨hclosed q hq, fun _ _ => hq⟩

/-- The session was found with these tasks, all of which but `ts` have been cancelled. -/
structure Cancelling (u : UserId) (x : SessionId) (rows ts : List TaskId) (q : Closing) : Prop where
  found : q.found = some (u, x)
  listed : ∀ t, q.listed t ↔ t ∈ rows
  todo : ∀ t ∈ rows, t ∈ ts ∨ q.cancelled t
  /-- The session has not been closed yet. -/
  closed : q.closed = none

theorem Uses.cancelling_rest {T : List Tag} (h : Uses p T)
    (hT : ∀ g ∈ T, g ∉ [.closeSession, .closingView]) :
    closing.Keeps (Cancelling u x rows ts) p :=
  h.cancelling hT (fun _ hq => hq.closed) fun _ _ hq hc =>
    ⟨hq.found, hq.listed, fun t ht => (hq.todo t ht).imp_right (hc t), hq.closed⟩

theorem cancelling_cancelOne (ht : t ∈ rows) (reason initiator : String)
    (hq : Cancelling u x rows (t :: ts) q) :
    closing.Obeys q (cancelOne reason initiator t) fun q' _ => Cancelling u x rows ts q' := by
  refine Discipline.obeys_perform_bind.2 ⟨hq.closed, fun out _ => ?_⟩
  have hnow : Cancelling u x rows ts
      { q with cancelled := fun y => q.cancelled y ∨ (y = t ∧ q.listed y) } := by
    refine ⟨hq.found, hq.listed, fun y hy => ?_, hq.closed⟩
    rcases hq.todo y hy with hm | hc
    · rcases List.mem_cons.1 hm with rfl | hm
      · exact .inr (.inr ⟨rfl, (hq.listed y).2 hy⟩)
      · exact .inl hm
    · exact .inr (.inl hc)
  cases out with
  | done prev row =>
    have hrest : Uses (do perform (.notifyTaskTerminal t); pure (some row))
        [.notifyTaskTerminal] := (uses_perform rfl).bind fun _ => trivial
    exact hrest.cancelling_rest (by decide) _ hnow
  | _ => exact hnow

/-- Cancelling a task of the list takes it off what is still to do. -/
theorem cancelling_cancelTask (ht : t ∈ rows) (reason initiator : String)
    (hq : Cancelling u x rows (t :: ts) q) :
    closing.Obeys q (cancelTask t u reason initiator) fun q' _ => Cancelling u x rows ts q' := by
  refine Discipline.obeys_perform_bind.2 ⟨hq.closed, fun ds _ => ?_⟩
  -- the first transition is that of the task itself; what follows is cancelling, too
  have hplan : closing.Obeys q (collect (cancelOne reason initiator) (t :: ds))
      fun q' _ => Cancelling u x rows ts q' := by
    refine Discipline.obeys_bind.2
      ((cancelling_cancelOne ht reason initiator hq).mono fun q' row hq' => ?_)
    have hrest : Uses (collect (cancelOne reason initiator) ds) fanOutTags :=
      only_collect (uses_cancelOne reason initiator) ds
    exact Discipline.obeys_bind.2 ((hrest.cancelling_rest (by decide) q' hq').mono fun _ _ h => h)
  refine Discipline.obeys_bind.2 (hplan.mono fun q' plan hq' => ?_)
  have hfan : Uses (each (fanOutCancelled reason) plan) [.deliver] :=
    only_each (uses_fanOutCancelled reason) plan
  exact Discipline.obeys_bind.2 ((hfan.cancelling_rest (by decide) q' hq').mono fun _ _ h => h)

/-- A close request that answers that the session is the user's has left it closed. -/
theorem closing_closeSession : closing.Obeys .none (closeSession u x) fun q r =>
    r = true → q.closed = some (u, x) := by
  refine Discipline.obeys_perform_bind.2 ⟨rfl, fun v hv => ?_⟩
  cases v with
  | none => exact fun h => absurd h (by simp)
  | some v =>
    obtain ⟨already, rows⟩ := v
    cases already with
    | true =>
      obtain rfl : rows = [] := hv
      exact fun _ => rfl
    | false =>
      have hstart : Cancelling u x rows rows (Closing.none.next (.closingView u x)
          (some (false, rows))) :=
        ⟨rfl, fun t => or_iff_right id, fun t ht => .inl ht, rfl⟩
      refine Discipline.obeys_bind.2 ((Discipline.obeys_each
        (fun ts q => ts ⊆ rows ∧ Cancelling u x rows ts q) (fun t ts q hq => ?_)
        ⟨List.Subset.refl _, hstart⟩).mono fun q _ hq => ?_)
      · have ht : t ∈ rows := hq.1 List.mem_cons_self
        refine (cancelling_cancelTask ht _ _ hq.2).mono fun q' _ hq' => ⟨?_, hq'⟩
        exact fun y hy => hq.1 (List.mem_cons_of_mem _ hy)
      · refine Discipline.obeys_perform_bind.2 ⟨⟨hq.2.closed, hq.2.found, fun t ht => ?_⟩,
          fun _ _ _ => rfl⟩
        exact (hq.2.todo t ((hq.2.listed t).1 ht)).resolve_left (by simp)

/-- **Every call closes only sessions whose listed tasks it has cancelled.** -/
theorem closing_body (c : Call) : closing.Obeys .none (c.body cfg) fun q r =>
    ∀ u x, c = .closeSession u x → r = .closed true → q.closed = some (u, x) := by
  cases c with
  | closeSession u x =>
    refine Discipline.obeys_bind.2 (closing_closeSession.mono fun q r hq => ?_)
    rintro v z ⟨⟩ hr
    cases r with
    | false => exact absurd hr (by simp)
    | true => exact hq rfl
  | _ =>
    -- no other call looks for a session to close
    refine ((uses_call_body _).cancelling (I := fun q => q.closed = none)
      (by dsimp only [Call.tags]; decide) (fun _ hq => hq) (fun _ _ hq _ => hq) _ rfl).mono
        fun _ _ _ v z hc => absurd hc (by simp)

end

/-! ### Every run -/

/-- The tasks that the close requests of one coroutine have listed. -/
def listedBy (past : List (Event Act)) : List TaskId :=
  past.flatMap fun
    | ⟨.closingView _ _, some (false, ts)⟩ => ts
    | _ => []

/-- The session is opened again. -/
def reopens (x : SessionId) : Event Act → Bool
  | ⟨.reopenSession _ y, true⟩ => decide (y = x)
  | _ => false

/-- The session was reopened after the last action of the coroutine. -/
def reopenedSince (log : Log Act) (i : ℕ) (x : SessionId) : Bool :=
  (log.rtakeWhile fun y => decide (y.1 ≠ i)).any fun y => reopens x y.2

/-- The closing transaction meets no open task that the request has not listed, and no name is bound
in the scope of a closed session. -/
def closesClean (P : Pool Act Router Call Ret) (i : ℕ) : {β : Type} → Act β → Bool
  | _, .closeSession _ x =>
    (P.shared.db.tasks.openWhere fun r => decide (r.sessionId = x)).all fun r =>
      decide (r.taskId ∈ listedBy (P.past i))
  | _, .allocateName u scope _ _ _ =>
    (P.shared.db.sessions.select fun x r =>
      decide (r.userId = u) && decide (scope = scopeFor false x)).all fun r => r.2.closedAt.isNone
  | _, _ => true

/-- Everything closes clean. -/
def closesAll : Guard Act Env Router Call Ret :=
  ⟨fun _ _ => True, fun P i _ a _ => closesClean P i a = true⟩

/-- What the coroutine knows is true. -/
structure Closing.Holds (i : ℕ) (q : Closing) (s : Router) (log : Log Act) : Prop where
  /-- The session is the user's. -/
  found : ∀ {u x}, q.found = some (u, x) →
    ∃ row, s.db.sessions.lookup x = some row ∧ row.userId = u
  /-- No listed task is forgotten. -/
  complete : ∀ t ∈ listedBy (log.past i), q.listed t
  /-- Listed tasks exist. -/
  known : ∀ {t}, q.listed t → ∃ r, s.db.tasks.lookup t = some r
  /-- Cancelled tasks have ended. -/
  cancelled : ∀ {t}, q.cancelled t → s.db.Ended t
  /-- The session is closed until it is reopened. -/
  closed : ∀ {u x}, q.closed = some (u, x) → reopenedSince log i x = false → s.db.Archived u x

section

variable {cfg : Config} {g : Guard Act Env Router Call Ret} {d : Deployment}
  {P : Pool Act Router Call Ret} {q : Closing} {s s' : Router} {log : Log Act} {i j : ℕ} {β : Type}
  {a : Act β} {e : Env} {b : β} {u : UserId} {x : SessionId} {y : Event Act}

theorem listedBy_append (past past' : List (Event Act)) :
    listedBy (past ++ past') = listedBy past ++ listedBy past' := List.flatMap_append

theorem reopenedSince_append (hj : j ≠ i) :
    reopenedSince (log ++ [(j, y)]) i x = (reopenedSince log i x || reopens x y) := by
  simp [reopenedSince, hj]

/-- What is known stays true, whoever moves. -/
theorem Closing.Holds.exec (hq : q.Holds i s log) (he : Act.exec cfg a e s = some (s', b))
    (hi : j = i → q.closed = Option.none ∧ listedBy [⟨a, b⟩] = []) :
    q.Holds i s' (log ++ [(j, ⟨a, b⟩)]) where
  found hf := by
    obtain ⟨row, hrow, hu⟩ := hq.found hf
    obtain ⟨row', hrow', hu'⟩ := (Act.exec_effect he).1.session hrow
    exact ⟨row', hrow', hu'.trans hu⟩
  complete t ht := by
    by_cases hj : j = i
    · subst hj
      rw [Log.past_append_self, listedBy_append, (hi rfl).2, List.append_nil] at ht
      exact hq.complete t ht
    · rw [Log.past_append_ne (Ne.symm hj)] at ht
      exact hq.complete t ht
  known ht := by
    obtain ⟨r, hr⟩ := hq.known ht
    obtain ⟨r', hr', -⟩ := (Act.exec_effect he).1.later hr
    exact ⟨r', hr'⟩
  cancelled ht := (Act.exec_effect he).1.ended (hq.cancelled ht)
  closed {u x} hc hno := by
    by_cases hj : j = i
    · rw [(hi hj).1] at hc
      exact absurd hc (by simp)
    · rw [reopenedSince_append hj, Bool.or_eq_false_iff] at hno
      refine (Act.exec_effect he).1.archived (hq.closed hc hno.1) fun v hv => ?_
      have hre : reopens x ⟨a, b⟩ = true := by
        rw [hv]
        exact decide_eq_true rfl
      rw [hno.2] at hre
      exact absurd hre (by simp)

/-- A cancellation that finds its task leaves it ended. -/
theorem Act.exec_cancelled {t : TaskId} {r : TaskRow} {c : Cause} {out : Transitioned}
    (hr : s.db.tasks.lookup t = some r)
    (he : exec cfg (.transition t .cancelled c) e s = some (s', out)) : s'.db.Ended t := by
  have heff := (exec_effect he).1
  cases out with
  | done prev row =>
    obtain ⟨hrow, r₀, -, -, -, -, hstate⟩ := exec_transition_done he
    exact ⟨row, hrow, by rw [hstate]; rfl⟩
  | notFound =>
    simp only [exec] at he
    rcases s.db.transitionTx_cases t .cancelled c with
      ⟨hn, -⟩ | ⟨r₀, -, -, -, htx⟩ | ⟨r₀, -, -, htx⟩ | ⟨r₀, -, -, htx⟩
    · rw [hr] at hn
      exact absurd hn (by simp)
    all_goals
      rw [htx] at he
      exact absurd (Prod.mk.inj (Option.some.inj he)).2 (by simp)
  | illegal =>
    -- what cannot be cancelled has ended
    refine heff.ended ?_
    simp only [exec] at he
    rcases s.db.transitionTx_cases t .cancelled c with
      ⟨hn, -⟩ | ⟨r₀, hr₀, hne, hal, -⟩ | ⟨r₀, -, -, htx⟩ | ⟨r₀, -, -, htx⟩
    · rw [hr] at hn
      exact absurd hn (by simp)
    · refine ⟨r₀, hr₀, ?_⟩
      by_contra ho
      rw [allowed_terminal (by simpa using ho) (fun _ => TaskState.noConfusion) rfl] at hal
      exact absurd hal (by simp)
    all_goals
      rw [htx] at he
      exact absurd (Prod.mk.inj (Option.some.inj he)).2 (by simp)

/-- What is learned is true. -/
theorem Closing.Holds.next (hw : Wf cfg s.db) (hq : q.Holds i s log) (hok : q.ok a)
    (he : Act.exec cfg a e s = some (s', b)) :
    Closing.ans a b ∧ (q.next a b).Holds i s' (log ++ [(i, ⟨a, b⟩)]) := by
  have hclosed : q.closed = Option.none := by
    cases a with
    | closeSession => exact hok.1
    | _ => exact hok
  have hstay : listedBy [⟨a, b⟩] = [] → q.Holds i s' (log ++ [(i, ⟨a, b⟩)]) :=
    fun hl => hq.exec he fun _ => ⟨hclosed, hl⟩
  cases a with
  | closingView u x =>
    obtain ⟨rfl, rfl⟩ := Prod.mk.inj (Option.some.inj he)
    unfold Db.closingView at hstay ⊢
    cases hg : s.db.getSession u x with
    | none =>
      rw [hg] at hstay
      exact ⟨trivial, hstay rfl⟩
    | some row =>
      rw [hg, Option.map_some] at hstay
      rw [Option.map_some]
      obtain ⟨hl, hu⟩ := Db.getSession_eq_some.1 hg
      split_ifs at hstay ⊢ with hc
      · have hq' := hstay rfl
        refine ⟨rfl, ?_, hq'.complete, hq'.known, hq'.cancelled, ?_⟩
        · rintro v z ⟨⟩
          exact ⟨row, hl, hu⟩
        · rintro v z ⟨⟩ -
          exact ⟨row, hl, hu, hc⟩
      · refine ⟨trivial, ?_, fun t ht => ?_, ?_, hq.cancelled, ?_⟩
        · rintro v z ⟨⟩
          exact ⟨row, hl, hu⟩
        · rw [Log.past_append_self, listedBy_append, List.mem_append] at ht
          rcases ht with ht | ht
          · exact .inl (hq.complete t ht)
          · exact .inr (by simpa [listedBy] using ht)
        · rintro t (ht | ht)
          · exact hq.known ht
          · obtain ⟨r, hr, -⟩ := hw.mem_open.1 ht
            exact ⟨r, hr⟩
        · intro v z hz
          exact absurd (hclosed.symm.trans hz) (by simp)
  | transition t new c =>
    have hq' := hstay rfl
    cases new with
    | cancelled =>
      refine ⟨trivial, hq'.found, hq'.complete, hq'.known, ?_, hq'.closed⟩
      rintro y (hy | ⟨rfl, hy⟩)
      · exact hq'.cancelled hy
      · obtain ⟨r, hr⟩ := hq.known hy
        exact Act.exec_cancelled hr he
    | _ => exact ⟨trivial, hq'⟩
  | closeSession u x =>
    have hq' := hstay rfl
    refine ⟨trivial, hq'.found, hq'.complete, hq'.known, hq'.cancelled, ?_⟩
    rintro v z ⟨⟩ -
    obtain ⟨rfl, -⟩ := Prod.mk.inj (Option.some.inj he)
    obtain ⟨row, hrow, hu⟩ := hq.found hok.2.1
    have hg : s.db.getSession u x = some row := Db.getSession_eq_some.2 ⟨hrow, hu⟩
    simp only [Db.Archived, Db.closeSessionTx, hg]
    split_ifs with hc
    · exact ⟨row, hrow, hu, hc⟩
    · exact ⟨_, AList.lookup_insert _, hu, rfl⟩
  | _ => exact ⟨trivial, hstay rfl⟩

/-- Every closed session is settled. -/
def AllSettled (s : Router) : Prop := ∀ u x, s.db.Archived u x → s.db.Settled u x

theorem AllSettled.exec (hs : AllSettled s) (hw : Wf cfg s.db) (hq : q.Holds i s log)
    (hok : q.ok a) (hg : closesClean ⟨s, log, P.threads⟩ i a = true)
    (he : Act.exec cfg a e s = some (s', b)) : AllSettled s' := by
  intro u x hc
  have heff := (Act.exec_effect he).1
  rcases heff.archived_before hc with hc₀ | hx
  · refine heff.settled (hs u x hc₀) hc₀ fun scope name row d out hx hscope => ?_
    obtain ⟨srow, hrow, hu, hclosed⟩ := hc₀
    cases hx
    -- the guard excludes a name in the scope of a closed session
    have hmem : (x, srow) ∈ s.db.sessions.select fun x r =>
        decide (r.userId = u) && decide (scope = scopeFor false x) :=
      Table.mem_select.2 ⟨hrow, by simp [hu, hscope]⟩
    have hopen : srow.closedAt.isNone = true := List.all_eq_true.1 hg _ hmem
    rw [Option.isNone_iff_eq_none.1 hopen] at hclosed
    exact absurd hclosed (by simp)
  · cases hx
    obtain ⟨rfl, -⟩ := Prod.mk.inj (Option.some.inj he)
    obtain ⟨-, -, hall⟩ := hok
    refine ⟨fun t r hr hrx => ?_, ?_⟩
    · by_contra ho
      have hmem : r ∈ s.db.tasks.openWhere fun r => decide (r.sessionId = x) :=
        Db.mem_openWhere.2 ⟨t, hr, decide_eq_true hrx, by simpa using ho⟩
      -- the guard lets no open task through that was not listed, and what was listed has ended
      have hlisted := of_decide_eq_true (List.all_eq_true.1 hg _ hmem)
      obtain ⟨r', hr', hend⟩ := hq.cancelled (hall _ (hq.complete _ hlisted))
      rw [hw.key hr] at hr'
      obtain rfl := Option.some.inj (hr.symm.trans hr')
      exact ho hend
    · rw [Db.sessionNames_eq_nil]
      intro n
      rw [Db.lookup_closeSessionTx, if_pos ⟨rfl, rfl⟩]

theorem sound_closing (cfg : Config) (d : Deployment) :
    Sound (router cfg) closesAll closing (fun _ => Closing.none) d.boot (fun s _ => AllSettled s)
      (fun i _ q s log => q.Holds i s log) where
  init u x _ := by
    refine ⟨fun t r hr => absurd hr (by simp [Deployment.boot]), ?_⟩
    rw [Db.sessionNames_eq_nil]
    intro n
    rfl
  start {P c} hrun _ _ := by
    refine ⟨fun h => absurd h (by simp [Closing.none]), fun t ht => ?_, False.elim, False.elim,
      fun h => absurd h (by simp [Closing.none])⟩
    rw [show Log.past P.log _ = [] from hrun.past_eq_nil le_rfl] at ht
    exact absurd ht (by simp [listedBy])
  step hrun _ hg he hs hq hok :=
    have hnext := hq.next (wf_of_run hrun) hok he
    ⟨hnext.1, hs.exec (wf_of_run hrun) hq hok hg he, hnext.2⟩
  frame _ _ _ he _ _ _ _ _ _ hj hq' := hq'.exec he fun hji => (hj hji.symm).elim

/-- **A close request that has returned leaves a settled session** until the session is reopened, as
long as every closing transaction meets only tasks that the request has listed, and no name is bound
in the scope of a closed session. -/
theorem close_final (h : Run (router cfg) closesAll (.init d.boot) P)
    (hth : P.threads[i]? = some ⟨.closeSession u x, .ret (.closed true)⟩)
    (hno : reopenedSince P.log i x = false) :
    (∀ t r, P.shared.db.tasks.lookup t = some r → r.sessionId = x → r.state.isTerminal = true) ∧
      P.shared.db.sessionNames u x = [] := by
  obtain ⟨hsettled, hthreads⟩ := (sound_closing cfg d).of_run closing_body h
  obtain ⟨q, hq, hfin⟩ := hthreads i _ hth
  exact hsettled u x (hq.closed (hfin u x rfl rfl) hno)

end

/-- A coroutine has answered that the session is the user's. -/
def hasClosed : Coroutine Ret → Bool
  | .ret (.closed true) => true
  | _ => false

theorem hasClosed_iff {p : Coroutine Ret} : hasClosed p = true ↔ p = .ret (.closed true) := by
  constructor
  · intro h
    unfold hasClosed at h
    split at h
    · rfl
    · exact absurd h (by simp)
  · rintro rfl
    rfl

/-- The session in which `b` executes `t` is closed (coroutine `5`), which cancels `t`. -/
theorem close_final_dispatched : ∃ P, Sample.play (fun P i _ a _ => closesClean P i a)
      (Sample.dispatched ++ [.start (.closeSession "u" "s")] ++ Sample.steps 5 7) = some P ∧
    (∀ t r, P.shared.db.tasks.lookup t = some r → r.sessionId = "s" →
      r.state.isTerminal = true) ∧ P.shared.db.sessionNames "u" "s" = [] := by
  have hplay : ((Sample.play (fun P i _ a _ => closesClean P i a)
      (Sample.dispatched ++ [.start (.closeSession "u" "s")] ++ Sample.steps 5 7)).bind fun P =>
        P.threads[5]?.map fun th => (th.call, hasClosed th.prog, reopenedSince P.log 5 "s")) =
      some (.closeSession "u" "s", true, false) := by
    decide +kernel
  obtain ⟨P, hP, h⟩ := Option.bind_eq_some_iff.1 hplay
  obtain ⟨⟨c, p⟩, hth, h⟩ := Option.map_eq_some_iff.1 h
  obtain ⟨rfl, h⟩ := Prod.mk.inj h
  obtain ⟨hclosed, hno⟩ := Prod.mk.inj h
  obtain rfl := hasClosed_iff.1 hclosed
  exact ⟨P, hP, close_final
    (Sample.run_of_play (fun _ _ => trivial) (fun _ _ _ _ _ hc => hc) hP) hth hno⟩

/-- `a` spawns `t` after the close request (coroutine `3`) has listed the tasks and before it closes
the session: `t` is never cancelled. -/
theorem close_leaves_open : ¬ ∀ (cfg : Config) (d : Deployment) (P : Pool Act Router Call Ret)
    (i : ℕ) (u : UserId) (x : SessionId), Run (router cfg) .free (.init d.boot) P →
    P.threads[i]? = some ⟨.closeSession u x, .ret (.closed true)⟩ →
    reopenedSince P.log i x = false →
    (∀ t r, P.shared.db.tasks.lookup t = some r → r.sessionId = x → r.state.isTerminal = true) ∧
      P.shared.db.sessionNames u x = [] := by
  intro hall
  have hplay : ((Sample.play Sample.anything (Sample.connected ++
      [.start (.closeSession "u" "s"), Sample.step 3,
        Sample.receive 0 "a" (.newTask (Sample.spawn "a" "b"))] ++ Sample.steps 4 5 ++
      [Sample.step 4 "t", Sample.step 3])).bind fun P => P.threads[3]?.map fun th =>
        (th.call, hasClosed th.prog, reopenedSince P.log 3 "s",
          (P.shared.db.tasks.lookup "t").map fun r => (r.sessionId, r.state.isTerminal))) =
      some (.closeSession "u" "s", true, false, some ("s", false)) := by
    decide +kernel
  obtain ⟨P, hP, h⟩ := Option.bind_eq_some_iff.1 hplay
  obtain ⟨⟨c, p⟩, hth, h⟩ := Option.map_eq_some_iff.1 h
  obtain ⟨rfl, h⟩ := Prod.mk.inj h
  obtain ⟨hclosed, h⟩ := Prod.mk.inj h
  obtain ⟨hno, ht⟩ := Prod.mk.inj h
  obtain rfl := hasClosed_iff.1 hclosed
  obtain ⟨r, hr, ht⟩ := Option.map_eq_some_iff.1 ht
  obtain ⟨hx, hopen⟩ := Prod.mk.inj ht
  have hend := (hall {} Sample.deployment P 3 "u" "s" (Sample.free_of_play hP) hth hno).1 "t" r hr hx
  rw [hopen] at hend
  exact absurd hend (by simp)

end Backplane
