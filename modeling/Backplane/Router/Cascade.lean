import Backplane.Router.Absorption

/-!
# A task that falls takes its descendants with it

Cancellation lists the tree of a task first and then cancels it; a failure ends the task first and
lists afterwards; a Result lists nothing.

* `TaskState.takesDown` : the states in which a task must not leave open descendants behind.
* `Rounds`, `cascade` : what a coroutine has brought down, listed, and still has to cancel.
* `cascade_body` : every program goes through what it lists, and lists what it brings down.
* `cascade_reaches` : the depth bounds agree, so a listing misses nothing and all it found ends.
* `Sealed` : a fallen task without open descendants; no task is admitted below it.
* `cascade_complete` : whatever a finished coroutine brought down is sealed, as long as no task is
  admitted into a tree that is being brought down, Results do not fall on open descendants, and the
  database does not fail halfway.
-/

namespace Backplane

open Concur Prog

/-- The states in which a task takes its descendants down with it. -/
def TaskState.takesDown : TaskState → Bool
  | failed | cancelled | timedOut => true
  | _ => false

theorem TaskState.isTerminal_of_takesDown {s : TaskState} (h : s.takesDown = true) :
    s.isTerminal = true := by
  cases s <;> first | rfl | exact absurd h (by simp [takesDown])

/-! ### The rounds of a cascade -/

/-- How far a coroutine has got with what it brings down. -/
structure Rounds where
  /-- Brought down, and in no listing yet. -/
  owed : TaskId → Prop
  /-- The root of a listing, or found by it. -/
  seen : TaskId → Prop
  /-- Found by a listing, and not cancelled yet. -/
  todo : TaskId → Prop

namespace Rounds

/-- Nothing brought down, nothing listed. -/
def none : Rounds := ⟨fun _ => False, fun _ => False, fun _ => False⟩

/-- A listing of the tree of `t`. -/
def list (q : Rounds) (t : TaskId) (ds : List TaskId) : Rounds where
  owed y := q.owed y ∧ y ≠ t ∧ y ∉ ds
  seen y := q.seen y ∨ y = t ∨ y ∈ ds
  todo y := q.todo y ∨ y ∈ ds

/-- `t` was brought down. -/
def fall (q : Rounds) (t : TaskId) : Rounds :=
  { q with owed := fun y => q.owed y ∨ (y = t ∧ ¬ q.seen t) }

/-- `t` was asked to be cancelled. -/
def strike (q : Rounds) (t : TaskId) : Rounds := { q with todo := fun y => q.todo y ∧ y ≠ t }

/-- What an answer teaches.  After a database failure nothing is left to do. -/
def next : {β : Type} → Rounds → Act β → β → Rounds
  | _, q, .listDescendants _ t, ds => q.list t ds
  | _, q, .transition t .cancelled _, .done _ _ => (q.strike t).fall t
  | _, q, .transition t .cancelled _, _ => q.strike t
  | _, q, .transition t new _, .done _ _ => if new.takesDown then q.fall t else q
  | _, _, .fault, true => none
  | _, q, _, _ => q

/-- Everything brought down was listed, and everything listed was asked to be cancelled. -/
def Clear (q : Rounds) : Prop := (∀ y, ¬ q.owed y) ∧ ∀ y, ¬ q.todo y

end Rounds

/-- The discipline of cascades. -/
def cascade : Discipline Act Rounds := ⟨fun _ _ => True, fun _ _ => True, Rounds.next⟩

section

variable {q : Rounds} {α : Type} {p : Coroutine α} {t : TaskId} {u : UserId}

/-- The tags of the actions that have to do with cascades. -/
def cascadeTagsSpecial : List Tag :=
  [.listDescendants, .transition .failed, .transition .cancelled, .transition .timedOut, .fault]

theorem Uses.cascade {T : List Tag} (h : Uses p T) (hT : ∀ g ∈ T, g ∉ cascadeTagsSpecial) :
    cascade.Obeys q p fun q' _ => q' = q := by
  refine .of_only (Only.mono h fun a ha q => ⟨trivial, fun b _ => ?_⟩) fun _ => rfl
  have hg := hT _ ha
  cases a with
  | listDescendants | fault => exact absurd (by simp [Act.tag, cascadeTagsSpecial]) hg
  | transition t new c =>
    cases new <;> first
      | (cases b <;> rfl)
      | exact absurd (by simp [Act.tag, cascadeTagsSpecial]) hg
  | _ => rfl

theorem Uses.cascade_clear {T : List Tag} (h : Uses p T) (hT : ∀ g ∈ T, g ∉ cascadeTagsSpecial) :
    Backplane.cascade.Keeps Rounds.Clear p :=
  fun _ hq => (h.cascade hT).mono fun _ _ he => he ▸ hq

/-- Cancelling one task strikes it off; it is owed if no listing has found it. -/
theorem cascade_cancelOne (reason initiator : String) (hs : q.seen t) :
    cascade.Obeys q (cancelOne reason initiator t) fun q' _ =>
      (∀ y, q'.owed y → q.owed y) ∧ (∀ y, q.seen y → q'.seen y) ∧
        ∀ y, q'.todo y → q.todo y ∧ y ≠ t := by
  refine Discipline.obeys_perform_bind.2 ⟨trivial, fun out _ => ?_⟩
  cases out with
  | done prev row =>
    refine Discipline.obeys_perform_bind.2 ⟨trivial, fun _ _ => ⟨?_, fun _ h => h, fun _ h => h⟩⟩
    rintro y (h | ⟨-, hn⟩)
    · exact h
    · exact absurd hs hn
  | _ => exact ⟨fun _ h => h, fun _ h => h, fun _ h => h⟩

/-- Cancelling a list of tasks that were seen strikes them all off. -/
theorem cascade_cancelAll (reason initiator : String) (ts : List TaskId)
    (hs : ∀ t ∈ ts, q.seen t) :
    cascade.Obeys q (cancelAll reason initiator ts) fun q' _ =>
      (∀ y, q'.owed y → q.owed y) ∧ ∀ y, q'.todo y → q.todo y ∧ y ∉ ts := by
  refine Discipline.obeys_bind.2 ((Discipline.obeys_collect (fun xs _ q' =>
    (∀ y, q'.owed y → q.owed y) ∧ (∀ y, q.seen y → q'.seen y) ∧ (∀ y ∈ xs, q.seen y) ∧
      ∀ y, q'.todo y → q.todo y ∧ (y ∈ ts → y ∈ xs)) ?_ []
    ⟨fun _ h => h, fun _ h => h, hs, fun _ h => ⟨h, id⟩⟩).mono fun q₁ plan h => ?_)
  · rintro x xs bs q₁ ⟨ho, hseen, hxs, htodo⟩
    refine (cascade_cancelOne reason initiator
      (hseen x (hxs x List.mem_cons_self))).mono fun q₂ b h => ?_
    obtain ⟨ho', hseen', htodo'⟩ := h
    refine ⟨fun y hy => ho y (ho' y hy), fun y hy => hseen' y (hseen y hy),
      fun y hy => hxs y (List.mem_cons_of_mem _ hy), fun y hy => ?_⟩
    obtain ⟨hq, hne⟩ := htodo' y hy
    obtain ⟨hq', hmem⟩ := htodo y hq
    exact ⟨hq', fun hy => (List.mem_cons.1 (hmem hy)).resolve_left hne⟩
  · obtain ⟨ho, -, -, htodo⟩ := h
    have hfan : Uses (each (fanOutCancelled reason) plan) [.deliver] :=
      only_each (fun row => uses_fanOutCancelled reason row) plan
    refine Discipline.obeys_bind.2 ((hfan.cascade (by decide)).mono fun q₂ _ he => ?_)
    subst he
    exact ⟨ho, fun y hy => ⟨(htodo y hy).1, fun hm => absurd ((htodo y hy).2 hm) (by simp)⟩⟩

theorem cascade_cancelTask (t : TaskId) (u : UserId) (reason initiator : String) :
    Backplane.cascade.Keeps Rounds.Clear (cancelTask t u reason initiator) := by
  rintro q ⟨ho, ht⟩
  refine Discipline.obeys_perform_bind.2 ⟨trivial, fun ds _ => ?_⟩
  refine (cascade_cancelAll reason initiator (t :: ds) fun y hy => ?_).mono fun q' _ h => ?_
  · exact .inr (List.mem_cons.1 hy)
  · refine ⟨fun y hy => ho y (h.1 y hy).1, fun y hy => ?_⟩
    obtain ⟨h₁ | h₁, hne⟩ := h.2 y hy
    · exact ht y h₁
    · exact hne (List.mem_cons_of_mem _ h₁)

/-- A cascade below `t` settles what is owed for `t`. -/
theorem cascade_cancelSubtree (reason : String) (ho : ∀ y, q.owed y → y = t)
    (ht : ∀ y, ¬ q.todo y) :
    cascade.Obeys q (cancelSubtree t u reason) fun q' _ => q'.Clear := by
  refine Discipline.obeys_perform_bind.2 ⟨trivial, fun ds _ => Discipline.obeys_bind.2
    ((cascade_cancelAll reason "router" ds fun y hy => Or.inr (.inr hy)).mono fun q' _ h => ?_)⟩
  refine ⟨fun y hy => ?_, fun y hy => ?_⟩
  · obtain ⟨h₁, hne, -⟩ := h.1 y hy
    exact hne (ho y h₁)
  · obtain ⟨h₁ | h₁, hne⟩ := h.2 y hy
    · exact ht y h₁
    · exact hne h₁

theorem cascade_failOwned (t : TaskId) (u : UserId) (x : Failure) :
    cascade.Keeps Rounds.Clear (failOwned t u x) := by
  intro q hq
  refine Discipline.obeys_perform_bind.2 ⟨trivial, fun out _ => ?_⟩
  cases out with
  | done prev row =>
    have hfall : cascade.next q (.transition t x.terminalState.state x.cause) (.done prev row) =
        q.fall t := by
      cases x.terminalState <;> rfl
    rw [hfall]
    refine Discipline.obeys_perform_bind.2 ⟨trivial, fun _ _ => ?_⟩
    refine Discipline.obeys_bind.2 ((cascade_cancelSubtree (q := q.fall t) _ ?_ hq.2).mono ?_)
    · rintro y (h | ⟨h, -⟩)
      · exact absurd h (hq.1 y)
      · exact h
    · exact fun q' _ hq' => (uses_notifyParentOwner row x).cascade_clear (by decide) q' hq'
  | _ => cases x.terminalState <;> exact hq

theorem cascade_safeFail (t : TaskId) (u : UserId) (code : ℕ) (reason : String) (error : Json) :
    cascade.Keeps Rounds.Clear (safeFail t u code reason error) := by
  intro q hq
  refine Discipline.obeys_bind.2 ((Discipline.Obeys.interruptible (fun _ => ⟨trivial, rfl⟩)
    (cascade_failOwned t u _ q hq)).mono fun q₁ out h => ?_)
  cases out with
  | some _ => exact h.1 () rfl
  | none =>
    obtain ⟨q₂, rfl⟩ := h.2 rfl
    have hclear : Rounds.none.Clear := ⟨fun _ h => h, fun _ h => h⟩
    refine Discipline.obeys_perform_bind.2 ⟨trivial, fun hit _ => ?_⟩
    cases hit with
    | true => exact hclear
    | false => exact ⟨trivial, fun b _ => by cases b <;> exact hclear⟩

theorem cascade_keeps (cfg : Config) : KeepsTasks cfg cascade Rounds.Clear where
  plain _ hx := Uses.cascade_clear (T := plainTags) (only_perform.2 hx) (by decide)
  progress dst f := Uses.cascade_clear (T := [.deliver]) (uses_perform rfl) (by decide)
  complete f _ := uses_completeTask.cascade_clear (by decide)
  cancel := cascade_cancelTask
  fail := keeps_failTask (fun _ _ hq => ⟨trivial, fun _ _ => hq⟩) cascade_failOwned
  admission f _ := keeps_admitTask f
    (fun _ hx => Uses.cascade_clear (T := admissionTags) (only_perform.2 hx) (by decide))
    (fun _ _ => (uses_deliverFrame _ _).cascade_clear (by decide)) cascade_safeFail

/-- **Every call goes through what it lists, and lists what it brings down.** -/
theorem cascade_body (cfg : Config) (c : Call) :
    cascade.Obeys .none (c.body cfg) fun q _ => q.Clear :=
  (cascade_keeps cfg).body c _ ⟨fun _ h => h, fun _ h => h⟩

end

/-- A listing of a tree. -/
structure Listing where
  thread : ℕ
  user : UserId
  root : TaskId
  found : List TaskId
  deriving DecidableEq

/-- The listings of a history. -/
def listings (log : Log Act) : List Listing :=
  log.filterMap fun
    | (i, ⟨.listDescendants u t, ds⟩) => some ⟨i, u, t, ds⟩
    | _ => none

theorem mem_listings {log : Log Act} {i : ℕ} {u : UserId} {t : TaskId} {ds : List TaskId} :
    ⟨i, u, t, ds⟩ ∈ listings log ↔ (i, ⟨.listDescendants u t, ds⟩) ∈ log := by
  rw [listings, List.mem_filterMap]
  constructor
  · rintro ⟨⟨j, ⟨a, b⟩⟩, hm, hx⟩
    cases a with
    | listDescendants u' t' =>
      obtain ⟨rfl, rfl, rfl, rfl⟩ : j = i ∧ u' = u ∧ t' = t ∧ b = ds := by simpa using hx
      exact hm
    | _ => exact absurd hx (by simp)
  · exact fun hm => ⟨_, hm, rfl⟩

/-! ### A cascade reaches what it has listed -/

section

variable {cfg : Config} {q : Rounds} {s s' : Router} {β : Type} {a : Act β} {e : Env} {b : β}
  {t y : TaskId} {d : Deployment} {P : Pool Act Router Call Ret} {i : ℕ}

/-- What is to be done stays to be done until the task is asked to be cancelled. -/
theorem Rounds.todo_next (h : q.todo y) : (q.next a b).todo y ∨
    (⟨a, b⟩ : Event Act) = ⟨.fault, true⟩ ∨
      ∃ c out, (⟨a, b⟩ : Event Act) = ⟨.transition y .cancelled c, out⟩ := by
  cases a with
  | fault => cases b with
    | true => exact .inr (.inl rfl)
    | false => exact .inl h
  | listDescendants u t => exact .inl (.inl h)
  | transition t new c =>
    cases new with
    | cancelled =>
      by_cases ht : y = t
      · exact .inr (.inr ⟨c, b, ht ▸ rfl⟩)
      · exact .inl (by cases b <;> exact ⟨h, ht⟩)
    | _ => exact .inl (by cases b <;> exact h)
  | _ => exact .inl h

/-- A task that was asked to be cancelled has ended, whatever the answer. -/
theorem ended_of_cancel {c : Cause} {out : Transitioned}
    (he : Act.exec cfg (.transition t .cancelled c) e s = some (s', out))
    (hr : (s.db.tasks.lookup t).isSome) : s'.db.Ended t := by
  obtain ⟨r, hr⟩ := Option.isSome_iff_exists.1 hr
  cases out with
  | done prev row =>
    obtain ⟨hrow, -, -, -, -, -, hst⟩ := Act.exec_transition_done he
    exact ⟨row, hrow, by rw [hst]; rfl⟩
  | _ =>
    simp only [Act.exec] at he
    rcases s.db.transitionTx_cases t .cancelled c with
      ⟨hn, -⟩ | ⟨r', hr', -, hal, htx⟩ | ⟨r', -, -, htx⟩ | ⟨r', -, -, htx⟩
    · exact absurd (hr.symm.trans hn) (by simp)
    · rw [htx] at he
      obtain ⟨rfl, -⟩ := Prod.mk.inj (Option.some.inj he)
      refine ⟨r', hr', ?_⟩
      by_contra ho
      have hcan : allowed r'.state .cancelled = true :=
        allowed_terminal (Bool.eq_false_iff.2 ho) (fun _ => TaskState.noConfusion) rfl
      exact absurd (hcan.symm.trans hal) (by simp)
    all_goals
      rw [htx] at he
      exact absurd (congrArg Prod.snd (Option.some.inj he)) (by simp [Router.commit])

theorem isSome_exec (he : Act.exec cfg a e s = some (s', b))
    (h : (s.db.tasks.lookup t).isSome) : (s'.db.tasks.lookup t).isSome := by
  obtain ⟨r, hr⟩ := Option.isSome_iff_exists.1 h
  obtain ⟨r', hr', -⟩ := (Act.exec_effect he).1.later hr
  exact Option.isSome_iff_exists.2 ⟨r', hr'⟩

theorem Wf.isSome_of_below {db : Db} (h : Forest.Below db.tasks.parent t y) :
    (db.tasks.lookup y).isSome := by
  obtain ⟨p, hp, -⟩ := h.cases_tail
  obtain ⟨r, hr, -⟩ := Option.bind_eq_some_iff.1 hp
  exact Option.isSome_iff_exists.2 ⟨r, hr⟩

/-- A listing finds the descendants there are. -/
theorem mem_listing (h : Run (router cfg) g (.init d.boot) P) {c : Call} {u : UserId}
    {k : List TaskId → Coroutine Ret}
    (ht : P.threads[i]? = some ⟨c, .act (.listDescendants u t) k⟩) :
    y ∈ P.shared.db.listDescendants u t ↔ Forest.Below P.shared.db.tasks.parent t y := by
  obtain ⟨r, hr, rfl⟩ := owner_of_run h ht
  exact (wf_of_run h).mem_listDescendants hr

/-- What coroutine `i` has listed has ended or is still to be done. -/
def Rounds.Reaches (q : Rounds) (i : ℕ) (s : Router) (log : Log Act) : Prop :=
  ∀ u t ds, (i, ⟨.listDescendants u t, ds⟩) ∈ log → (i, ⟨.fault, true⟩) ∉ log →
    ∀ y ∈ ds, (s.db.tasks.lookup y).isSome ∧ (q.todo y ∨ s.db.Ended y)

theorem Rounds.Reaches.frame {log : Log Act} (hq : q.Reaches i s log) {j : ℕ} (hj : i ≠ j)
    (he : Act.exec cfg a e s = some (s', b)) : q.Reaches i s' (log ++ [(j, ⟨a, b⟩)]) := by
  intro u t ds hm hf y hy
  have hold : ∀ x : Event Act, (i, x) ∈ log ++ [(j, ⟨a, b⟩)] → (i, x) ∈ log := by
    intro x hx
    refine (List.mem_append.1 hx).resolve_right fun hx => hj ?_
    exact (Prod.mk.inj (List.mem_singleton.1 hx)).1
  obtain ⟨hsome, hor⟩ := hq u t ds (hold _ hm)
    (fun hf' => hf (List.mem_append_left _ hf')) y hy
  exact ⟨isSome_exec he hsome, hor.imp_right (Act.exec_effect he).1.ended⟩

theorem sound_reaches (cfg : Config) (g : Guard Act Env Router Call Ret) (d : Deployment) :
    Sound (router cfg) g cascade (fun _ => Rounds.none) d.boot (fun _ _ => True)
      (fun i _ q s log => q.Reaches i s log) where
  init := trivial
  start hrun _ _ := fun u t ds hm => absurd (hrun.log_lt _ hm) (by simp)
  step {P i c β a k e s b q} hrun ht _ he _ hq _ := by
    refine ⟨trivial, trivial, fun u t ds hm hf y hy => ?_⟩
    rcases List.mem_append.1 hm with hm | hm
    · obtain ⟨hsome, htodo | hend⟩ := hq u t ds hm (fun hf' => hf (List.mem_append_left _ hf')) y hy
      · refine ⟨isSome_exec he hsome, ?_⟩
        rcases q.todo_next htodo with htodo | hx | ⟨c', out, hx⟩
        · exact .inl htodo
        · exact absurd (List.mem_append_right _ (List.mem_singleton.2 (by rw [hx]))) hf
        · cases hx
          have hexec : Act.exec cfg (.transition y .cancelled c') e P.shared = some (s, out) := he
          exact .inr (ended_of_cancel hexec hsome)
      · exact ⟨isSome_exec he hsome, .inr ((Act.exec_effect he).1.ended hend)⟩
    · obtain ⟨-, hx⟩ := Prod.mk.inj (List.mem_singleton.1 hm)
      cases hx
      obtain ⟨rfl, rfl⟩ := Prod.mk.inj (Option.some.inj he)
      exact ⟨Wf.isSome_of_below ((mem_listing hrun ht).1 hy), .inl (.inr hy)⟩
  frame _ _ _ he _ _ _ _ _ _ hj hq' := hq'.frame hj he

/-- **The depth bounds agree.**  The ancestor chain of a task is never longer than the configured
depth; a listing misses no descendant; and a coroutine that has returned has ended all that it
listed, unless the database failed in it. -/
theorem cascade_reaches (h : Run (router cfg) .free (.init d.boot) P) :
    (∀ t r, P.shared.db.tasks.lookup t = some r →
      ∃ n ≤ cfg.spawnMaxDepth, Forest.Depth P.shared.db.tasks.parent t n) ∧
    ∀ l i u t ds l', P.log = l ++ (i, ⟨.listDescendants u t, ds⟩) :: l' →
      (∃ Q, Run (router cfg) .free (.init d.boot) Q ∧ Run (router cfg) .free Q P ∧ Q.log = l ∧
        ∀ y, y ∈ ds ↔ Forest.Below Q.shared.db.tasks.parent t y) ∧
      ∀ th, P.threads[i]? = some th → th.prog.Finished → (i, ⟨.fault, true⟩) ∉ P.log →
        ∀ y ∈ ds, P.shared.db.Ended y := by
  refine ⟨fun t r hr => (wf_of_run h).depth hr, fun l i u t ds l' hlog => ⟨?_, ?_⟩⟩
  · obtain ⟨Q, c, β, a, k, e, s, b, hQ, hl, ht, -, he, hx, hrest⟩ :=
      h.exists_step hlog (by simp [Pool.init])
    cases hx
    obtain ⟨-, rfl⟩ := Prod.mk.inj (Option.some.inj he)
    exact ⟨Q, hQ, ((Run.refl Q).step ht trivial he).trans hrest, hl, fun y => mem_listing hQ ht⟩
  · rintro ⟨c, p⟩ hth hfin hf y hy
    obtain ⟨q, hq, hob⟩ :=
      ((sound_reaches cfg .free d).of_run (cascade_body cfg) h).2 i _ hth
    cases p with
    | act a k => exact hfin.elim
    | ret out =>
      have hclear : q.Clear := hob
      obtain ⟨-, htodo | hend⟩ := hq u t ds (by rw [hlog]; simp) hf y hy
      · exact absurd htodo (hclear.2 y)
      · exact hend

/-- `b`, the agent of `t`, spawns `t'` on `c` (coroutines `5` and `6`). -/
def Sample.withChild : List (Move Env Call) :=
  Sample.dispatched ++ [Sample.receive 1 "b" (.newTask (Sample.spawn "b" "c" (some "t")))] ++
    Sample.steps 5 6 ++ [Sample.step 5 "t'", Sample.step 5, Sample.step 5 "k'",
      Sample.receive 2 "c" (.ack (Sample.ack "c" "k'" true)), Sample.step 6] ++ Sample.steps 5 3

/-- Then the user cancels `t`, which takes `t'` down (coroutine `7`). -/
def Sample.cancelledTree : List (Move Env Call) :=
  Sample.withChild ++ .start (.cancelTask "u" "t") :: Sample.steps 7 10

/-- The cascade below `t` reaches `t'`. -/
theorem cascade_reaches_child : ∃ P, Sample.play Sample.anything Sample.cancelledTree = some P ∧
    (∃ n ≤ ({} : Config).spawnMaxDepth, Forest.Depth P.shared.db.tasks.parent "t'" n) ∧
    P.shared.db.Ended "t'" := by
  have hplay : ((Sample.play Sample.anything Sample.cancelledTree).map fun P =>
      ((listings P.log, (P.shared.db.tasks.lookup "t'").isSome),
        P.threads[7]?.any (fun th => th.prog.finished),
        P.log.all fun x => x.2.act.tag ≠ .fault)) =
      some (([⟨7, "u", "t", ["t'"]⟩], true), true, true) := by
    decide +kernel
  obtain ⟨P, hP, h⟩ := Option.map_eq_some_iff.1 hplay
  obtain ⟨hlist, h⟩ := Prod.mk.inj h
  obtain ⟨hlist, hsome⟩ := Prod.mk.inj hlist
  obtain ⟨hfin, hfault⟩ := Prod.mk.inj h
  obtain ⟨r, hr⟩ := Option.isSome_iff_exists.1 hsome
  obtain ⟨th, hth, hdone⟩ := (Option.any_eq_true _ _).1 hfin
  obtain ⟨l, l', hlog⟩ := List.append_of_mem (mem_listings.1
    (show ⟨7, "u", "t", ["t'"]⟩ ∈ listings P.log by rw [hlist]; simp))
  obtain ⟨hdepth, hreach⟩ := cascade_reaches (Sample.free_of_play hP)
  refine ⟨P, hP, hdepth "t'" r hr, ?_⟩
  refine (hreach l 7 "u" "t" ["t'"] l' hlog).2 th hth (Prog.finished_iff.1 hdone) (fun hf => ?_)
    "t'" (by simp)
  exact absurd (List.all_eq_true.1 hfault _ hf) (by simp [Act.tag])

/-! ### What lies below a task -/

/-- Every descendant of the task has ended. -/
def Db.NoneOpenBelow (db : Db) (t : TaskId) : Prop :=
  ∀ y, Forest.Below db.tasks.parent t y → db.Ended y

/-- The task is in a state in which it takes its descendants down. -/
def Db.Fallen (db : Db) (t : TaskId) : Prop :=
  ∃ r, db.tasks.lookup t = some r ∧ r.state.takesDown = true

/-- The task has fallen, and nothing below it is open. -/
def Db.Sealed (db : Db) (t : TaskId) : Prop := db.Fallen t ∧ db.NoneOpenBelow t

variable {named : List TaskId} {db db' : Db} {x : Event Act} {z : TaskId}

theorem Effect.fallen (h : Effect named db x db') (ht : db.Fallen t) : db'.Fallen t := by
  obtain ⟨r, hr, hd⟩ := ht
  obtain ⟨r', hr', hl⟩ := h.later hr
  exact ⟨r', hr', by rw [hl.ended (TaskState.isTerminal_of_takesDown hd), hd]⟩

/-- Nothing changes above a task that exists. -/
theorem Effect.below_iff (h : Effect named db x db') (hw : Wf cfg db)
    (hz : (db.tasks.lookup z).isSome) :
    Forest.Below db'.tasks.parent y z ↔ Forest.Below db.tasks.parent y z := by
  have hpar : ∀ z, (db.tasks.lookup z).isSome → db'.tasks.parent z = db.tasks.parent z ∧
      ∀ p, db.tasks.parent z = some p → (db.tasks.lookup p).isSome := by
    intro z hz
    obtain ⟨r, hr⟩ := Option.isSome_iff_exists.1 hz
    refine ⟨h.parent_eq hr, fun p hp => ?_⟩
    obtain ⟨r', hr', -⟩ := hw.parent hr ((Tasks.parent_eq hr).symm.trans hp)
    exact Option.isSome_iff_exists.2 ⟨r', hr'⟩
  constructor <;> intro hb
  · induction hb with
    | single hstep => exact .single ((hpar _ hz).1 ▸ hstep)
    | @tail p z _ hstep ih =>
      have hold : db.tasks.parent z = some p := (hpar z hz).1 ▸ hstep
      exact (ih ((hpar z hz).2 p hold)).trans (.single hold)
  · induction hb with
    | single hstep => exact .single ((hpar _ hz).1.symm ▸ hstep)
    | @tail p z _ hstep ih =>
      exact (ih ((hpar z hz).2 p hstep)).trans (.single ((hpar z hz).1.symm ▸ hstep))

/-- What is new below a task was admitted below it. -/
theorem Effect.below_new (h : Effect named db x db') (hw : Wf cfg db)
    (hz : db.tasks.lookup z = none) (hb : Forest.Below db'.tasks.parent y z) :
    ∃ f caller deadline r p, x = ⟨.createTask f caller deadline, .created r⟩ ∧
      f.parentTaskId = some p ∧ (y = p ∨ Forest.Below db.tasks.parent y p) := by
  obtain ⟨p, hp, hyp⟩ := hb.cases_tail
  obtain ⟨r, hr, hrp⟩ := Option.bind_eq_some_iff.1 hp
  obtain ⟨f, caller, dl, now, root, hx, rfl, -, -, hpar⟩ := h.created hz hr
  obtain ⟨rp, hlp, -⟩ := hpar p hrp
  refine ⟨f, caller, dl, _, p, hx, hrp, hyp.imp_right fun hb => ?_⟩
  exact (h.below_iff hw (Option.isSome_iff_exists.2 ⟨rp, hlp⟩)).1 hb

/-- As long as nothing is admitted below the task, nothing below it opens. -/
theorem Effect.noneOpenBelow (h : Effect named db x db') (hw : Wf cfg db)
    (ht : db.NoneOpenBelow t)
    (hnew : ∀ y, db.tasks.lookup y = none → ¬ Forest.Below db'.tasks.parent t y) :
    db'.NoneOpenBelow t := by
  intro y hy
  cases hl : db.tasks.lookup y with
  | none => exact absurd hy (hnew y hl)
  | some r =>
    have hsome : (db.tasks.lookup y).isSome := by rw [hl]; rfl
    exact h.ended (ht y ((h.below_iff hw hsome).1 hy))

/-! ### Clean cascades -/

/-- The task is the root of a listing, or was found by one. -/
def Listed (log : Log Act) (t : TaskId) : Prop :=
  ∃ i u r ds, (i, ⟨.listDescendants u r, ds⟩) ∈ log ∧ (t = r ∨ t ∈ ds)

/-- The action leaves no open task below one that falls: a task is admitted only below tasks that
have succeeded or are open and in no listing; a Result and a forced failure bring down only a task
without open descendants; and the database fails in a compensation only when nothing is open below
what it has brought down. -/
def CleanAct (P : Pool Act Router Call Ret) (i : ℕ) : {β : Type} → Act β → Env → Prop
  | _, .createTask f _ _, _ => ∀ p y r, f.parentTaskId = some p →
      (y = p ∨ Forest.Below P.shared.db.tasks.parent y p) →
      P.shared.db.tasks.lookup y = some r →
      r.state = .succeeded ∨ (r.state.isTerminal = false ∧ ¬ Listed P.log y)
  | _, .complete f a, _ => ∀ r, P.shared.db.tasks.lookup f.taskId = some r →
      r.state.isTerminal = false → r.activeAgentId = a → (stateFromStatus f.status).takesDown →
      P.shared.db.NoneOpenBelow f.taskId
  | _, .forceFailTask _ t _ _, _ => ∀ r, P.shared.db.tasks.lookup t = some r →
      r.state.isTerminal = false → P.shared.db.NoneOpenBelow t
  | _, .fault, e => e.fault = true → ∀ x t new, (i, x) ∈ P.log → movesTo t x = some new →
      new.takesDown = true → P.shared.db.NoneOpenBelow t
  | _, _, _ => True

/-- Every cascade is clean. -/
def cleanCascade : Guard Act Env Router Call Ret :=
  ⟨fun _ _ => True, fun P i _ a e => CleanAct P i a e⟩

/-- What is sealed stays sealed. -/
theorem sealed_exec {j : ℕ} (hw : Wf cfg P.shared.db) (hg : CleanAct P j a e)
    (he : Act.exec cfg a e P.shared = some (s', b)) (ht : P.shared.db.Sealed t) :
    s'.db.Sealed t := by
  obtain ⟨heff, -⟩ := Act.exec_effect he
  obtain ⟨hfall, hnone⟩ := ht
  refine ⟨heff.fallen hfall, heff.noneOpenBelow hw hnone fun y hy hb => ?_⟩
  obtain ⟨f, caller, dl, r, p, hx, hp, hor⟩ := heff.below_new hw hy hb
  cases hx
  obtain ⟨rt, hrt, hd⟩ := hfall
  rcases hg p t rt hp hor hrt with hs | ⟨ho, -⟩
  · rw [hs] at hd
    exact absurd hd (by simp [TaskState.takesDown])
  · rw [TaskState.isTerminal_of_takesDown hd] at ho
    exact absurd ho (by simp)

/-- Every listing still has everything that is below the tasks it found, but for those that
succeeded. -/
def ListingsComplete (s : Router) (log : Log Act) : Prop :=
  ∀ i u r ds, (i, ⟨.listDescendants u r, ds⟩) ∈ log → ∀ t, t = r ∨ t ∈ ds →
    ∃ row, s.db.tasks.lookup t = some row ∧ (row.state ≠ .succeeded →
      ∀ y, Forest.Below s.db.tasks.parent t y → y ∈ ds)

theorem ListingsComplete.step {j : ℕ} {c : Call} {k : β → Coroutine Ret}
    (hrun : Run (router cfg) cleanCascade (.init d.boot) P)
    (ht : P.threads[j]? = some ⟨c, .act a k⟩) (hg : CleanAct P j a e)
    (he : Act.exec cfg a e P.shared = some (s', b)) (hI : ListingsComplete P.shared P.log) :
    ListingsComplete s' (P.log ++ [(j, ⟨a, b⟩)]) := by
  obtain ⟨heff, -⟩ := Act.exec_effect he
  have hw := wf_of_run hrun
  intro i u r ds hm t htr
  rcases List.mem_append.1 hm with hold | hm
  · obtain ⟨row, hrow, hall⟩ := hI i u r ds hold t htr
    obtain ⟨row', hrow', hl⟩ := heff.later hrow
    refine ⟨row', hrow', fun hs y hy => ?_⟩
    have hs₀ : row.state ≠ .succeeded := by
      intro h₀
      rw [hl.ended (by rw [h₀]; rfl)] at hs
      exact hs h₀
    cases hly : P.shared.db.tasks.lookup y with
    | some ry => exact hall hs₀ y ((heff.below_iff hw (by rw [hly]; rfl)).1 hy)
    | none =>
      obtain ⟨f, caller, dl, rnew, p, hx, hp, hor⟩ := heff.below_new hw hly hy
      cases hx
      rcases hg p t row hp hor hrow with h₀ | ⟨-, hn⟩
      · exact absurd h₀ hs₀
      · exact absurd ⟨i, u, r, ds, hold, htr⟩ hn
  · obtain ⟨rfl, hx⟩ := Prod.mk.inj (List.mem_singleton.1 hm)
    cases hx
    obtain ⟨rfl, rfl⟩ := Prod.mk.inj (Option.some.inj he)
    obtain ⟨row, hrow, hu⟩ := owner_of_run hrun ht
    rcases htr with rfl | htr
    · exact ⟨row, hrow, fun _ y hy => (mem_listing hrun ht).2 hy⟩
    · have hbt := (mem_listing hrun ht).1 htr
      obtain ⟨rt, hrt⟩ := Option.isSome_iff_exists.1 (Wf.isSome_of_below hbt)
      exact ⟨rt, hrt, fun _ y hy => (mem_listing hrun ht).2 (hbt.trans hy)⟩

/-- A listing of coroutine `i` has found the task, and what it found has ended or is still to be
done. -/
def Rounds.Covers (q : Rounds) (i : ℕ) (s : Router) (log : Log Act) (t : TaskId) : Prop :=
  ∃ u r ds, (i, ⟨.listDescendants u r, ds⟩) ∈ log ∧ (t = r ∨ t ∈ ds) ∧
    ∀ y ∈ ds, (s.db.tasks.lookup y).isSome ∧ (q.todo y ∨ s.db.Ended y)

/-- What coroutine `i` knows: a task it has brought down is owed, or covered by a listing, or
nothing is open below it. -/
structure Rounds.Holds (q : Rounds) (i : ℕ) (s : Router) (log : Log Act) : Prop where
  seen : ∀ t, q.seen t → q.Covers i s log t
  down : ∀ x t new, (i, x) ∈ log → movesTo t x = some new → new.takesDown = true →
    s.db.Fallen t ∧ (q.owed t ∨ q.Covers i s log t ∨ s.db.Sealed t)

theorem Rounds.Covers.exec {log : Log Act} {q' : Rounds} {j : ℕ} (h : q.Covers i s log t)
    (he : Act.exec cfg a e s = some (s', b)) (htodo : ∀ y, q.todo y → (s.db.tasks.lookup y).isSome →
      q'.todo y ∨ s'.db.Ended y) : q'.Covers i s' (log ++ [(j, ⟨a, b⟩)]) t := by
  obtain ⟨u, r, ds, hm, ht, hall⟩ := h
  refine ⟨u, r, ds, List.mem_append_left _ hm, ht, fun y hy => ?_⟩
  obtain ⟨hsome, hor⟩ := hall y hy
  refine ⟨isSome_exec he hsome, hor.elim (fun h => htodo y h hsome) fun h => .inr ?_⟩
  exact (Act.exec_effect he).1.ended h

/-- What is owed stays owed until it is listed, but for a database failure. -/
theorem Rounds.owed_next (h : q.owed t) : (q.next a b).owed t ∨
    (⟨a, b⟩ : Event Act) = ⟨.fault, true⟩ ∨
      ∃ u r ds, (⟨a, b⟩ : Event Act) = ⟨.listDescendants u r, ds⟩ ∧ (t = r ∨ t ∈ ds) := by
  cases a with
  | fault => cases b with
    | true => exact .inr (.inl rfl)
    | false => exact .inl h
  | listDescendants u r =>
    by_cases ht : t = r ∨ t ∈ b
    · exact .inr (.inr ⟨u, r, b, rfl, ht⟩)
    · exact .inl ⟨h, not_or.1 ht⟩
  | transition t new c =>
    refine .inl ?_
    cases new <;> cases b <;> first | exact h | exact Or.inl h
  | _ => exact .inl h

/-- A listing goes on covering what it covered, but for a database failure. -/
theorem Rounds.Covers.next {log : Log Act} {j : ℕ} (h : q.Covers i s log t)
    (he : Act.exec cfg a e s = some (s', b)) (hf : (⟨a, b⟩ : Event Act) ≠ ⟨.fault, true⟩) :
    (q.next a b).Covers i s' (log ++ [(j, ⟨a, b⟩)]) t := by
  refine h.exec he fun y hy hsome => ?_
  rcases q.todo_next hy with hy | hx | ⟨c, out, hx⟩
  · exact .inl hy
  · exact absurd hx hf
  · cases hx
    have hexec : Act.exec cfg (.transition y .cancelled c) e s = some (s', out) := he
    exact .inr (ended_of_cancel hexec hsome)

/-- A listing covers what it has found. -/
theorem Rounds.covers_listing {c : Call} {u : UserId} {r : TaskId} {ds : List TaskId}
    {k : List TaskId → Coroutine Ret} (hrun : Run (router cfg) g (.init d.boot) P)
    (hth : P.threads[i]? = some ⟨c, .act (.listDescendants u r) k⟩)
    (he : Act.exec cfg (.listDescendants u r) e P.shared = some (s', ds)) (ht : t = r ∨ t ∈ ds) :
    (q.list r ds).Covers i s' (P.log ++ [(i, ⟨.listDescendants u r, ds⟩)]) t := by
  obtain ⟨rfl, rfl⟩ := Prod.mk.inj (Option.some.inj he)
  exact ⟨u, r, _, by simp, ht, fun y hy =>
    ⟨Wf.isSome_of_below ((mem_listing hrun hth).1 hy), .inl (.inr hy)⟩⟩

/-- What the coroutine that moves has brought down by moving. -/
theorem Rounds.down_next {new : TaskState} (hq : ∀ t, q.seen t → q.Covers i P.shared P.log t)
    (hw : Wf cfg P.shared.db) (hg : CleanAct P i a e)
    (he : Act.exec cfg a e P.shared = some (s', b)) (hm : movesTo t ⟨a, b⟩ = some new)
    (hd : new.takesDown = true) :
    s'.db.Fallen t ∧ ((q.next a b).owed t ∨
      (q.next a b).Covers i s' (P.log ++ [(i, ⟨a, b⟩)]) t ∨ s'.db.Sealed t) := by
  obtain ⟨heff, -⟩ := Act.exec_effect he
  obtain ⟨hst, -⟩ := (heff.moves t).2 new hm
  obtain ⟨r', hr', hs'⟩ := Option.map_eq_some_iff.1 hst
  have hfall : s'.db.Fallen t := ⟨r', hr', by rw [hs', hd]⟩
  have hkeep : P.shared.db.NoneOpenBelow t →
      (∀ f caller dl r, (⟨a, b⟩ : Event Act) ≠ ⟨.createTask f caller dl, .created r⟩) →
      s'.db.Sealed t := fun hn hc => ⟨hfall, heff.noneOpenBelow hw hn fun y hy hb => by
    obtain ⟨f, caller, dl, r, -, hx, -⟩ := heff.below_new hw hy hb
    exact hc f caller dl r hx⟩
  refine ⟨hfall, ?_⟩
  cases a with
  | transition t' new' c =>
    cases b with
    | done prev row =>
      simp only [movesTo, Option.ite_none_right_eq_some, Option.some.injEq] at hm
      obtain ⟨⟨rfl, -⟩, rfl⟩ := hm
      by_cases hseen : q.seen t'
      · exact .inr (.inl ((hq t' hseen).next he (ne_of_tag Tag.noConfusion)))
      · refine .inl ?_
        -- a fall that no listing has found is owed
        cases new' <;> first
          | exact Or.inr ⟨rfl, hseen⟩
          | exact absurd hd (by simp [TaskState.takesDown])
    | _ => exact absurd hm (by simp [movesTo])
  | createTask f caller dl =>
    cases b with
    | created r =>
      obtain ⟨-, -, now, root, newId, rfl⟩ := Act.exec_created he
      simp only [movesTo, Option.ite_none_right_eq_some, Option.some.injEq] at hm
      exact absurd (hm.2 ▸ hd) (by simp [NewTaskFrame.row, TaskState.takesDown])
    | _ => exact absurd hm (by simp [movesTo])
  | complete f reporter =>
    cases b with
    | done prev row =>
      simp only [movesTo, Option.ite_none_right_eq_some, Option.some.injEq] at hm
      obtain ⟨⟨rfl, hne⟩, rfl⟩ := hm
      obtain ⟨-, r₀, hr₀, -, hact, rfl, hmove, -⟩ := Act.exec_complete_done he
      have ho := allowed_not_isTerminal (hmove.resolve_left hne)
      exact .inr (.inr (hkeep (hg r₀ hr₀ ho hact hd)
        fun _ _ _ _ => ne_of_tag Tag.noConfusion))
    | _ => exact absurd hm (by simp [movesTo])
  | forceFailTask u t' code err =>
    cases b with
    | true =>
      simp only [movesTo, Option.ite_none_right_eq_some, Option.some.injEq] at hm
      obtain ⟨rfl, -⟩ := hm
      simp only [Act.exec] at he
      rcases P.shared.db.forceFail_cases u t' code err with htx | ⟨r, hr, -, ho, -⟩
      · rw [htx] at he
        exact absurd (congrArg Prod.snd (Option.some.inj he)) (by simp [Router.commit])
      · exact .inr (.inr (hkeep (hg r hr ho) fun _ _ _ _ => ne_of_tag Tag.noConfusion))
    | false => exact absurd hm (by simp [movesTo])
  | _ => exact absurd hm (by simp [movesTo])

/-- A move leaves what the coroutine that makes it knows true. -/
theorem Rounds.Holds.step {c : Call} {k : β → Coroutine Ret}
    (hrun : Run (router cfg) cleanCascade (.init d.boot) P)
    (hth : P.threads[i]? = some ⟨c, .act a k⟩) (hg : CleanAct P i a e)
    (he : Act.exec cfg a e P.shared = some (s', b)) (hq : q.Holds i P.shared P.log) :
    (q.next a b).Holds i s' (P.log ++ [(i, ⟨a, b⟩)]) := by
  have hw := wf_of_run hrun
  have heff := (Act.exec_effect he).1
  by_cases hf : (⟨a, b⟩ : Event Act) = ⟨.fault, true⟩
  · -- the failure strikes where nothing is open below what was brought down
    cases hf
    obtain ⟨rfl, htrue⟩ := Prod.mk.inj (Option.some.inj he)
    refine ⟨fun t ht => ht.elim, fun x t new hm hmove hd => ?_⟩
    rcases List.mem_append.1 hm with hm | hm
    · have hfall := (hq.down x t new hm hmove hd).1
      exact ⟨hfall, .inr (.inr ⟨hfall, hg htrue x t new hm hmove hd⟩)⟩
    · obtain ⟨-, rfl⟩ := Prod.mk.inj (List.mem_singleton.1 hm)
      cases hmove
  · constructor
    · intro t ht
      have hor : q.seen t ∨ ∃ u r ds, (⟨a, b⟩ : Event Act) = ⟨.listDescendants u r, ds⟩ ∧
          (t = r ∨ t ∈ ds) := by
        cases a with
        | listDescendants u r => exact ht.imp_right fun h => ⟨u, r, b, rfl, h⟩
        | transition t' new c =>
          refine .inl ?_
          revert ht
          cases new <;> cases b <;> exact id
        | fault => cases b with
          | true => exact absurd rfl hf
          | false => exact .inl ht
        | _ => exact .inl ht
      rcases hor with h | ⟨u, r, ds, hx, h⟩
      · exact (hq.seen t h).next he hf
      · cases hx
        exact Rounds.covers_listing hrun hth he h
    · intro x t new hm hmove hd
      rcases List.mem_append.1 hm with hm | hm
      · obtain ⟨hfall, hor⟩ := hq.down x t new hm hmove hd
        refine ⟨heff.fallen hfall, ?_⟩
        rcases hor with ho | hc | hs
        · rcases q.owed_next ho with ho | hx | ⟨u, r, ds, hx, h⟩
          · exact .inl ho
          · exact absurd hx hf
          · cases hx
            exact .inr (.inl (Rounds.covers_listing hrun hth he h))
        · exact .inr (.inl (hc.next he hf))
        · exact .inr (.inr (sealed_exec hw hg he hs))
      · obtain ⟨-, rfl⟩ := Prod.mk.inj (List.mem_singleton.1 hm)
        exact Rounds.down_next hq.seen hw hg he hmove hd

theorem Rounds.Holds.frame {j : ℕ} (hrun : Run (router cfg) cleanCascade (.init d.boot) P)
    (hg : CleanAct P j a e) (he : Act.exec cfg a e P.shared = some (s', b)) (hj : i ≠ j)
    (hq : q.Holds i P.shared P.log) : q.Holds i s' (P.log ++ [(j, ⟨a, b⟩)]) where
  seen t ht := (hq.seen t ht).exec he fun _ hy _ => .inl hy
  down x t new hm hmove hd := by
    have hold : (i, x) ∈ P.log := by
      refine (List.mem_append.1 hm).resolve_right fun hm => hj ?_
      exact (Prod.mk.inj (List.mem_singleton.1 hm)).1
    obtain ⟨hfall, hor⟩ := hq.down x t new hold hmove hd
    refine ⟨(Act.exec_effect he).1.fallen hfall, hor.imp_right (Or.imp ?_ ?_)⟩
    · exact fun hc => hc.exec he fun _ hy _ => .inl hy
    · exact sealed_exec (wf_of_run hrun) hg he

theorem sound_cascade (cfg : Config) (d : Deployment) :
    Sound (router cfg) cleanCascade cascade (fun _ => Rounds.none) d.boot ListingsComplete
      (fun i _ q s log => q.Holds i s log) where
  init := fun _ _ _ _ hm => absurd hm (by simp)
  start hrun _ _ := ⟨fun _ h => h.elim, fun _ _ _ hm => absurd (hrun.log_lt _ hm) (by simp)⟩
  step hrun ht hg he hI hq _ := ⟨trivial, hI.step hrun ht hg he, hq.step hrun ht hg he⟩
  frame hrun _ hg he _ _ _ _ _ _ hj hq' := hq'.frame hrun hg he hj

/-- **A task that a coroutine has brought down leaves no open descendant behind once the coroutine
has returned, then and ever after**, in every run whose cascades are clean. -/
theorem cascade_complete {x : Event Act} {new : TaskState} {th : Thread Act Call Ret}
    (h : Run (router cfg) cleanCascade (.init d.boot) P)
    (h' : Run (router cfg) cleanCascade P Q) (hx : (i, x) ∈ P.log)
    (hmove : movesTo t x = some new) (hdown : new.takesDown = true)
    (hth : P.threads[i]? = some th) (hfin : th.prog.Finished) :
    Q.shared.db.NoneOpenBelow t := by
  have hsealed : P.shared.db.Sealed t := by
    obtain ⟨hI, hknow⟩ := (sound_cascade cfg d).of_run (cascade_body cfg) h
    obtain ⟨q, hq, hob⟩ := hknow i th hth
    obtain ⟨c, p⟩ := th
    cases p with
    | act a k => exact hfin.elim
    | ret out =>
      have hclear : q.Clear := hob
      obtain ⟨hfall, ho | ⟨u, r, ds, hm, ht, hall⟩ | hs⟩ := hq.down x t new hx hmove hdown
      · exact absurd ho (hclear.1 t)
      · refine ⟨hfall, fun y hy => ?_⟩
        obtain ⟨row, hrow, hlist⟩ := hI i u r ds hm t ht
        have hns : row.state ≠ .succeeded := by
          obtain ⟨row', hrow', hd⟩ := hfall
          obtain rfl := Option.some.inj (hrow.symm.trans hrow')
          intro he
          rw [he] at hd
          exact absurd hd (by simp [TaskState.takesDown])
        exact ((hall y (hlist hns y hy)).2).resolve_left (hclear.2 y)
      · exact hs
  have hrun : ∀ Q, Run (router cfg) cleanCascade P Q → Q.shared.db.Sealed t := by
    intro Q h'
    induction h' with
    | refl => exact hsealed
    | start _ _ _ ih => exact ih
    | step hrun _ hg he ih => exact sealed_exec (wf_of_run (h.trans hrun)) hg he ih
  exact (hrun Q h').2

end

/-- Decides that an action is clean: a child is admitted below an open root before anything was
listed, a Result reports success, and the database works. -/
def Sample.clean {β : Type} (P : Pool Act Router Call Ret) (_ : ℕ) (_ : Call) (a : Act β)
    (e : Env) : Bool :=
  match a with
  | .createTask f _ _ => f.parentTaskId.all fun p =>
      ((P.shared.db.tasks.lookup p).all fun r => r.parentTaskId.isNone && !r.state.isTerminal) &&
        (listings P.log).isEmpty
  | .complete f _ => !(stateFromStatus f.status).takesDown
  | .forceFailTask _ _ _ _ => false
  | .fault => !e.fault
  | _ => true

theorem Sample.cleanAct_of_clean {β : Type} (P : Pool Act Router Call Ret) (i : ℕ) (c : Call)
    (a : Act β) (e : Env) (h : Sample.clean P i c a e = true) : CleanAct P i a e := by
  cases a with
  | createTask f caller dl =>
    intro p y r hp hor hr
    simp only [Sample.clean, hp, Option.all_some, Bool.and_eq_true, List.isEmpty_iff] at h
    obtain ⟨hroot, hnone⟩ := h
    have hyp : y = p := by
      refine hor.resolve_right fun hb => ?_
      obtain ⟨q, hq, -⟩ := hb.cases_tail
      obtain ⟨rp, hrp, hpar⟩ := Option.bind_eq_some_iff.1 hq
      simp [hrp, hpar] at hroot
    subst hyp
    rw [hr, Option.all_some, Bool.and_eq_true, Bool.not_eq_true'] at hroot
    refine .inr ⟨hroot.2, ?_⟩
    rintro ⟨i, u, t, ds, hm, -⟩
    have hm' := mem_listings.2 hm
    rw [hnone] at hm'
    exact absurd hm' (by simp)
  | complete f reporter =>
    intro r _ _ _ hd
    simp [Sample.clean, hd] at h
  | forceFailTask => exact absurd h (by simp [Sample.clean])
  | fault =>
    intro hf
    simp [Sample.clean, hf] at h
  | _ => trivial

/-- When the user cancels `t`, nothing below it stays open. -/
theorem cascade_complete_cancelled : ∃ P, Sample.play Sample.clean Sample.cancelledTree = some P ∧
    Forest.Below P.shared.db.tasks.parent "t" "t'" ∧ P.shared.db.NoneOpenBelow "t" := by
  have hplay : ((Sample.play Sample.clean Sample.cancelledTree).map fun P =>
      (P.shared.db.tasks.parent "t'", (P.past 7).any (fun x => movesTo "t" x == some .cancelled),
        P.threads[7]?.any fun th => th.prog.finished)) = some (some "t", true, true) := by
    decide +kernel
  obtain ⟨P, hP, h⟩ := Option.map_eq_some_iff.1 hplay
  obtain ⟨hpar, h⟩ := Prod.mk.inj h
  obtain ⟨hmove, hfin⟩ := Prod.mk.inj h
  obtain ⟨th, hth, hdone⟩ := (Option.any_eq_true _ _).1 hfin
  obtain ⟨x, hx, hmove⟩ := List.any_eq_true.1 hmove
  have hrun : Run (router {}) cleanCascade (.init Sample.deployment.boot) P :=
    Sample.run_of_play (fun _ _ => trivial) Sample.cleanAct_of_clean hP
  exact ⟨P, hP, .single hpar, cascade_complete hrun (.refl P) (Log.mem_past.1 hx)
    (beq_iff_eq.1 hmove) rfl hth (Prog.finished_iff.1 hdone)⟩

/-- When `b` reports that `t` has failed, its child stays open. -/
theorem failed_leaves_child : ¬ ∀ (cfg : Config) (d : Deployment) (P Q : Pool Act Router Call Ret)
    (i : ℕ) (x : Event Act) (t : TaskId) (new : TaskState) (th : Thread Act Call Ret),
    Run (router cfg) .free (.init d.boot) P → Run (router cfg) .free P Q → (i, x) ∈ P.log →
    movesTo t x = some new → new.takesDown = true → P.threads[i]? = some th → th.prog.Finished →
    Q.shared.db.NoneOpenBelow t := by
  intro hall
  have hplay : ((Sample.play Sample.anything (Sample.withChild ++
      [Sample.receive 1 "b" (.result (Sample.result "b" "t" .failed))] ++ Sample.steps 7 4)).map
        fun P => ((P.shared.db.tasks.parent "t'",
          (P.shared.db.tasks.lookup "t'").any fun r => !r.state.isTerminal),
          (P.past 7).any (fun x => movesTo "t" x == some .failed),
          P.threads[7]?.any fun th => th.prog.finished)) =
      some ((some "t", true), true, true) := by
    decide +kernel
  obtain ⟨P, hP, h⟩ := Option.map_eq_some_iff.1 hplay
  obtain ⟨hchild, h⟩ := Prod.mk.inj h
  obtain ⟨hpar, hopen⟩ := Prod.mk.inj hchild
  obtain ⟨hmove, hfin⟩ := Prod.mk.inj h
  obtain ⟨th, hth, hdone⟩ := (Option.any_eq_true _ _).1 hfin
  obtain ⟨x, hx, hmove⟩ := List.any_eq_true.1 hmove
  obtain ⟨r, hr, ho⟩ := (Option.any_eq_true _ _).1 hopen
  have hnone := hall {} Sample.deployment P P 7 x "t" .failed th (Sample.free_of_play hP) (.refl P)
    (Log.mem_past.1 hx) (beq_iff_eq.1 hmove) rfl hth (Prog.finished_iff.1 hdone)
  obtain ⟨r', hr', hend⟩ := hnone "t'" (.single hpar)
  obtain rfl := Option.some.inj (hr.symm.trans hr')
  simp [hend] at ho

end Backplane
