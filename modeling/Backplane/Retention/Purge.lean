import Backplane.Router.Reachable
import Backplane.Retention.Store

/-!
# A purge removes exactly what it should, unless a task hangs below the session

* `Store.Consistent` : what holds of the references in every reachable store (`consistent`).
* `Store.Hangs s y x` : a task of session `y` has its parent in session `x`.
* `Store.Purged`, `Store.Erased` : what a purge of a session and of a user should leave.
* `purgeSession_ok`, `purgeSession_error` : a purge does that, or fails on a task that hangs below.
* `purge_exact` : exactly when the purge of a session, and that of a user, do what they should.
-/

namespace Backplane

open Concur

/-- What a file is tied to. -/
def Attachment.tie (a : Attachment) : UserId × Option SessionId × Option TaskId :=
  (a.userId, a.sessionId, a.taskId)

namespace Store

/-! ### What a purge should do -/

section

variable (s : Store) (u : UserId) (x : SessionId)

/-- Whether the task is one of the session. -/
def inSession (t : TaskId) : Bool :=
  decide ((s.db.tasks.lookup t).map TaskRow.sessionId = some x)

/-- A task of `y` has its parent in `x`. -/
def Hangs (y x : SessionId) : Prop :=
  ∃ t r p r', s.db.tasks.lookup t = some r ∧ r.parentTaskId = some p ∧
    s.db.tasks.lookup p = some r' ∧ r.sessionId = y ∧ r'.sessionId = x

/-- Exactly the session is gone, with its tasks, their events and its names, and the files are
detached from all of these. -/
structure Purged (s' : Store) : Prop where
  /-- The tasks of the session are gone, and no others. -/
  tasks : ∀ t, s'.db.tasks.lookup t = (s.db.tasks.lookup t).filter fun r => r.sessionId ≠ x
  /-- Their events are gone, and no others. -/
  events : s'.db.events = s.db.events.filter fun e => !s.inSession x e.taskId
  /-- The names in the scope of the session are gone, and no others. -/
  names : ∀ k, s'.db.fileNames.lookup k =
    (s.db.fileNames.lookup k).filter fun _ => !decide (k.1 = u ∧ k.2.1 = scopeFor false x)
  /-- Every file stays, and only forgets the session and its tasks. -/
  files : ∀ f, s'.attachments.lookup f = (s.attachments.lookup f).map fun a =>
    { a with
      sessionId := a.sessionId.filter (· ≠ x)
      taskId := a.taskId.filter fun t => !s.inSession x t }
  /-- The row of the session is gone, and no other. -/
  sessions : ∀ z, s'.db.sessions.lookup z = if z = x then none else s.db.sessions.lookup z
  /-- Nothing else has changed. -/
  rest : s' = { s.withDb { s.db with
    tasks := s'.db.tasks
    events := s'.db.events
    fileNames := s'.db.fileNames
    sessions := s'.db.sessions } with attachments := s'.attachments }

/-- The user has no refresh token and no password-reset token. -/
structure Tokenless : Prop where
  refreshTokens : ∀ h, s.refreshTokens.lookup h ≠ some u
  /-- No password-reset token. -/
  resetTokens : ∀ h, s.resetTokens.lookup h ≠ some u

/-- No session, task, name, token or identity of the user is left. -/
structure Erased : Prop where
  sessions : ∀ z row, s.db.sessions.lookup z = some row → row.userId ≠ u
  tasks : ∀ t r, s.db.tasks.lookup t = some r → r.userId ≠ u
  /-- No name. -/
  names : ∀ k row, s.db.fileNames.lookup k = some row → k.1 ≠ u
  tokens : s.Tokenless u
  /-- No identity. -/
  identities : ∀ i, s.identities.lookup i ≠ some u

end

/-! ### Consistent references -/

/-- Whatever a row refers to exists and belongs to the same user. -/
structure Consistent (s : Store) : Prop where
  parent : ∀ {t r p}, s.db.tasks.lookup t = some r → r.parentTaskId = some p →
    ∃ r', s.db.tasks.lookup p = some r' ∧ r'.userId = r.userId
  session : ∀ {t r}, s.db.tasks.lookup t = some r →
    ∃ row, s.db.sessions.lookup r.sessionId = some row ∧ row.userId = r.userId
  fileSession : ∀ {f a z}, s.attachments.lookup f = some a → a.sessionId = some z →
    ∃ row, s.db.sessions.lookup z = some row ∧ row.userId = a.userId
  fileTask : ∀ {f a t}, s.attachments.lookup f = some a → a.taskId = some t →
    ∃ r, s.db.tasks.lookup t = some r ∧ r.userId = a.userId

section

variable {s s' : Store} {u : UserId} {x y : SessionId} {t : TaskId} {row : SessionRow}

theorem inSession_iff :
    s.inSession x t = true ↔ ∃ r, s.db.tasks.lookup t = some r ∧ r.sessionId = x := by
  simp [inSession, Option.map_eq_some_iff]

theorem mem_sessionTasks : t ∈ s.sessionTasks u x ↔
    ∃ r, s.db.tasks.lookup t = some r ∧ r.sessionId = x ∧ r.userId = u := by
  simp only [sessionTasks, List.mem_map, Prod.exists, exists_and_right, exists_eq_right,
    Table.mem_select, Bool.and_eq_true, decide_eq_true_eq]

/-- A session's tasks belong to its owner. -/
theorem Consistent.owner (hc : s.Consistent) (hx : s.db.getSession u x = some row) {r : TaskRow}
    (hr : s.db.tasks.lookup t = some r) (hrx : r.sessionId = x) : r.userId = u := by
  obtain ⟨row', hrow', hu⟩ := hc.session hr
  obtain ⟨hrow, rfl⟩ := Db.getSession_eq_some.1 hx
  rw [hrx, hrow, Option.some.injEq] at hrow'
  rw [← hu, hrow']

theorem Consistent.mem_sessionTasks (hc : s.Consistent) (hx : s.db.getSession u x = some row) :
    t ∈ s.sessionTasks u x ↔ s.inSession x t = true := by
  rw [Store.mem_sessionTasks, inSession_iff]
  exact ⟨fun ⟨r, hr, hrx, _⟩ => ⟨r, hr, hrx⟩, fun ⟨r, hr, hrx⟩ => ⟨r, hr, hrx, hc.owner hx hr hrx⟩⟩

/-! ### The purge of one session -/

/-- What becomes of a file of the user: it is detached from the session and its tasks. -/
theorem lookup_detached (f : String) : (s.detached u x).attachments.lookup f =
    (s.attachments.lookup f).map fun a =>
      if a.userId = u then
        { a with
          sessionId := a.sessionId.filter (· ≠ x)
          taskId := a.taskId.filter fun t => decide (t ∉ s.sessionTasks u x) }
      else a := by
  simp only [detached, detachTasks, detachSession, deleteFileNamesForScope, deleteEvents, withDb,
    Table.lookup_mapRows, Option.map_map]
  congr 1
  funext a
  by_cases hu : a.userId = u
  · rcases a with ⟨au, ax, at', ae⟩
    cases ax <;> cases at' <;> simp_all [Option.filter]
    all_goals split_ifs <;> simp_all
  · simp [hu]

theorem lookup_dropTasks : (s.dropTasks u x).db.tasks.lookup t =
    (s.db.tasks.lookup t).filter fun r => !(decide (r.sessionId = x) && decide (r.userId = u)) :=
  Table.lookup_deleteWhere_eq _ _ _

theorem refersToTask_iff : s.refersToTask t = true ↔
    (∃ t' r, s.db.tasks.lookup t' = some r ∧ r.parentTaskId = some t) ∨
      (∃ e ∈ s.db.events, e.taskId = t) ∨
      ∃ f a, s.attachments.lookup f = some a ∧ a.taskId = some t := by
  simp [refersToTask, List.eq_nil_iff_forall_not_mem, Table.mem_select, or_assoc]

theorem refersToSession_iff : s.refersToSession x = true ↔
    (∃ t r, s.db.tasks.lookup t = some r ∧ r.sessionId = x) ∨
      ∃ f a, s.attachments.lookup f = some a ∧ a.sessionId = some x := by
  simp [refersToSession, List.eq_nil_iff_forall_not_mem, Table.mem_select]

/-- Once the events are gone and the files detached, what still refers to the tasks of the session
is a task of another session. -/
theorem Consistent.refers_iff (hc : s.Consistent) (hx : s.db.getSession u x = some row) :
    ((s.detached u x).sessionTasks u x).any ((s.detached u x).dropTasks u x).refersToTask = true ↔
      ∃ y ≠ x, s.Hangs y x := by
  have htasks : ∀ t', ((s.detached u x).dropTasks u x).db.tasks.lookup t' =
      (s.db.tasks.lookup t').filter
        fun r => !(decide (r.sessionId = x) && decide (r.userId = u)) := fun _ => lookup_dropTasks
  rw [show (s.detached u x).sessionTasks u x = s.sessionTasks u x from rfl, List.any_eq_true]
  constructor
  · rintro ⟨p, hp, href⟩
    have hmem := hp
    obtain ⟨r', hr', hrx', hru'⟩ := Store.mem_sessionTasks.1 hp
    rcases refersToTask_iff.1 href with ⟨t, r, hr, hpar⟩ | ⟨e, he, het⟩ | ⟨f, a, ha, hat⟩
    · rw [htasks, Option.filter_eq_some_iff] at hr
      obtain ⟨hr, hkept⟩ := hr
      refine ⟨r.sessionId, fun hrx => ?_, t, r, p, r', hr, hpar, hr', rfl, hrx'⟩
      simp [hrx, hc.owner hx hr hrx] at hkept
    · -- an event of the task would have been deleted
      have hkept := (List.mem_filter.1 (show e ∈ s.db.events.filter _ from he)).2
      exact absurd (het ▸ hmem) (by simpa using hkept)
    · -- a file of the task belongs to the user and would have been detached
      rw [show ((s.detached u x).dropTasks u x).attachments = (s.detached u x).attachments from rfl,
        lookup_detached, Option.map_eq_some_iff] at ha
      obtain ⟨a₀, ha₀, rfl⟩ := ha
      split_ifs at hat with hau
      · rw [Option.filter_eq_some_iff] at hat
        exact absurd hmem (by simpa using hat.2)
      · obtain ⟨r, hr, hru⟩ := hc.fileTask ha₀ hat
        obtain rfl := Option.some.inj (hr.symm.trans hr')
        exact absurd (hru.symm.trans hru') hau
  · rintro ⟨y, hyx, t, r, p, r', hr, hpar, hr', rfl, hrx'⟩
    refine ⟨p, Store.mem_sessionTasks.2 ⟨r', hr', hrx', hc.owner hx hr' hrx'⟩,
      refersToTask_iff.2 (.inl ⟨t, r, ?_, hpar⟩)⟩
    rw [htasks, Option.filter_eq_some_iff]
    exact ⟨hr, by simp [hyx]⟩

/-- Once its tasks are gone too, nothing refers to the session. -/
theorem Consistent.not_refersToSession (hc : s.Consistent) (hx : s.db.getSession u x = some row) :
    (((s.detached u x).dropTasks u x).dropSession x).refersToSession x = false := by
  rw [Bool.eq_false_iff]
  intro href
  rcases refersToSession_iff.1 href with ⟨t, r, hr, hrx⟩ | ⟨f, a, ha, hax⟩
  · replace hr : ((s.detached u x).dropTasks u x).db.tasks.lookup t = some r := hr
    rw [lookup_dropTasks, Option.filter_eq_some_iff] at hr
    obtain ⟨hr, hkept⟩ := hr
    simp [hrx, hc.owner hx hr hrx] at hkept
  · replace ha : (s.detached u x).attachments.lookup f = some a := ha
    rw [lookup_detached, Option.map_eq_some_iff] at ha
    obtain ⟨a₀, ha₀, rfl⟩ := ha
    split_ifs at hax with hau
    · simp [Option.filter_eq_some_iff] at hax
    · obtain ⟨row', hrow', hu⟩ := hc.fileSession ha₀ hax
      obtain ⟨hrow, rfl⟩ := Db.getSession_eq_some.1 hx
      obtain rfl := Option.some.inj (hrow.symm.trans hrow')
      exact hau hu.symm

/-- Another user's file is tied to neither the session nor its tasks. -/
theorem Consistent.foreign (hc : s.Consistent) (hx : s.db.getSession u x = some row) {f : String}
    {a : Attachment} (ha : s.attachments.lookup f = some a) (hu : a.userId ≠ u) :
    { a with
      sessionId := a.sessionId.filter (· ≠ x)
      taskId := a.taskId.filter fun t => !s.inSession x t } = a := by
  have hses : a.sessionId.filter (· ≠ x) = a.sessionId := by
    cases hz : a.sessionId with
    | none => rfl
    | some z =>
      have hzx : z ≠ x := by
        rintro rfl
        obtain ⟨row', hrow', hu'⟩ := hc.fileSession ha hz
        obtain ⟨hrow, rfl⟩ := Db.getSession_eq_some.1 hx
        obtain rfl := Option.some.inj (hrow.symm.trans hrow')
        exact hu hu'.symm
      simp [Option.filter, hzx]
  have htask : (a.taskId.filter fun t => !s.inSession x t) = a.taskId := by
    cases ht : a.taskId with
    | none => rfl
    | some t =>
      have hin : s.inSession x t = false := by
        rw [Bool.eq_false_iff]
        intro hin
        obtain ⟨r, hr, hrx⟩ := inSession_iff.1 hin
        obtain ⟨r', hr', hru⟩ := hc.fileTask ha ht
        obtain rfl := Option.some.inj (hr.symm.trans hr')
        exact hu (hru.symm.trans (hc.owner hx hr hrx))
      simp [Option.filter, hin]
  rw [hses, htask]

/-- **A purge fails when a task of another session has its parent in the session.** -/
theorem Consistent.purgeSession_error (hc : s.Consistent) (hx : s.db.getSession u x = some row)
    (hy : ∃ y ≠ x, s.Hangs y x) : s.purgeSession u x = .error .tasks := by
  rw [purgeSession, deleteTasks, if_pos ((hc.refers_iff hx).2 hy)]
  rfl

/-- **Otherwise it removes exactly the session and what is its own.** -/
theorem Consistent.purgeSession_ok (hc : s.Consistent) (hx : s.db.getSession u x = some row)
    (hy : ∀ y ≠ x, ¬ s.Hangs y x) :
    ∃ s', s.purgeSession u x = .ok (s', true) ∧ s.Purged u x s' := by
  have href : ¬ ((s.detached u x).sessionTasks u x).any
      ((s.detached u x).dropTasks u x).refersToTask = true := by
    rw [hc.refers_iff hx]
    rintro ⟨y, hyx, hang⟩
    exact hy y hyx hang
  refine ⟨((s.detached u x).dropTasks u x).dropSession x, ?_, ?_⟩
  · rw [purgeSession, deleteTasks, if_neg href]
    change ((s.detached u x).dropTasks u x).deleteSession u x = _
    have hsess : ((s.detached u x).dropTasks u x).db.getSession u x = some row := hx
    rw [deleteSession, hsess]
    exact if_neg (by simp [hc.not_refersToSession hx])
  · have hmem : ∀ t, decide (t ∉ s.sessionTasks u x) = !s.inSession x t := by
      intro t
      rw [Bool.eq_iff_iff, decide_eq_true_eq, hc.mem_sessionTasks hx]
      simp
    constructor
    · intro t
      change ((s.detached u x).dropTasks u x).db.tasks.lookup t = _
      rw [lookup_dropTasks]
      change (s.db.tasks.lookup t).filter _ = _
      cases hr : s.db.tasks.lookup t with
      | none => rfl
      | some r =>
        by_cases hrx : r.sessionId = x
        · simp [Option.filter, hrx, hc.owner hx hr hrx]
        · simp [Option.filter, hrx]
    · change s.db.events.filter _ = _
      simp only [hmem]
    · intro k
      change AList.lookup k (s.db.fileNames.deleteWhere _) = _
      rw [Table.lookup_deleteWhere_eq]
      simp
    · intro f
      change (s.detached u x).attachments.lookup f = _
      rw [lookup_detached]
      refine Option.map_congr fun a ha => ?_
      split_ifs with hau
      · simp only [hmem]
      · exact (hc.foreign hx ha hau).symm
    · intro z
      change AList.lookup z (AList.erase x s.db.sessions) = _
      split_ifs with hz
      · rw [hz, AList.lookup_erase]
      · rw [AList.lookup_erase_ne hz]
    · rfl

/-! ### The references stay consistent -/

/-- The tasks and sessions are the same, and every file is tied to the same. -/
structure SameTies (s s' : Store) : Prop where
  tasks : s'.db.tasks = s.db.tasks
  sessions : s'.db.sessions = s.db.sessions
  /-- Same files, tied to the same. -/
  files : ∀ f, (s'.attachments.lookup f).map Attachment.tie = (s.attachments.lookup f).map Attachment.tie

theorem SameTies.file (h : s.SameTies s') {f : String} {a : Attachment}
    (ha : s'.attachments.lookup f = some a) :
    ∃ a₀, s.attachments.lookup f = some a₀ ∧ a₀.tie = a.tie := by
  have hf := h.files f
  rw [ha, Option.map_some, eq_comm, Option.map_eq_some_iff] at hf
  exact hf

theorem SameTies.consistent (h : s.SameTies s') (hc : s.Consistent) : s'.Consistent where
  parent := by rw [h.tasks]; exact hc.parent
  session := by rw [h.tasks, h.sessions]; exact hc.session
  fileSession ha hz := by
    obtain ⟨a₀, ha₀, ht⟩ := h.file ha
    simp only [Attachment.tie, Prod.mk.injEq] at ht
    rw [h.sessions, ← ht.1]
    exact hc.fileSession ha₀ (ht.2.1.trans hz)
  fileTask ha hz := by
    obtain ⟨a₀, ha₀, ht⟩ := h.file ha
    simp only [Attachment.tie, Prod.mk.injEq] at ht
    rw [h.tasks, ← ht.1]
    exact hc.fileTask ha₀ (ht.2.2.trans hz)

theorem SameTies.hangs (h : s.SameTies s') : s'.Hangs y x ↔ s.Hangs y x := by
  simp only [Hangs, h.tasks]

/-- What hangs after a purge hung before. -/
theorem Purged.hangs (hp : s.Purged u x s') {z : SessionId} :
    s'.Hangs y z ↔ s.Hangs y z ∧ y ≠ x ∧ z ≠ x := by
  simp only [Hangs, hp.tasks, Option.filter_eq_some_iff, decide_eq_true_eq]
  constructor
  · rintro ⟨t, r, p, r', ⟨hr, hrx⟩, hpar, ⟨hr', hrx'⟩, rfl, rfl⟩
    exact ⟨⟨t, r, p, r', hr, hpar, hr', rfl, rfl⟩, hrx, hrx'⟩
  · rintro ⟨⟨t, r, p, r', hr, hpar, hr', rfl, rfl⟩, hrx, hrx'⟩
    exact ⟨t, r, p, r', ⟨hr, hrx⟩, hpar, ⟨hr', hrx'⟩, rfl, rfl⟩

theorem Purged.consistent (hp : s.Purged u x s') (hc : s.Consistent)
    (hy : ∀ y ≠ x, ¬ s.Hangs y x) : s'.Consistent where
  parent := by
    intro t r p hr hpar
    rw [hp.tasks, Option.filter_eq_some_iff, decide_eq_true_eq] at hr
    obtain ⟨r', hr', hu⟩ := hc.parent hr.1 hpar
    refine ⟨r', ?_, hu⟩
    rw [hp.tasks, Option.filter_eq_some_iff, decide_eq_true_eq]
    exact ⟨hr', fun hrx => hy _ hr.2 ⟨t, r, p, r', hr.1, hpar, hr', rfl, hrx⟩⟩
  session := by
    intro t r hr
    rw [hp.tasks, Option.filter_eq_some_iff, decide_eq_true_eq] at hr
    rw [hp.sessions, if_neg hr.2]
    exact hc.session hr.1
  fileSession := by
    intro f a z ha hz
    rw [hp.files, Option.map_eq_some_iff] at ha
    obtain ⟨a₀, ha₀, rfl⟩ := ha
    rw [Option.filter_eq_some_iff, decide_eq_true_eq] at hz
    have hown := hc.fileSession ha₀ hz.1
    rw [hp.sessions, if_neg hz.2]
    exact hown
  fileTask := by
    intro f a t ha ht
    rw [hp.files, Option.map_eq_some_iff] at ha
    obtain ⟨a₀, ha₀, rfl⟩ := ha
    rw [Option.filter_eq_some_iff, Bool.not_eq_true'] at ht
    obtain ⟨r, hr, hu⟩ := hc.fileTask ha₀ ht.1
    refine ⟨r, ?_, hu⟩
    rw [hp.tasks, Option.filter_eq_some_iff, decide_eq_true_eq]
    refine ⟨hr, fun hrx => ?_⟩
    rw [inSession_iff.2 ⟨r, hr, hrx⟩] at ht
    exact absurd ht.2 (by simp)

/-- Where the user has no such session, a purge deletes names at most. -/
theorem Consistent.purgeSession_absent (hc : s.Consistent) (hx : s.db.getSession u x = none) :
    ∃ s', s.purgeSession u x = .ok (s', false) ∧ s.SameTies s' := by
  have hno : ∀ z row, s.db.sessions.lookup z = some row → row.userId = u → z ≠ x := by
    rintro z row hrow hu rfl
    exact absurd (Db.getSession_eq_some.2 ⟨hrow, hu⟩) (by simp [hx])
  have htask : ∀ t r, s.db.tasks.lookup t = some r → r.sessionId = x → r.userId ≠ u := by
    intro t r hr hrx hu
    obtain ⟨row, hrow, hru⟩ := hc.session hr
    exact hno _ row hrow (hru.trans hu) hrx
  have hnil : s.sessionTasks u x = [] := by
    refine List.eq_nil_iff_forall_not_mem.2 fun t ht => ?_
    obtain ⟨r, hr, hrx, hu⟩ := Store.mem_sessionTasks.1 ht
    exact htask t r hr hrx hu
  have hdrop : (s.detached u x).dropTasks u x = s.detached u x := by
    have hself := Table.deleteWhere_eq_self (t := s.db.tasks)
      (p := fun _ r => decide (r.sessionId = x) && decide (r.userId = u)) fun t r hr => by
        by_cases hrx : r.sessionId = x
        · simp [htask t r hr hrx]
        · simp [hrx]
    change (s.detached u x).withDb { (s.detached u x).db with
      tasks := s.db.tasks.deleteWhere fun _ r => decide (r.sessionId = x) && decide (r.userId = u) } = _
    rw [hself]
    rfl
  refine ⟨s.detached u x, ?_, rfl, rfl, fun f => ?_⟩
  · rw [purgeSession, deleteTasks, hdrop, if_neg (by
      rw [show (s.detached u x).sessionTasks u x = s.sessionTasks u x from rfl, hnil]; simp)]
    change (s.detached u x).deleteSession u x = _
    rw [deleteSession, show (s.detached u x).db.getSession u x = none from hx]
  · rw [lookup_detached, hnil, Option.map_map]
    refine Option.map_congr fun a ha => ?_
    by_cases hu : a.userId = u
    · have hses : a.sessionId.filter (· ≠ x) = a.sessionId := by
        cases hz : a.sessionId with
        | none => rfl
        | some z =>
          obtain ⟨row, hrow, hru⟩ := hc.fileSession ha hz
          simp [Option.filter, hno z row hrow (hru.trans hu)]
      simp only [Function.comp, if_pos hu, Attachment.tie, hses]
      cases a.taskId <;> simp
    · simp [hu, Attachment.tie]

/-! ### The purge of a user -/

theorem mem_sessionsOf : x ∈ s.sessionsOf u ↔ ∃ row, s.db.getSession u x = some row := by
  simp only [sessionsOf, List.mem_map, Prod.exists, exists_and_right, exists_eq_right,
    Table.mem_select, decide_eq_true_eq, Db.getSession_eq_some]

theorem Purged.getSession (hp : s.Purged u x s') (v : UserId) (y : SessionId) :
    s'.db.getSession v y = if y = x then none else s.db.getSession v y := by
  rw [Db.getSession, Db.getSession, hp.sessions]
  split_ifs <;> rfl

/-- Sessions that hang below a session of the user are the user's. -/
theorem Consistent.hangs_owned (hc : s.Consistent) (hx : s.db.getSession u x = some row)
    (hy : s.Hangs y x) : ∃ row', s.db.getSession u y = some row' := by
  obtain ⟨t, r, p, r', hr, hpar, hr', rfl, hrx⟩ := hy
  obtain ⟨row', hrow, hru⟩ := hc.session hr
  obtain ⟨q, hq, hqu⟩ := hc.parent hr hpar
  obtain rfl := Option.some.inj (hr'.symm.trans hq)
  exact ⟨row', Db.getSession_eq_some.2 ⟨hrow, hru.trans (hqu.symm.trans (hc.owner hx hr' hrx))⟩⟩

/-- What is left when every session of the user has been purged. -/
structure Cleared (s : Store) (u : UserId) (s' : Store) : Prop where
  consistent : s'.Consistent
  /-- No session of the user. -/
  sessions : ∀ x, s'.db.getSession u x = none
  refreshTokens : s'.refreshTokens = s.refreshTokens
  resetTokens : s'.resetTokens = s.resetTokens

/-- **All sessions of a user can be purged in some order just when no session comes before one that
hangs below it.** -/
theorem Consistent.purgeSessions_iff {order : List SessionId} (hc : s.Consistent)
    (hn : order.Nodup) (ho : ∀ x, x ∈ order ↔ ∃ row, s.db.getSession u x = some row) :
    ((∃ s', s.purgeSessions u order = .ok s') ↔ order.Pairwise fun x y => ¬ s.Hangs y x) ∧
      ∀ s', s.purgeSessions u order = .ok s' → s.Cleared u s' := by
  induction order generalizing s with
  | nil =>
    refine ⟨iff_of_true ⟨s, rfl⟩ .nil, fun s' h => ?_⟩
    obtain rfl := Except.ok.inj h
    exact ⟨hc, fun x => Option.eq_none_iff_forall_ne_some.2 fun row hrow =>
      absurd ((ho x).2 ⟨row, hrow⟩) List.not_mem_nil, rfl, rfl⟩
  | cons x order ih =>
    obtain ⟨row, hx⟩ := (ho x).1 List.mem_cons_self
    obtain ⟨hxo, hn⟩ := List.nodup_cons.1 hn
    by_cases hy : ∃ y ≠ x, s.Hangs y x
    · -- the first purge fails
      have herr : s.purgeSessions u (x :: order) = .error .tasks := by
        rw [purgeSessions, List.foldlM_cons, hc.purgeSession_error hx hy]
        rfl
      refine ⟨iff_of_false (by simp [herr]) fun hpw => ?_, by simp [herr]⟩
      obtain ⟨y, hyx, hang⟩ := hy
      have hmem : y ∈ x :: order := (ho y).2 (hc.hangs_owned hx hang)
      exact (List.pairwise_cons.1 hpw).1 y ((List.mem_cons.1 hmem).resolve_left hyx) hang
    · -- it succeeds, and what is left to do is a smaller purge of the same kind
      simp only [not_exists, not_and] at hy
      obtain ⟨s₁, hs₁, hp⟩ := hc.purgeSession_ok hx hy
      have hstep : s.purgeSessions u (x :: order) = s₁.purgeSessions u order := by
        rw [purgeSessions, List.foldlM_cons, hs₁]
        rfl
      have ho₁ : ∀ z, z ∈ order ↔ ∃ row, s₁.db.getSession u z = some row := by
        intro z
        rw [hp.getSession]
        split_ifs with hz
        · exact iff_of_false (hz ▸ hxo) (by simp)
        · rw [← ho z, List.mem_cons, or_iff_right hz]
      have hpw : (order.Pairwise fun y z => ¬ s₁.Hangs z y) ↔
          (x :: order).Pairwise fun y z => ¬ s.Hangs z y := by
        rw [List.pairwise_cons, and_iff_right fun z hz => hy z fun he => hxo (he ▸ hz)]
        refine List.Pairwise.iff_of_mem fun {y z} hyo hzo => ?_
        rw [hp.hangs]
        have hy : y ≠ x := fun he => hxo (he ▸ hyo)
        have hz : z ≠ x := fun he => hxo (he ▸ hzo)
        simp [hy, hz]
      obtain ⟨hiff, hclear⟩ := ih (hp.consistent hc hy) hn ho₁
      rw [hstep, hiff, hpw]
      refine ⟨Iff.rfl, fun s' h => ?_⟩
      have hcl := hclear s' h
      refine ⟨hcl.consistent, hcl.sessions, hcl.refreshTokens.trans ?_, hcl.resetTokens.trans ?_⟩
      · rw [hp.rest]; rfl
      · rw [hp.rest]; rfl

/-- The soft deletion of a user leaves all ties as they are, and no token unless the user has been
deleted before. -/
theorem softDeleteUser_some {row : UserRow} (hu : s.db.users.lookup u = some row) (now : ℕ) :
    ∃ s', s.softDeleteUser u now = some s' ∧ s.SameTies s' ∧
      (s'.Tokenless u ↔ row.deletedAt = none ∨ s.Tokenless u) := by
  rw [softDeleteUser, hu, Option.map_some]
  refine ⟨_, rfl, ?_⟩
  split_ifs with hdel
  · exact ⟨⟨rfl, rfl, fun _ => rfl⟩, by rw [or_iff_right (by rintro h; simp [h] at hdel)]⟩
  · refine ⟨⟨rfl, rfl, fun f => ?_⟩, iff_of_true ⟨fun h he => ?_, fun h he => ?_⟩ (.inl (by simpa using hdel))⟩
    · change (AList.lookup f (Table.mapRows _ _)).map _ = _
      rw [Table.lookup_mapRows, Option.map_map]
      refine Option.map_congr fun a _ => ?_
      simp only [Function.comp]
      split_ifs <;> rfl
    · replace he : AList.lookup h (s.refreshTokens.deleteWhere fun _ v => decide (v = u)) = some u :=
        he
      simp [Table.lookup_deleteWhere] at he
    · replace he : AList.lookup h (s.resetTokens.deleteWhere fun _ v => decide (v = u)) = some u :=
        he
      simp [Table.lookup_deleteWhere] at he

/-- Once the user's sessions are gone, the end of the purge leaves at most tokens. -/
theorem Cleared.erased_scrub (h : s.Cleared u s') (now : ℕ) :
    (s'.scrub u now).Erased u ↔ s.Tokenless u := by
  have hnone : ∀ z row, s'.db.sessions.lookup z = some row → row.userId ≠ u := by
    intro z row hrow hu
    exact absurd ((h.sessions z).symm.trans (Db.getSession_eq_some.2 ⟨hrow, hu⟩)) (by simp)
  constructor
  · intro he
    refine ⟨fun t ht => he.tokens.refreshTokens t ?_, fun t ht => he.tokens.resetTokens t ?_⟩
    · rwa [← h.refreshTokens] at ht
    · rwa [← h.resetTokens] at ht
  · intro ht
    refine ⟨hnone, fun t r hr hu => ?_, fun k row hk hu => ?_, ⟨fun t => ?_, fun t => ?_⟩,
      fun i hi => ?_⟩
    · obtain ⟨row, hrow, hru⟩ := h.consistent.session hr
      exact hnone _ row hrow (hru.trans hu)
    · replace hk : AList.lookup k (s'.db.fileNames.deleteWhere fun k _ => decide (k.1 = u)) =
        some row := hk
      simp [Table.lookup_deleteWhere, hu] at hk
    · change s'.refreshTokens.lookup t ≠ some u
      rw [h.refreshTokens]
      exact ht.refreshTokens t
    · change s'.resetTokens.lookup t ≠ some u
      rw [h.resetTokens]
      exact ht.resetTokens t
    · replace hi : AList.lookup i (s'.identities.deleteWhere fun _ v => decide (v = u)) = some u := hi
      simp [Table.lookup_deleteWhere] at hi

theorem Consistent.purgeUser_iff (hc : s.Consistent) {row : UserRow} {order : List SessionId}
    (hu : s.db.users.lookup u = some row) (ho : order.Perm (s.sessionsOf u)) (now : ℕ) :
    (∃ s', s.purgeUser u now order = .ok (some s') ∧ s'.Erased u) ↔
      ((s.account u).purgedAt = none ∧ (order.Pairwise fun x y => ¬ s.Hangs y x) ∧
          (row.deletedAt = none ∨ s.Tokenless u)) ∨
        ((s.account u).purgedAt ≠ none ∧ s.Erased u) := by
  rw [purgeUser, hu]
  dsimp only
  split_ifs with hp
  · have hne : (s.account u).purgedAt ≠ none := Option.isSome_iff_ne_none.1 hp
    simp [hne]
  · have hnone : (s.account u).purgedAt = none := Option.not_isSome_iff_eq_none.1 hp
    obtain ⟨s₁, hs₁, hties, htok⟩ := softDeleteUser_some hu now
    have hmem : ∀ x, x ∈ order ↔ ∃ row, s₁.db.getSession u x = some row := by
      intro x
      rw [ho.mem_iff, mem_sessionsOf, Db.getSession, Db.getSession, hties.sessions]
    obtain ⟨hiff, hclear⟩ := (hties.consistent hc).purgeSessions_iff
      (ho.nodup_iff.2 (Table.nodup_select _ _)) hmem
    simp only [hs₁, hnone, true_and, ne_eq, not_true_eq_false, false_and, or_false]
    have hpw : (order.Pairwise fun x y => ¬ s.Hangs y x) ↔ ∃ s', s₁.purgeSessions u order = .ok s' := by
      rw [hiff]
      simp only [hties.hangs]
    rw [hpw, ← htok]
    cases hs : s₁.purgeSessions u order with
    | error e => exact iff_of_false (by rintro ⟨s', h, -⟩; cases h) (by rintro ⟨⟨s', h⟩, -⟩; cases h)
    | ok s₂ =>
      rw [← (hclear s₂ hs).erased_scrub now]
      constructor
      · rintro ⟨s', h, he⟩
        obtain rfl := Option.some.inj (Except.ok.inj h)
        exact ⟨⟨s₂, rfl⟩, he⟩
      · rintro ⟨-, he⟩
        exact ⟨_, rfl, he⟩

end

/-! ### Reachable stores -/

/-- The row under new identifiers of its user and agents. -/
def renameTask (g : UserId → UserId) (k : AgentId → AgentId) (r : TaskRow) : TaskRow :=
  { r with
    userId := g r.userId
    agentId := k r.agentId
    callerAgentId := k r.callerAgentId
    activeAgentId := k r.activeAgentId }

/-- Users and agents have got new identifiers, in every row that refers to them. -/
structure Renamed (g : UserId → UserId) (k : AgentId → AgentId) (s s' : Store) : Prop where
  tasks : ∀ t, s'.db.tasks.lookup t = (s.db.tasks.lookup t).map (renameTask g k)
  sessions : ∀ z, s'.db.sessions.lookup z =
    (s.db.sessions.lookup z).map fun row => { row with userId := g row.userId }
  files : ∀ f, s'.attachments.lookup f =
    (s.attachments.lookup f).map fun a => { a with userId := g a.userId }

/-- What can happen to the store in one transaction. -/
inductive Step (cfg : Config) : Store → Store → Prop
  | router {s : Store} {β : Type} {a : Act β} {e : Env} {r : Router} {b : β}
      (h : a.exec cfg e s.router = some (r, b)) : Step cfg s { s with router := r }
  /-- Whatever touches neither the tasks, nor the sessions, nor what a file is tied to: users,
  agents, tokens, identities, names, events. -/
  | elsewhere {s s' : Store} (h : s.SameTies s') : Step cfg s s'
  /-- A user uploads a file, for a session and a task of theirs. -/
  | insertFile {s : Store} {f : String} {a : Attachment}
      (hx : ∀ z, a.sessionId = some z → (s.db.getSession a.userId z).isSome)
      (ht : ∀ t, a.taskId = some t → (s.db.getTask a.userId t).isSome) :
      Step cfg s { s with attachments := s.attachments.insert f a }
  | deleteFile {s : Store} (f : String) :
      Step cfg s { s with attachments := s.attachments.erase f }
  /-- An eviction gives a user or an agent another identifier, which cascades. -/
  | rename {s s' : Store} {g : UserId → UserId} {k : AgentId → AgentId} (h : Renamed g k s s') :
      Step cfg s s'
  /-- A session to which nothing refers is deleted. -/
  | dropSession {s : Store} {z : SessionId} (h : (s.dropSession z).refersToSession z = false) :
      Step cfg s (s.dropSession z)
  | purgeSession {s s' : Store} {u : UserId} {z : SessionId} {b : Bool}
      (h : s.purgeSession u z = .ok (s', b)) : Step cfg s s'
  | purgeUser {s s' : Store} {u : UserId} {now : ℕ} {order : List SessionId}
      (ho : order.Perm (s.sessionsOf u)) (h : s.purgeUser u now order = .ok (some s')) :
      Step cfg s s'

/-- What a fresh deployment and any number of transactions lead to. -/
def Reachable (cfg : Config) (s : Store) : Prop :=
  ∃ d : Deployment, Relation.ReflTransGen (Step cfg) { router := d.boot } s

section

variable {cfg : Config} {s s' : Store} {u : UserId} {x : SessionId}

theorem Consistent.router (hc : s.Consistent) {named : List TaskId} {y : Event Act} {r : Router}
    (he : Effect named s.db y r.db) : ({ s with router := r } : Store).Consistent where
  parent := he.parent_owned hc.parent
  session := he.session_owned hc.session
  fileSession ha hz := by
    obtain ⟨row, hrow, hu⟩ := hc.fileSession ha hz
    obtain ⟨row', hrow', hu'⟩ := he.session hrow
    exact ⟨row', hrow', hu'.trans hu⟩
  fileTask ha ht := by
    obtain ⟨r, hr, hu⟩ := hc.fileTask ha ht
    obtain ⟨r', hr', hl⟩ := he.later hr
    exact ⟨r', hr', hl.userId.trans hu⟩

theorem Consistent.renamed {g : UserId → UserId} {k : AgentId → AgentId} (hc : s.Consistent)
    (h : Renamed g k s s') : s'.Consistent where
  parent := by
    intro t r p hr hp
    rw [h.tasks, Option.map_eq_some_iff] at hr
    obtain ⟨r₀, hr₀, rfl⟩ := hr
    obtain ⟨q, hq, hu⟩ := hc.parent hr₀ hp
    exact ⟨renameTask g k q, by rw [h.tasks, hq, Option.map_some], congrArg g hu⟩
  session := by
    intro t r hr
    rw [h.tasks, Option.map_eq_some_iff] at hr
    obtain ⟨r₀, hr₀, rfl⟩ := hr
    obtain ⟨row, hrow, hu⟩ := hc.session hr₀
    exact ⟨_, by rw [h.sessions, show (renameTask g k r₀).sessionId = r₀.sessionId from rfl, hrow,
      Option.map_some], congrArg g hu⟩
  fileSession := by
    intro f a z ha hz
    rw [h.files, Option.map_eq_some_iff] at ha
    obtain ⟨a₀, ha₀, rfl⟩ := ha
    obtain ⟨row, hrow, hu⟩ := hc.fileSession ha₀ hz
    exact ⟨_, by rw [h.sessions, hrow, Option.map_some], congrArg g hu⟩
  fileTask := by
    intro f a t ha ht
    rw [h.files, Option.map_eq_some_iff] at ha
    obtain ⟨a₀, ha₀, rfl⟩ := ha
    obtain ⟨r, hr, hu⟩ := hc.fileTask ha₀ ht
    exact ⟨renameTask g k r, by rw [h.tasks, hr, Option.map_some], congrArg g hu⟩

theorem Consistent.purgeSession (hc : s.Consistent) {b : Bool}
    (h : s.purgeSession u x = .ok (s', b)) : s'.Consistent := by
  cases hx : s.db.getSession u x with
  | none =>
    obtain ⟨s₁, hs₁, hties⟩ := hc.purgeSession_absent hx
    obtain ⟨rfl, -⟩ := Prod.mk.inj (Except.ok.inj (h.symm.trans hs₁))
    exact hties.consistent hc
  | some row =>
    by_cases hy : ∃ y ≠ x, s.Hangs y x
    · rw [hc.purgeSession_error hx hy] at h
      exact absurd h (by simp)
    · simp only [not_exists, not_and] at hy
      obtain ⟨s₁, hs₁, hp⟩ := hc.purgeSession_ok hx hy
      obtain ⟨rfl, -⟩ := Prod.mk.inj (Except.ok.inj (h.symm.trans hs₁))
      exact hp.consistent hc hy

theorem sameTies_scrub (s : Store) (u : UserId) (now : ℕ) : s.SameTies (s.scrub u now) := by
  refine ⟨rfl, rfl, fun f => ?_⟩
  change (AList.lookup f (Table.mapRows _ _)).map _ = _
  rw [Table.lookup_mapRows, Option.map_map]
  refine Option.map_congr fun a _ => ?_
  simp only [Function.comp]
  split_ifs <;> rfl

theorem Consistent.purgeUser (hc : s.Consistent) {now : ℕ} {order : List SessionId}
    (ho : order.Perm (s.sessionsOf u)) (h : s.purgeUser u now order = .ok (some s')) :
    s'.Consistent := by
  unfold Store.purgeUser at h
  cases hu : s.db.users.lookup u with
  | none => simp [hu] at h
  | some row =>
    obtain ⟨s₁, hs₁, hties, -⟩ := softDeleteUser_some hu now
    have hmem : ∀ x, x ∈ order ↔ ∃ row, s₁.db.getSession u x = some row := by
      intro x
      rw [ho.mem_iff, mem_sessionsOf, Db.getSession, Db.getSession, hties.sessions]
    simp only [hu, hs₁] at h
    split_ifs at h with hp
    · obtain rfl := Option.some.inj (Except.ok.inj h)
      exact hc
    · cases hs : s₁.purgeSessions u order with
      | error e =>
        rw [hs] at h
        cases h
      | ok s₂ =>
        rw [hs] at h
        obtain rfl := Option.some.inj (Except.ok.inj h)
        have hcl := ((hties.consistent hc).purgeSessions_iff
          (ho.nodup_iff.2 (Table.nodup_select _ _)) hmem).2 s₂ hs
        exact (sameTies_scrub s₂ u now).consistent hcl.consistent

/-- **Every transaction keeps the references consistent.** -/
theorem Step.consistent (h : Step cfg s s') (hc : s.Consistent) : s'.Consistent := by
  cases h with
  | router h => exact hc.router (Act.exec_effect h).1
  | elsewhere h => exact h.consistent hc
  | @insertFile f a hx ht =>
    refine ⟨hc.parent, hc.session, fun {f' a' z} ha hz => ?_, fun {f' a' t} ha hz => ?_⟩
    · dsimp only at ha
      rw [Table.lookup_insert] at ha
      split_ifs at ha
      · obtain rfl := Option.some.inj ha
        obtain ⟨row, hrow⟩ := Option.isSome_iff_exists.1 (hx z hz)
        exact ⟨row, Db.getSession_eq_some.1 hrow⟩
      · exact hc.fileSession ha hz
    · dsimp only at ha
      rw [Table.lookup_insert] at ha
      split_ifs at ha
      · obtain rfl := Option.some.inj ha
        obtain ⟨r, hr⟩ := Option.isSome_iff_exists.1 (ht t hz)
        exact ⟨r, Db.getTask_eq_some.1 hr⟩
      · exact hc.fileTask ha hz
  | deleteFile f =>
    have hold : ∀ f' a, AList.lookup f' (s.attachments.erase f) = some a →
        s.attachments.lookup f' = some a := by
      intro f' a ha
      by_cases hf : f' = f
      · rw [hf, AList.lookup_erase] at ha
        exact absurd ha (by simp)
      · rwa [AList.lookup_erase_ne hf] at ha
    exact ⟨hc.parent, hc.session, fun ha hz => hc.fileSession (hold _ _ ha) hz,
      fun ha hz => hc.fileTask (hold _ _ ha) hz⟩
  | rename h => exact hc.renamed h
  | @dropSession z h =>
    have hold : ∀ y row, s.db.sessions.lookup y = some row → y ≠ z →
        (s.dropSession z).db.sessions.lookup y = some row := by
      intro y row hrow hy
      exact (AList.lookup_erase_ne hy).trans hrow
    have hno := mt refersToSession_iff.2 (Bool.eq_false_iff.1 h)
    simp only [not_or, not_exists, not_and] at hno
    refine ⟨hc.parent, fun {t r} hr => ?_, fun {f a y} ha hy => ?_, hc.fileTask⟩
    · obtain ⟨row, hrow, hu⟩ := hc.session hr
      exact ⟨row, hold _ _ hrow fun he => hno.1 t r hr he, hu⟩
    · obtain ⟨row, hrow, hu⟩ := hc.fileSession ha hy
      exact ⟨row, hold _ _ hrow fun he => hno.2 f a ha (he ▸ hy), hu⟩
  | purgeSession h => exact hc.purgeSession h
  | purgeUser ho h => exact hc.purgeUser ho h

theorem Reachable.consistent (h : s.Reachable cfg) : s.Consistent := by
  obtain ⟨d, h⟩ := h
  induction h with
  | refl =>
    have hnone : ∀ {t r}, (d.boot.db.tasks : Tasks).lookup t = some r → False := by
      intro t r hr
      simp [Deployment.boot] at hr
    have hfile : ∀ {f a}, AList.lookup f (∅ : Table String Attachment) = some a → False := by
      intro f a ha
      simp at ha
    exact ⟨fun hr => (hnone hr).elim, fun hr => (hnone hr).elim, fun ha => (hfile ha).elim,
      fun ha => (hfile ha).elim⟩
  | tail _ hstep ih => exact hstep.consistent ih

/-- What a run of the router leads to is reachable. -/
theorem Reachable.run {g : Guard Act Env Router Call Ret} {P Q : Pool Act Router Call Ret}
    (h : s.Reachable cfg) (hrun : Run (Backplane.router cfg) g P Q) (hP : s.router = P.shared) :
    ({ s with router := Q.shared } : Store).Reachable cfg := by
  induction hrun with
  | refl => rwa [← hP]
  | start _ _ _ ih => exact ih
  | step _ _ _ he ih =>
    obtain ⟨d, hd⟩ := ih
    exact ⟨d, hd.tail (.router he)⟩

/-- **The purge of a session removes exactly what it should just when no task of another session has
its parent in it; that of a user completes and leaves nothing just when no session comes before one
that hangs below it, and no token has outlived an earlier deletion.** -/
theorem purge_exact (h : s.Reachable cfg) :
    (∀ u x row, s.db.getSession u x = some row →
      ((∃ s', s.purgeSession u x = .ok (s', true) ∧ s.Purged u x s') ↔ ∀ y ≠ x, ¬ s.Hangs y x)) ∧
    ∀ u row now order, s.db.users.lookup u = some row → order.Perm (s.sessionsOf u) →
      ((∃ s', s.purgeUser u now order = .ok (some s') ∧ s'.Erased u) ↔
        ((s.account u).purgedAt = none ∧ (order.Pairwise fun x y => ¬ s.Hangs y x) ∧
            (row.deletedAt = none ∨ s.Tokenless u)) ∨
          ((s.account u).purgedAt ≠ none ∧ s.Erased u)) := by
  have hc := h.consistent
  refine ⟨fun u x row hx => ?_, fun u row now order hu ho => hc.purgeUser_iff hu ho now⟩
  constructor
  · rintro ⟨s', hs', -⟩ y hyx hang
    rw [hc.purgeSession_error hx ⟨y, hyx, hang⟩] at hs'
    exact absurd hs' (by simp)
  · exact fun hy => hc.purgeSession_ok hx hy

end

end Store

/-! ### A task below another session -/

namespace Sample

/-- `u` opens session `s2`, in which `b` spawns a task below `t`, a task of session `s` (coroutine
`6`); then `u` closes `s` (coroutine `7`). -/
def acrossSessions : List (Move Env Call) :=
  dispatched ++ [.start (.openSession "u"), step 5 "s2",
    receive 1 "b" (.newTask { spawn "b" "c" (some "t") with sessionId := "s2" })] ++ steps 6 6 ++
    [step 6 "child", .start (.closeSession "u" "s")] ++ steps 7 11

/-- What a run of the sample deployment stores. -/
def stored (P : Pool Act Router Call Ret) : Store := { router := P.shared }

theorem reachable_stored {ms : List (Move Env Call)} {P : Pool Act Router Call Ret}
    (h : play anything ms = some P) : (stored P).Reachable {} :=
  Store.Reachable.run (s := stored (.init deployment.boot)) ⟨deployment, .refl⟩ (free_of_play h) rfl

/-- How a purge of a session ends. -/
def purgeOutcome (s : Store) (x : SessionId) : Option Bool :=
  match s.purgeSession "u" x with
  | .ok (_, b) => some b
  | .error _ => none

end Sample

/-- Session `s2` is purged, and so is the user when `s2` comes first. -/
theorem purge_exact_across : ∃ P, Sample.play Sample.anything Sample.acrossSessions = some P ∧
    (∃ s', (Sample.stored P).purgeSession "u" "s2" = .ok (s', true) ∧
      (Sample.stored P).Purged "u" "s2" s') ∧
    ∃ s', (Sample.stored P).purgeUser "u" 9 ["s2", "s"] = .ok (some s') ∧ s'.Erased "u" := by
  have hplay : ((Sample.play Sample.anything Sample.acrossSessions).map fun P =>
      ((Sample.purgeOutcome (Sample.stored P) "s2", (P.shared.db.getSession "u" "s2").isSome),
        (Sample.stored P).sessionsOf "u", P.shared.db.users.lookup "u")) =
      some ((some true, true), ["s", "s2"], some ⟨"u", "tier1", none, none⟩) := by
    decide +kernel
  obtain ⟨P, hP, h⟩ := Option.map_eq_some_iff.1 hplay
  obtain ⟨h, hof, hu⟩ := Prod.mk.inj h |>.imp id Prod.mk.inj
  obtain ⟨hout, hx⟩ := Prod.mk.inj h
  obtain ⟨row, hx⟩ := Option.isSome_iff_exists.1 hx
  have hs := Sample.reachable_stored hP
  have hfree : ∀ y ≠ "s2", ¬ (Sample.stored P).Hangs y "s2" := by
    intro y hy hang
    have herr := hs.consistent.purgeSession_error hx ⟨y, hy, hang⟩
    rw [Sample.purgeOutcome, herr] at hout
    exact absurd hout (by simp)
  refine ⟨P, hP, ((Store.purge_exact hs).1 "u" "s2" row hx).2 hfree,
    ((Store.purge_exact hs).2 "u" _ 9 ["s2", "s"] hu (by rw [hof]; exact .swap _ _ _)).2
      (.inl ⟨rfl, ?_, .inl rfl⟩)⟩
  simpa using hfree "s" (by decide)

/-- The task of `s2` has its parent in `s`, so `s` cannot be purged, closed as it is. -/
theorem purge_incomplete : ¬ ∀ (cfg : Config) (s : Store), s.Reachable cfg →
    (∀ u x row, s.db.getSession u x = some row →
      ∃ s', s.purgeSession u x = .ok (s', true) ∧ s.Purged u x s') ∧
    ∀ u row now order, s.db.users.lookup u = some row → order.Perm (s.sessionsOf u) →
      ∃ s', s.purgeUser u now order = .ok (some s') ∧ s'.Erased u := by
  intro hall
  have hplay : ((Sample.play Sample.anything Sample.acrossSessions).map fun P =>
      (Sample.purgeOutcome (Sample.stored P) "s", (P.shared.db.getSession "u" "s").isSome)) =
      some (none, true) := by
    decide +kernel
  obtain ⟨P, hP, h⟩ := Option.map_eq_some_iff.1 hplay
  obtain ⟨hout, hx⟩ := Prod.mk.inj h
  obtain ⟨row, hx⟩ := Option.isSome_iff_exists.1 hx
  obtain ⟨s', hs', -⟩ := (hall {} _ (Sample.reachable_stored hP)).1 "u" "s" row hx
  rw [Sample.purgeOutcome, hs'] at hout
  exact absurd hout (by simp)

end Backplane
