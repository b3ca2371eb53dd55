import Backplane.Concur.Fallible
import Backplane.Data.Table
import Backplane.Identity.Accounts
import Mathlib.Order.Bounds.Basic

/-!
# Scheduled jobs

A scheduler looks through the active jobs once a minute.  For each it computes the latest scheduled
instant before its own clock, claims the job for that instant with one `UPDATE`, and on success runs
the job's message.  Users add, change and remove jobs meanwhile, and any number of schedulers may
run.

* `Croniter` : the schedules, as the cron library computes them.
* `CronDb` : the table, with the claims that have been won.
* `CronAct`, `CronAct.exec` : the statements.
* `tick`, `modify`, … : the programs; `cron` : the machine, whose runs are their interleavings.
-/

namespace Backplane.Cron

open Concur Prog

/-! ### Schedules -/

/-- A point in time, in microseconds. -/
abbrev Instant := ℤ

/-- The cron library and the time zone database. -/
structure Croniter where
  isValid : String → Bool
  /-- `ZoneInfo` knows the name. -/
  isZone : String → Bool
  /-- The instants of an expression in a time zone. -/
  scheduled : String → String → Instant → Prop
  /-- `get_prev`; `none`: it raises. -/
  getPrev : String → String → Instant → Option Instant
  /-- It is the latest scheduled instant before. -/
  getPrev_spec : ∀ {expr zone now d}, getPrev expr zone now = some d →
    IsGreatest {t | scheduled expr zone t ∧ t < now} d

/-- `_tz` -/
def Croniter.tz (cal : Croniter) (name : String) : String := if cal.isZone name then name else "UTC"

/-! ### Jobs -/

/-- `cron_jobs.report` -/
inductive ReportPolicy
  | always
  | never
  | caseByCase
  deriving DecidableEq

/-- What the column accepts. -/
def ReportPolicy.ofText : String → Option ReportPolicy
  | "always" => some .always
  | "never" => some .never
  | "case_by_case" => some .caseByCase
  | _ => none

/-- `cron_jobs.status` -/
inductive CronStatus
  | active
  | inactive
  deriving DecidableEq

/-- What the column accepts. -/
def CronStatus.ofText : String → Option CronStatus
  | "active" => some .active
  | "inactive" => some .inactive
  | _ => none

/-- A row of `cron_jobs`. -/
structure CronJob where
  cronId : ℕ
  userId : UserId
  sessionId : String
  cronExpression : String
  timezone : String
  report : ReportPolicy
  cronMessage : String
  status : CronStatus
  executeUntil : Option Instant
  createdAt : Instant
  lastExecutedAt : Option Instant
  /-- When the schedule last changed, or the job was last re-activated; no column. -/
  changedAt : Instant

/-- What a user asks to change. -/
structure CronFields where
  cronExpression : Option String := none
  timezone : Option String := none
  report : Option String := none
  cronMessage : Option String := none
  status : Option String := none
  deriving DecidableEq

/-- The row with these columns, if they are accepted. -/
def CronFields.set (f : CronFields) (dbNow : Instant) (r : CronJob) : Option CronJob :=
  match f.report.elim (some r.report) ReportPolicy.ofText,
      f.status.elim (some r.status) CronStatus.ofText with
  | some report, some status =>
    let expr := f.cronExpression.getD r.cronExpression
    let zone := f.timezone.getD r.timezone
    let changed := expr ≠ r.cronExpression ∨ zone ≠ r.timezone ∨
      r.status = .inactive ∧ status = .active
    some { r with
      cronExpression := expr, timezone := zone, report := report, status := status
      cronMessage := f.cronMessage.getD r.cronMessage
      changedAt := if changed then dbNow else r.changedAt }
  | _, _ => none

/-- The job is active and has not been claimed for this instant or a later one. -/
def CronJob.claimable (r : CronJob) (due : Instant) : Bool :=
  decide (r.status = .active) && r.lastExecutedAt.all fun l => decide (l < due)

/-- The job has not expired. -/
def CronJob.unexpired (r : CronJob) (now : Instant) : Bool :=
  r.executeUntil.all fun u => decide (now < u)

/-- A claim that was won: the row it found, and the instant. -/
structure WonClaim where
  job : CronJob
  due : Instant

/-- `cron_jobs`. -/
structure CronDb where
  jobs : Table ℕ CronJob := ∅
  /-- How many ids have been drawn. -/
  minted : ℕ := 0
  /-- The claims that were won, in order. -/
  won : List WonClaim := []

/-! ### Statements -/

/-- What the orchestrator answered. -/
structure CronOutput where
  content : Option String := none
  files : List String := []
  /-- `metadata["report"]` -/
  report : Bool := false
  /-- `metadata["reason"]` -/
  reason : Option String := none

/-- What a step learns from outside. -/
structure CronEnv where
  clock : Instant := 0
  /-- `now()` of the database. -/
  dbNow : Instant := 0
  /-- The statement raises and does nothing. -/
  fault : Bool := false
  /-- The statement raises, yet it has been carried out. -/
  lost : Bool := false
  session : Bool := true
  defaultSession : Option String := none
  output : Option CronOutput := none

/-- A job to create. -/
structure NewCron where
  userId : UserId
  sessionId : String
  cronExpression : String
  cronMessage : String
  timezone : String := "UTC"
  report : String := "case_by_case"

/-- The statements, by the type of their answer; `none`: it raised. -/
inductive CronAct : Type → Type 1
  /-- `datetime.now(UTC)` -/
  | clock : CronAct Instant
  /-- `create_cron_job`, under a new id -/
  | createCronJob (c : NewCron) : CronAct (Option ℕ)
  | getCronJob (cronId : ℕ) : CronAct (Option (Option CronJob))
  | listActiveCronJobs : CronAct (Option (List CronJob))
  | updateCronJob (cronId : ℕ) (fields : CronFields) : CronAct (Option Unit)
  | removeCronJob (cronId : ℕ) : CronAct (Option Unit)
  /-- `purge_session_suite_data` -/
  | purgeSession (sessionId : String) : CronAct (Option Unit)
  /-- `purge_user_suite_data` -/
  | purgeUser (userId : UserId) : CronAct (Option Unit)
  | claimCronJob (cronId : ℕ) (due now : Instant) : CronAct (Option Bool)
  | deactivateCronJob (cronId : ℕ) : CronAct (Option Unit)
  /-- `get_session_info`, whether there is one -/
  | getSessionInfo (sessionId : String) : CronAct (Option Bool)
  /-- `get_user_config`, its default session -/
  | getUserConfig (userId : UserId) : CronAct (Option (Option String))
  /-- `spawn_root_for_user`: the run of the job for the instant `due` -/
  | spawnRootForUser (job : CronJob) (sessionId : String) (due : Instant) : CronAct (Option Unit)
  | awaitRootResult : CronAct (Option (Option CronOutput))
  /-- The assistant row under the session lock, then the channel. -/
  | relay (sessionId message : String) (files : List String) : CronAct (Option Unit)
  | recordCronExecution (job : CronJob) (sessionId : String) (reported : Bool)
      (reason message : Option String) (raised : Bool) : CronAct (Option Unit)

/-- How a statement ends that leaves `s'` and answers `b`. -/
def CronEnv.answer {β : Type} (e : CronEnv) (s s' : CronDb) (b : β) : CronDb × Option β :=
  if e.fault then (s, none) else (s', if e.lost then none else some b)

/-- The row a job begins with. -/
def NewCron.row (c : NewCron) (cronId : ℕ) (dbNow : Instant) (report : ReportPolicy) : CronJob where
  cronId := cronId
  userId := c.userId
  sessionId := c.sessionId
  cronExpression := c.cronExpression
  timezone := c.timezone
  report := report
  cronMessage := c.cronMessage
  status := .active
  executeUntil := none
  createdAt := dbNow
  lastExecutedAt := none
  changedAt := dbNow

/-- A claim of a job for an instant: whether it is won. -/
def CronDb.claim (s : CronDb) (cronId : ℕ) (due now : Instant) : CronDb × Bool :=
  match s.jobs.lookup cronId with
  | some r =>
    if r.claimable due then
      ({ s with
          jobs := s.jobs.insert cronId { r with lastExecutedAt := some now }
          won := s.won ++ [⟨r, due⟩] }, true)
    else (s, false)
  | none => (s, false)

/-- What a statement does; each is a transaction of its own. -/
def CronAct.exec : {β : Type} → CronAct β → CronEnv → CronDb → Option (CronDb × β)
  | _, clock, e, s => some (s, e.clock)
  | _, createCronJob c, e, s =>
    match ReportPolicy.ofText c.report with
    | some report =>
      some (e.answer s { s with
        jobs := s.jobs.insert s.minted (c.row s.minted e.dbNow report)
        minted := s.minted + 1 } s.minted)
    | none => some (s, none)
  | _, getCronJob cronId, e, s => some (e.answer s s (s.jobs.lookup cronId))
  | _, listActiveCronJobs, e, s =>
    some (e.answer s s ((s.jobs.select fun _ r =>
      decide (r.status = .active) && r.unexpired e.dbNow).map Prod.snd))
  | _, updateCronJob cronId f, e, s =>
    match s.jobs.lookup cronId with
    | some r =>
      match f.set e.dbNow r with
      | some r' => some (e.answer s { s with jobs := s.jobs.insert cronId r' } ())
      | none => some (s, none)
    | none => some (e.answer s s ())
  | _, removeCronJob cronId, e, s =>
    some (e.answer s { s with jobs := s.jobs.deleteWhere fun k _ => decide (k = cronId) } ())
  | _, purgeSession sid, e, s =>
    some (e.answer s { s with jobs := s.jobs.deleteWhere fun _ r => decide (r.sessionId = sid) } ())
  | _, purgeUser u, e, s =>
    some (e.answer s { s with jobs := s.jobs.deleteWhere fun _ r => decide (r.userId = u) } ())
  | _, claimCronJob cronId due now, e, s =>
    some (e.answer s (s.claim cronId due now).1 (s.claim cronId due now).2)
  | _, deactivateCronJob cronId, e, s =>
    some (e.answer s
      { s with jobs := s.jobs.update cronId fun r => { r with status := .inactive } } ())
  | _, getSessionInfo _, e, s => some (e.answer s s e.session)
  | _, getUserConfig _, e, s => some (e.answer s s e.defaultSession)
  | _, spawnRootForUser _ _ _, e, s => some (e.answer s s ())
  | _, awaitRootResult, e, s => some (e.answer s s e.output)
  | _, relay _ _ _, e, s => some (e.answer s s ())
  | _, recordCronExecution _ _ _ _ _ _, e, s => some (e.answer s s ())

/-! ### The scheduler -/

/-- A program of the scheduler or of a tool. -/
abbrev CronTask (α : Type) := Fallible CronAct α

/-- `_resolve_session` -/
def resolveSession (job : CronJob) : CronTask String := do
  if ← Fallible.query (.getSessionInfo job.sessionId) then pure job.sessionId
  else
    let default ← Fallible.query (.getUserConfig job.userId)
    pure (match default with
      | some d => if d = "" then job.sessionId else d
      | none => job.sessionId)

/-- `_effective_report` -/
def effectiveReport (policy : ReportPolicy) (llmReport : Bool) : Bool :=
  match policy with
  | .always => true
  | .never => false
  | .caseByCase => llmReport

/-- What came of a run: the message, the reason, whether to report it, the files; `none`: it
raised. -/
def runMessage (job : CronJob) (sessionId : String) (due : Instant) :
    Prog CronAct (Option (String × Option String × Bool × List String)) := do
  match ← perform (.spawnRootForUser job sessionId due) with
  | none => pure none
  | some () =>
    match ← perform .awaitRootResult with
    | none => pure none
    | some out =>
      let o := out.getD {}
      pure (some (o.content.getD "", o.reason, effectiveReport job.report o.report, o.files))

/-- The apply step. -/
def applyResult (sessionId : String) : Option (String × Option String × Bool × List String) →
    CronTask Unit
  | some (message, _, reported, files) =>
    if reported && (decide (message ≠ "") || !files.isEmpty) then
      Fallible.query (.relay sessionId message files)
    else pure ()
  | none => pure ()

/-- The row of the execution log. -/
def logExecution (job : CronJob) (sessionId : String) :
    Option (String × Option String × Bool × List String) → CronAct (Option Unit)
  | some (message, reason, reported, _) =>
    .recordCronExecution job sessionId reported reason (if reported then some message else none)
      false
  | none => .recordCronExecution job sessionId false none none true

/-- `_execute` -/
def execute (job : CronJob) (now due : Instant) : CronTask Unit := do
  let sessionId ← resolveSession job
  let result ← Fallible.lift (runMessage job sessionId due)
  applyResult sessionId result
  Fallible.query (logExecution job sessionId result)
  if job.unexpired now then pure () else Fallible.query (.deactivateCronJob job.cronId)

/-- The latest scheduled instant of the job before `now`. -/
def Croniter.due (cal : Croniter) (job : CronJob) (now : Instant) : Option Instant :=
  cal.getPrev job.cronExpression (cal.tz job.timezone) now

/-- `_maybe_fire` -/
def maybeFire (cal : Croniter) (job : CronJob) (now : Instant) : CronTask Bool :=
  match cal.due job now with
  | none => pure false
  | some due =>
    if job.lastExecutedAt.any fun l => decide (due ≤ l) then pure false
    else do
      if ← Fallible.query (.claimCronJob job.cronId due now) then
        execute job now due
        pure true
      else pure false

/-- The pass over the jobs; how many have fired. -/
def fireEach (cal : Croniter) (now : Instant) : List CronJob → ℕ → CronTask ℕ
  | [], fired => pure fired
  | job :: jobs, fired => do
    let b ← maybeFire cal job now
    fireEach cal now jobs (if b then fired + 1 else fired)

/-- The jobs as listed, and the pass over them. -/
def tickAt (cal : Croniter) (now : Instant) : CronTask ℕ := do
  let jobs ← Fallible.query .listActiveCronJobs
  fireEach cal now jobs 0

/-- `tick` -/
def tick (cal : Croniter) : Option Instant → CronTask ℕ
  | some now => tickAt cal now
  | none => do
    let now ← Fallible.lift (perform .clock)
    tickAt cal now

/-! ### The tools -/

/-- What a tool answers. -/
inductive CronReply
  | fired (n : ℕ)
  | created (cronId : ℕ)
  /-- `Removed job`, `Updated job`, or the rows are purged. -/
  | done
  | noSuchJob
  /-- `Invalid cron expression` -/
  | invalid (expr : String)

/-- `add_cron` -/
def addCron (cal : Croniter) (c : NewCron) : CronTask CronReply :=
  if cal.isValid c.cronExpression then do
    let cronId ← Fallible.query (.createCronJob c)
    pure (.created cronId)
  else pure (.invalid c.cronExpression)

/-- `remove_cron` -/
def removeCron (userId : UserId) (cronId : ℕ) : CronTask CronReply := do
  match ← Fallible.query (.getCronJob cronId) with
  | none => pure .noSuchJob
  | some job =>
    if job.userId = userId then
      Fallible.query (.removeCronJob cronId)
      pure .done
    else pure .noSuchJob

/-- The first expression among the changes that is not valid. -/
def CronFields.invalidExpression (cal : Croniter) (f : CronFields) : Option String :=
  f.cronExpression.filter fun x => !cal.isValid x

/-- `update_cron_job`, where there is something to update -/
def CronFields.update (f : CronFields) (cronId : ℕ) : CronTask Unit :=
  if f = {} then pure () else Fallible.query (.updateCronJob cronId f)

/-- `_modify` -/
def modify (cal : Croniter) (userId : UserId) (cronId : ℕ) (f : CronFields) :
    CronTask CronReply := do
  match ← Fallible.query (.getCronJob cronId) with
  | none => pure .noSuchJob
  | some job =>
    if job.userId = userId then
      match f.invalidExpression cal with
      | some x => pure (.invalid x)
      | none =>
        f.update cronId
        pure .done
    else pure .noSuchJob

/-- What runs. -/
inductive CronCall
  /-- A pass of a scheduler, by its clock or at a given time. -/
  | tick (now : Option Instant)
  | addCron (c : NewCron)
  | removeCron (userId : UserId) (cronId : ℕ)
  | modify (userId : UserId) (cronId : ℕ) (fields : CronFields)
  | purgeSession (sessionId : String)
  | purgeUser (userId : UserId)

/-- The program of a call. -/
def CronCall.body (cal : Croniter) : CronCall → CronTask CronReply
  | .tick now => do pure (.fired (← Cron.tick cal now))
  | .addCron c => Cron.addCron cal c
  | .removeCron u id => Cron.removeCron u id
  | .modify u id f => Cron.modify cal u id f
  | .purgeSession sid => do
    Fallible.query (.purgeSession sid)
    pure .done
  | .purgeUser u => do
    Fallible.query (.purgeUser u)
    pure .done

/-- Schedulers and tools, any number of each. -/
def cron (cal : Croniter) : Machine CronAct CronEnv CronDb CronCall (Except Unit CronReply) where
  exec := CronAct.exec
  body c := (c.body cal).run

end Backplane.Cron
