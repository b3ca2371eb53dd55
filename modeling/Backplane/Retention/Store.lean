import Backplane.Router.Effects

/-!
# What the router stores, and how it is erased

The tables a purge works on are those of the router and a few more.  A statement that deletes rows
fails when a row that is left refers to one that went: no foreign key of the schema cascades a
deletion.

* `Attachment`, `Account` : the columns of `files` and `users` that only erasure reads.
* `Store` : the router with these tables and the credentials.
* `Store.purgeSession` : hard-delete a session and its dependents, in the order of the statements.
* `Store.softDeleteUser`, `Store.purgeUser` : the erasure of a user.
-/

namespace Backplane

/-- What ties a blob to a session and a task. -/
structure Attachment where
  userId : UserId
  sessionId : Option SessionId := none
  taskId : Option TaskId := none
  expiresAt : Option ℕ := none
  deriving DecidableEq, Repr

/-- The personal data of a user, and who may mint credentials for them. -/
structure Account where
  /-- Unique among users. -/
  email : Option String := none
  authSecretHash : Option String := none
  /-- Service principals that may mint credentials for the user. -/
  servicedBy : List UserId := []
  purgedAt : Option ℕ := none
  deriving DecidableEq, Repr

/-- The router and the tables that only erasure touches. -/
structure Store where
  router : Router := {}
  /-- `files`: what each blob is tied to. -/
  attachments : Table String Attachment := ∅
  /-- `users`: the personal data. -/
  accounts : Table UserId Account := ∅
  /-- `auth_refresh_tokens`: token hash to user. -/
  refreshTokens : Table String UserId := ∅
  /-- `password_reset_tokens`: token hash to user. -/
  resetTokens : Table String UserId := ∅
  /-- `user_oidc_identities`: issuer and subject to user. -/
  identities : Table (String × String) UserId := ∅

/-- Rows are left that refer to a deleted row of this table. -/
inductive FkViolation
  | tasks | sessions
  deriving DecidableEq, Repr

/-- Lifetime of the files of a deleted user. -/
def deletedFileTtlS : ℕ := 24 * 60 * 60

namespace Store

/-- The tables of the router. -/
abbrev db (s : Store) : Db := s.router.db

variable (s : Store) (u : UserId) (x : SessionId)

/-- The store with other router tables. -/
def withDb (db : Db) : Store := { s with router := { s.router with db } }

/-- The personal data of a user. -/
def account : Account := (s.accounts.lookup u).getD {}

/-! ### Deleting a session -/

/-- The user's tasks in the session. -/
def sessionTasks : List TaskId :=
  (s.db.tasks.select fun _ r => decide (r.sessionId = x) && decide (r.userId = u)).map Prod.fst

/-- Whether a row refers to the task. -/
def refersToTask (t : TaskId) : Bool :=
  !(s.db.tasks.select fun _ r => decide (r.parentTaskId = some t)).isEmpty ||
    s.db.events.any (fun e => decide (e.taskId = t)) ||
    !(s.attachments.select fun _ a => decide (a.taskId = some t)).isEmpty

/-- Whether a row refers to the session. -/
def refersToSession : Bool :=
  !(s.db.tasks.select fun _ r => decide (r.sessionId = x)).isEmpty ||
    !(s.attachments.select fun _ a => decide (a.sessionId = some x)).isEmpty

/-- `DELETE FROM task_events WHERE task_id = ANY(…)`. -/
def deleteEvents (tids : List TaskId) : Store :=
  s.withDb { s.db with events := s.db.events.filter fun e => decide (e.taskId ∉ tids) }

/-- `delete_file_names_for_scope`. -/
def deleteFileNamesForScope (scope : String) : Store :=
  s.withDb { s.db with
    fileNames := s.db.fileNames.deleteWhere fun k _ => decide (k.1 = u) && decide (k.2.1 = scope) }

/-- `UPDATE files SET session_id = NULL WHERE user_id = … AND session_id = …`. -/
def detachSession : Store :=
  { s with attachments := s.attachments.mapRows fun _ a =>
      if a.userId = u ∧ a.sessionId = some x then { a with sessionId := none } else a }

/-- `UPDATE files SET task_id = NULL WHERE user_id = … AND task_id = ANY(…)`. -/
def detachTasks (tids : List TaskId) : Store :=
  { s with attachments := s.attachments.mapRows fun _ a =>
      if a.userId = u ∧ ∃ t ∈ tids, a.taskId = some t then { a with taskId := none } else a }

/-- The store without the user's tasks in the session. -/
def dropTasks : Store :=
  s.withDb { s.db with
    tasks := s.db.tasks.deleteWhere fun _ r => decide (r.sessionId = x) && decide (r.userId = u) }

/-- `DELETE FROM tasks WHERE session_id = … AND user_id = …`: all rows at once. -/
def deleteTasks : Except FkViolation Store :=
  if (s.sessionTasks u x).any (s.dropTasks u x).refersToTask then .error .tasks
  else .ok (s.dropTasks u x)

/-- The store without the session. -/
def dropSession : Store := s.withDb { s.db with sessions := s.db.sessions.erase x }

/-- `DELETE FROM sessions WHERE session_id = … AND user_id = …`. -/
def deleteSession : Except FkViolation (Store × Bool) :=
  match s.db.getSession u x with
  | none => .ok (s, false)
  | some _ =>
    if (s.dropSession x).refersToSession x then .error .sessions else .ok (s.dropSession x, true)

/-- What precedes the deletion of the tasks: their events and names go, the files are detached. -/
def detached : Store :=
  let tids := s.sessionTasks u x
  (((s.deleteEvents tids).deleteFileNamesForScope u (scopeFor false x)).detachSession u x
    ).detachTasks u tids

/-- `purge_session` in a transaction of its own: hard-delete a session and its dependents.  Answers
whether there was such a session; on a violation the transaction leaves everything as it was. -/
def purgeSession : Except FkViolation (Store × Bool) := do
  let s ← (s.detached u x).deleteTasks u x
  s.deleteSession u x

/-! ### Deleting a user -/

/-- `delete_user_refresh_tokens`. -/
def deleteUserRefreshTokens : Store :=
  { s with refreshTokens := s.refreshTokens.deleteWhere fun _ v => decide (v = u) }

/-- `delete_user_password_reset_tokens`. -/
def deleteUserPasswordResetTokens : Store :=
  { s with resetTokens := s.resetTokens.deleteWhere fun _ v => decide (v = u) }

/-- `sweep_serviced_by_references`. -/
def sweepServicedByReferences : Store :=
  { s with accounts := s.accounts.mapRows fun _ a =>
      { a with servicedBy := a.servicedBy.filter (· ≠ u) } }

/-- Let the user's files expire no later than `t`. -/
def capExpiry (t : ℕ) : Store :=
  { s with attachments := s.attachments.mapRows fun _ a =>
      if a.userId = u then { a with expiresAt := some (min (a.expiresAt.getD t) t) } else a }

/-- `soft_delete_user`: mark the user as deleted, revoke their tokens and let their files expire;
`none` if there is no such user, and nothing happens to one who has been deleted before. -/
def softDeleteUser (now : ℕ) : Option Store :=
  (s.db.users.lookup u).map fun row =>
    if row.deletedAt.isSome then s
    else
      let s := s.withDb { s.db with
        users := s.db.users.update u fun r => { r with deletedAt := some now } }
      let s := (s.deleteUserRefreshTokens u).deleteUserPasswordResetTokens u
      (s.sweepServicedByReferences u).capExpiry u (now + deletedFileTtlS)

/-- The user's sessions. -/
def sessionsOf : List SessionId :=
  (s.db.sessions.select fun _ r => decide (r.userId = u)).map Prod.fst

/-- Purge sessions of the user one after the other. -/
def purgeSessions (order : List SessionId) : Except FkViolation Store :=
  order.foldlM (fun s x => Prod.fst <$> s.purgeSession u x) s

/-- The end of `purge_user`: drop all names, let all files expire, drop the identities and scrub the
personal data. -/
def scrub (now : ℕ) : Store :=
  { s.withDb { s.db with fileNames := s.db.fileNames.deleteWhere fun k _ => decide (k.1 = u) } with
    attachments := s.attachments.mapRows fun _ a =>
      if a.userId = u then { a with expiresAt := some now } else a
    identities := s.identities.deleteWhere fun _ v => decide (v = u)
    accounts := s.accounts.insert u
      { s.account u with email := none, authSecretHash := none, purgedAt := some now } }

/-- `purge_user` in a transaction of its own, the user's sessions coming from the database in this
`order`; `none` if there is no such user, and nothing happens to one who has been erased before. -/
def purgeUser (now : ℕ) (order : List SessionId) : Except FkViolation (Option Store) :=
  match s.db.users.lookup u with
  | none => .ok none
  | some _ =>
    if (s.account u).purgedAt.isSome then .ok (some s)
    else match s.softDeleteUser u now with
      | none => .ok none
      | some s' => do
        let s'' ← s'.purgeSessions u order
        return some (s''.scrub u now)

end Store

end Backplane
