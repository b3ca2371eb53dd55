import Backplane.Db.Admission

/-!
# Sessions and the names they hold

* `Db.closingView` : what a close request reads first, the session and its open tasks.
* `Db.closeSessionTx`, `Db.reopenSessionTx`, `Db.openSessionTx` : the session transactions.
* `Db.allocateName` : bind a name in the file store under the dedup policy.
* `Db.sessionNames` : the names bound in a session's scope.
-/

namespace Backplane

/-- Directory scope key: user-wide, or the session's ephemeral stash. -/
def scopeFor (persistent : Bool) (sessionId : SessionId) : String :=
  if persistent then "persist" else "session:" ++ sessionId

/-- Render a saved name back to its caller-facing form. -/
def displayName (persistent : Bool) (bare : String) : String :=
  if persistent then "persist/" ++ bare else bare

/-- A flat stash name: non-empty, no path separator, no control character, no quote. -/
def validBareFilename (name : String) : Bool :=
  name ≠ "" && name.toList.all fun c =>
    c ≠ '/' && c ≠ '"' && decide (0x1f < c.toNat) && decide (c.toNat ≠ 0x7f)

/-- `report.pdf` becomes `report_n.pdf`, `README` becomes `README_n`. -/
def nextDedupCandidate (filename : String) (n : ℕ) : String :=
  let rev := filename.toList.reverse
  let ext := rev.takeWhile (· ≠ '.')
  match rev.drop ext.length with
  | [] => filename ++ "_" ++ toString n
  | _ :: stem =>
    String.ofList stem.reverse ++ "_" ++ toString n ++ "." ++ String.ofList ext.reverse

/-- Bound of the dedup counter. -/
def maxDedupAttempts : ℕ := 1000

namespace Db

variable (db : Db)

/-- The names bound in a session's scope. -/
def sessionNames (userId : UserId) (s : SessionId) : List (UserId × String × String) :=
  (db.fileNames.select fun k _ =>
    decide (k.1 = userId) && decide (k.2.1 = scopeFor false s)).map Prod.fst

/-- The session and, while it is open, its open tasks; `none` if the user has no such session. -/
def closingView (userId : UserId) (s : SessionId) : Option (Bool × List TaskId) :=
  (db.getSession userId s).map fun row =>
    if row.closedAt.isSome then (true, [])
    else (false, (db.tasks.openWhere fun r =>
      decide (r.userId = userId) && decide (r.sessionId = s)).map TaskRow.taskId)

/-- Close the session and delete the names in its scope. -/
def closeSessionTx (now : ℕ) (userId : UserId) (s : SessionId) : Db :=
  { db with
    sessions := match db.getSession userId s with
      | some row => if row.closedAt.isSome then db.sessions
        else db.sessions.insert s { row with closedAt := some now }
      | none => db.sessions
    fileNames := db.fileNames.deleteWhere fun k _ =>
      decide (k.1 = userId) && decide (k.2.1 = scopeFor false s) }

/-- Open the session again; `false` if the user has no such session. -/
def reopenSessionTx (userId : UserId) (s : SessionId) : Db × Bool :=
  match db.getSession userId s with
  | none => (db, false)
  | some row =>
    ({ db with sessions := db.sessions.insert s { row with closedAt := none } }, true)

/-- Open a fresh session. -/
def openSessionTx (now : ℕ) (userId : UserId) (newId : SessionId) : Db :=
  { db with sessions := db.sessions.insert newId ⟨newId, userId, now, none⟩ }

/-- Bind a name. -/
def bindName (userId : UserId) (scope name : String) (row : FileNameRow) : Db :=
  { db with fileNames := db.fileNames.insert (userId, scope, name) row }

/-- Bind `name` to a blob under the dedup policy; answers the saved name or the error. -/
def allocateName (userId : UserId) (scope name : String) (row : FileNameRow) (dedup : Dedup) :
    Db × Except String String :=
  match db.fileNames.lookup (userId, scope, name) with
  | none => (db.bindName userId scope name row, .ok name)
  | some existing =>
    if existing.fileId = row.fileId then (db, .ok name)
    else match dedup with
      | .error => (db, .error "filename_exists")
      | .overwrite => (db.bindName userId scope name row, .ok name)
      | .appendCount =>
        match ((List.range' 1 maxDedupAttempts).map (nextDedupCandidate name)).find? fun c =>
            (db.fileNames.lookup (userId, scope, c)).isNone with
        | some c => (db.bindName userId scope c row, .ok c)
        | none => (db, .error "filename_exists")

end Db

variable {db : Db} {u : UserId} {x : SessionId}

/-- A name allocation binds at most one name, in the scope it was asked for. -/
theorem Db.allocateName_cases (db : Db) (u : UserId) (scope name : String) (row : FileNameRow)
    (d : Dedup) :
    (db.allocateName u scope name row d).1 = db ∨
      ∃ n, (db.allocateName u scope name row d).1 = db.bindName u scope n row := by
  unfold allocateName
  cases db.fileNames.lookup (u, scope, name) with
  | none => exact .inr ⟨name, rfl⟩
  | some e =>
    dsimp only
    split_ifs
    · exact .inl rfl
    · cases d with
      | error => exact .inl rfl
      | overwrite => exact .inr ⟨name, rfl⟩
      | appendCount =>
        dsimp only
        split
        · exact .inr ⟨_, rfl⟩
        · exact .inl rfl

theorem Db.mem_sessionNames {k : UserId × String × String} :
    k ∈ db.sessionNames u x ↔
      (db.fileNames.lookup k).isSome ∧ k.1 = u ∧ k.2.1 = scopeFor false x := by
  simp only [sessionNames, List.mem_map, Prod.exists, exists_and_right, exists_eq_right]
  constructor
  · rintro ⟨v, hv⟩
    obtain ⟨hl, hp⟩ := Table.mem_select.1 hv
    simp only [Bool.and_eq_true, decide_eq_true_eq] at hp
    exact ⟨by rw [hl]; rfl, hp⟩
  · rintro ⟨hs, hp⟩
    obtain ⟨v, hv⟩ := Option.isSome_iff_exists.1 hs
    exact ⟨v, Table.mem_select.2 ⟨hv, by simpa using hp⟩⟩

end Backplane
