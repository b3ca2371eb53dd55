import Backplane.Db.Schema
import Backplane.Concur.Discipline
import Backplane.Concur.Trace
import Mathlib.Data.List.DropRight

/-!
# The cache of user levels

One worker looks a user's level up in a cache that it fills from the database, and an admin request
that changes a user drops the user's entry after its transaction.  Between reading a row and filling
the cache a look-up is suspended.

* `LevelAct`, `LevelAct.exec` : the atomic actions; `levelWorker` : the machine.
* `Since log j u row` : the user had this row at some time since request `j` changed it.
* `freshFills` : no look-up fills the cache with a row from before a change that has been applied.
* `level_current` : in such runs no check that begins after a change was applied uses what the user
  was before.
-/

namespace Backplane

open Concur Prog

/-! ### The worker -/

/-- An entry of the cache. -/
structure LevelEntry where
  /-- The level of the user, who was active when the entry was made. -/
  level : String
  expiresAt : ℕ
  deriving DecidableEq, Repr

/-- Lifetime of an entry. -/
def userLevelTtl : ℕ := 60

/-- Most entries the cache holds. -/
def userLevelCacheMax : ℕ := 5000

/-- The ordered dictionary of the cache, the least recently used entry first. -/
abbrev LevelCache := List (UserId × LevelEntry)

namespace LevelCache

variable (c : LevelCache) (u : UserId)

/-- The entry of a user. -/
def get : Option LevelEntry := (c.find? fun p => p.1 = u).map Prod.snd

/-- Drop the entry of a user. -/
def pop : LevelCache := c.filter fun p => p.1 ≠ u

/-- Set the entry of a user, at the end. -/
def set (e : LevelEntry) : LevelCache := c.pop u ++ [(u, e)]

/-- Drop the oldest entries past the cap. -/
def trim : LevelCache := c.drop (c.length - userLevelCacheMax)

/-- `move_to_end` -/
def touch : LevelCache :=
  match c.get u with
  | some e => c.set u e
  | none => c

/-- The level of a user whose entry has not expired. -/
def fresh (now : ℕ) : Option String := ((c.get u).filter fun e => now < e.expiresAt).map LevelEntry.level

variable {c u} {v : UserId} {e e' : LevelEntry}

theorem mem_of_get (h : c.get u = some e) : (u, e) ∈ c := by
  obtain ⟨⟨w, e'⟩, hf, rfl⟩ := Option.map_eq_some_iff.1 h
  obtain rfl : w = u := by simpa using List.find?_some hf
  exact List.mem_of_find?_eq_some hf

theorem mem_pop : (v, e) ∈ c.pop u ↔ (v, e) ∈ c ∧ v ≠ u := by simp [pop]

theorem mem_set : (v, e) ∈ c.set u e' ↔ ((v, e) ∈ c ∧ v ≠ u) ∨ (v = u ∧ e = e') := by
  simp [set, mem_pop]

theorem mem_of_trim (h : (v, e) ∈ c.trim) : (v, e) ∈ c := List.mem_of_mem_drop h

theorem mem_of_touch (h : (v, e) ∈ c.touch u) : (v, e) ∈ c := by
  unfold touch at h
  split at h
  · rename_i e' he
    rcases mem_set.1 h with h | ⟨rfl, rfl⟩
    · exact h.1
    · exact mem_of_get he
  · exact h

theorem mem_of_fresh {now : ℕ} {l : String} (h : c.fresh u now = some l) :
    ∃ e, (u, e) ∈ c ∧ e.level = l := by
  obtain ⟨e, he, rfl⟩ := Option.map_eq_some_iff.1 h
  exact ⟨e, mem_of_get (Option.filter_eq_some_iff.1 he).1, rfl⟩

end LevelCache

/-- The user table and the cache of one worker. -/
structure LevelWorker where
  users : Table UserId UserRow := ∅
  /-- `_user_level_cache` -/
  cache : LevelCache := []

/-- What an admin request does to a user. -/
inductive UserChange
  /-- `PATCH /users/{id}`: the new level and whether the user is suspended, where given. -/
  | patch (level : Option String) (suspended : Option Bool)
  /-- `DELETE /users/{id}` -/
  | delete
  deriving DecidableEq

/-- The row after a change at time `now`. -/
def UserChange.apply (now : ℕ) (row : UserRow) : UserChange → UserRow
  | patch level suspended =>
    { row with
      level := level.getD row.level
      suspendedAt := match suspended with
        | some true => some now
        | some false => none
        | none => row.suspendedAt }
  | delete => { row with deletedAt := row.deletedAt.or (some now) }

/-- `user_is_active`, with the level of an active user. -/
def UserRow.activeLevel (row : UserRow) : Option String :=
  if row.suspendedAt.isSome || row.deletedAt.isSome then none else some row.level

/-- The atomic actions of level look-ups and of the requests that change users. -/
inductive LevelAct : Type → Type 1
  /-- `peek_user_level_cached` -/
  | peek (u : UserId) : LevelAct (Option String)
  /-- The cache look-up of `resolve_user_level`, with the time it was made at. -/
  | cached (u : UserId) : LevelAct (ℕ × Option String)
  /-- `get_user_by_id` -/
  | readUser (u : UserId) : LevelAct (Option UserRow)
  /-- The cache write of `resolve_user_level`. -/
  | fill (u : UserId) (e : LevelEntry) : LevelAct Unit
  /-- The transaction that changes a user.  Answers the row before and after. -/
  | change (u : UserId) (c : UserChange) : LevelAct (Option (UserRow × UserRow))
  /-- `invalidate_user_level` -/
  | invalidate (u : UserId) : LevelAct Unit

/-- What an action does at a given time. -/
def LevelAct.exec : {β : Type} → LevelAct β → ℕ → LevelWorker → Option (LevelWorker × β)
  | _, peek u, now, s => some (s, if u = "" then none else s.cache.fresh u now)
  | _, cached u, now, s =>
    match s.cache.fresh u now with
    | some l => some ({ s with cache := s.cache.touch u }, now, some l)
    | none => some (s, now, none)
  | _, readUser u, _, s => some (s, s.users.lookup u)
  | _, fill u e, _, s => some ({ s with cache := (s.cache.set u e).trim }, ())
  | _, change u c, now, s =>
    match s.users.lookup u with
    | none => some (s, none)
    | some row =>
      let row' := c.apply now row
      some ({ s with users := s.users.insert u row' }, some (row, row'))
  | _, invalidate u, _, s => some ({ s with cache := s.cache.pop u }, ())

/-- A program of the worker. -/
abbrev LevelProg := Prog LevelAct

/-- `resolve_user_level` -/
def resolveUserLevel (u : UserId) : LevelProg (Option String) :=
  if u = "" then pure none
  else do
    let (now, hit) ← perform (.cached u)
    match hit with
    | some l => pure (some l)
    | none =>
      match ← perform (.readUser u) with
      | none => pure none
      | some row =>
        match row.activeLevel with
        | none => pure none
        | some l => do
          perform (.fill u ⟨l, now + userLevelTtl⟩)
          pure (some l)

/-- `_session_level` -/
def lookUpSessionLevel (u : UserId) : LevelProg (Option String) :=
  if u = "" then pure none
  else do
    match ← perform (.peek u) with
    | some l => pure (some l)
    | none => resolveUserLevel u

/-- `_principal_from_request` for a token that has been verified: the user and the level it was
issued with. -/
def principalFromRequest (u : UserId) (tokenLevel : String) : LevelProg (Option (UserId × String)) := do
  match ← perform (.peek u) with
  | some _ => pure (some (u, tokenLevel))
  | none =>
    match ← perform (.readUser u) with
    | none => pure none
    | some row => if row.deletedAt.isSome then pure none else pure (some (u, tokenLevel))

/-- What a request of the worker returns. -/
inductive LevelRet
  | changed
  /-- Nothing was changed; the status code. -/
  | unchanged (statusCode : ℕ)
  | level (l : Option String)
  /-- Who is authenticated, and with which level. -/
  | principal (p : Option (UserId × String))
  deriving DecidableEq, Repr

/-- `update_user`, when there is something to update. -/
def updateUser (u : UserId) (level : Option String) (suspended : Option Bool) : LevelProg LevelRet := do
  match ← perform (.change u (.patch level suspended)) with
  | none => pure (.unchanged 404)
  | some _ => do
    perform (.invalidate u)
    pure .changed

/-- `delete_user`; a second soft delete is a no-op. -/
def deleteUser (admin u : UserId) (purge : Bool) : LevelProg LevelRet :=
  if u = admin then pure (.unchanged 400)
  else do
    match ← perform (.change u .delete) with
    | none => pure (.unchanged 404)
    | some (row, _) =>
      if row.deletedAt.isSome && !purge then pure (.unchanged 204)
      else do
        perform (.invalidate u)
        pure .changed

/-- A request of the worker. -/
inductive LevelCall
  /-- `PATCH /users/{id}` -/
  | update (u : UserId) (level : Option String) (suspended : Option Bool)
  /-- `DELETE /users/{id}` by an admin. -/
  | delete (admin u : UserId) (purge : Bool)
  /-- An authenticated request with a verified token. -/
  | authenticate (u : UserId) (tokenLevel : String)
  | admission (u : UserId)
  | tierGate (u : UserId)
  deriving DecidableEq

/-- The program of a request. -/
def LevelCall.body : LevelCall → LevelProg LevelRet
  | update u level suspended =>
    if level.isNone && suspended.isNone then pure (.unchanged 200) else updateUser u level suspended
  | delete admin u purge => deleteUser admin u purge
  | authenticate u tokenLevel => do pure (.principal (← principalFromRequest u tokenLevel))
  | admission u => do pure (.level (← lookUpSessionLevel u))
  | tierGate u => do pure (.level (← resolveUserLevel u))

/-- Whom an admin request is about. -/
def LevelCall.target : LevelCall → Option UserId
  | update u _ _ => some u
  | delete _ u _ => some u
  | _ => none

/-- The level look-ups and the admin requests of one worker. -/
def levelWorker : Machine LevelAct ℕ LevelWorker LevelCall LevelRet where
  exec := LevelAct.exec
  body := LevelCall.body

/-! ### What happened to a user -/

/-- The row that this action gave the user. -/
def changedTo (u : UserId) : Event LevelAct → Option UserRow
  | ⟨.change v _, some (_, row)⟩ => if v = u then some row else none
  | _ => none

/-- The action drops the user's entry. -/
def invalidates (u : UserId) : Event LevelAct → Bool
  | ⟨.invalidate v, _⟩ => decide (v = u)
  | _ => false

/-- Since request `j` changed the user, the user has had this row. -/
def Since (log : Log LevelAct) (j : ℕ) (u : UserId) (row : UserRow) : Prop :=
  ∃ l₁ x l₂, log = l₁ ++ (j, x) :: l₂ ∧ (changedTo u x).isSome = true ∧
    row ∈ ((j, x) :: l₂).filterMap fun y => changedTo u y.2

/-- Request `j` dropped the user's entry before coroutine `i` did anything. -/
def Before (log : Log LevelAct) (i j : ℕ) (u : UserId) : Prop :=
  ∃ l₁ l₂ x, log = l₁ ++ l₂ ∧ (j, x) ∈ l₁ ∧ invalidates u x = true ∧ ∀ y ∈ l₁, y.1 ≠ i

/-- Since the last action of coroutine `i` some request has changed the user and dropped the
entry. -/
def overtaken (log : Log LevelAct) (i : ℕ) (u : UserId) : Bool :=
  let since := log.rtakeWhile fun y => decide (y.1 ≠ i)
  since.any fun y => (changedTo u y.2).isSome && since.any fun z => decide (z.1 = y.1) && invalidates u z.2

/-- A look-up does not fill the cache with a row from before a change that has been applied since it
read the row. -/
def fillsFresh (log : Log LevelAct) (i : ℕ) : {β : Type} → LevelAct β → Bool
  | _, .fill u _ => !overtaken log i u
  | _, _ => true

/-- No look-up is overtaken. -/
def freshFills : Guard LevelAct ℕ LevelWorker LevelCall LevelRet :=
  ⟨fun _ _ => True, fun P i _ a _ => fillsFresh P.log i a = true⟩

section

variable {log : Log LevelAct} {i j k : ℕ} {u : UserId} {row : UserRow} {y : ℕ × Event LevelAct}

theorem Since.append (h : Since log j u row) (y : ℕ × Event LevelAct) : Since (log ++ [y]) j u row := by
  obtain ⟨l₁, x, l₂, rfl, hx, hrow⟩ := h
  refine ⟨l₁, x, l₂ ++ [y], by simp, hx, ?_⟩
  rw [← List.cons_append, List.filterMap_append]
  exact List.mem_append_left _ hrow

/-- A new row is had since every change so far, and since its own. -/
theorem Since.changed {z : Event LevelAct} (hz : changedTo u y.2 = some row)
    (hj : (j, z) ∈ log ++ [y]) (hcz : (changedTo u z).isSome = true) : Since (log ++ [y]) j u row := by
  rcases List.mem_append.1 hj with hj | hj
  · obtain ⟨l₁, l₂, rfl⟩ := List.append_of_mem hj
    refine ⟨l₁, z, l₂ ++ [y], by simp, hcz, ?_⟩
    rw [← List.cons_append, List.filterMap_append]
    exact List.mem_append_right _ (by simp [hz])
  · obtain rfl := List.mem_singleton.1 hj
    exact ⟨log, z, [], rfl, hcz, by simp [hz]⟩

theorem rtakeWhile_after {p : ℕ × Event LevelAct → Bool} {l l' : Log LevelAct}
    {x : ℕ × Event LevelAct} (hx : p x = false)
    (h : ∀ z ∈ l', p z = true) : (l ++ [x] ++ l').rtakeWhile p = l' := by
  induction l' using List.reverseRecOn with
  | nil => rw [List.append_nil, List.rtakeWhile_concat_neg _ _ _ (by simp [hx])]
  | append_singleton l' z ih =>
    rw [← List.append_assoc, List.rtakeWhile_concat_pos _ _ _ (h z (by simp)),
      ih fun w hw => h w (List.mem_append_left _ hw)]

/-- Once a coroutine has moved, nothing more happens before it. -/
theorem Before.of_append {x : Event LevelAct} (hi : (i, x) ∈ log) (h : Before (log ++ [y]) i j u) :
    Before log i j u := by
  obtain ⟨l₁, l₂, z, hl, hz, hinv, hno⟩ := h
  rcases List.append_eq_append_iff.1 hl with ⟨l, rfl, hl₂⟩ | ⟨l, rfl, hl₂⟩
  · exact absurd rfl (hno _ (List.mem_append_left _ hi))
  · exact ⟨l₁, l, z, rfl, hz, hinv, hno⟩

theorem mem_of_before (h : Before log i j u) : ∃ x, (j, x) ∈ log ∧ invalidates u x = true := by
  obtain ⟨l₁, l₂, x, rfl, hx, hinv, -⟩ := h
  exact ⟨x, List.mem_append_left _ hx, hinv⟩

end

/-! ### What a request does -/

/-- What a request of the worker knows. -/
inductive LevelPhase
  | start
  /-- The user has had such a row since every change that was applied before. -/
  | seen (u : UserId) (p : UserRow → Prop)
  /-- It has read this row and may fill the cache with it. -/
  | held (u : UserId) (row : UserRow)
  | missing (u : UserId)
  | changed (u : UserId)
  /-- It has dropped the user's entry. -/
  | applied (u : UserId)

namespace LevelPhase

/-- The cache is filled with what was read, and an entry is dropped after a change. -/
def ok : {β : Type} → LevelPhase → LevelAct β → Prop
  | _, q, .fill u e => ∃ row, q = held u row ∧ row.activeLevel = some e.level
  | _, q, .invalidate u => q = changed u
  | _, q, _ => q = start

/-- What is known after an answer. -/
def next : {β : Type} → LevelPhase → LevelAct β → β → LevelPhase
  | _, _, .peek u, some l => seen u fun row => row.activeLevel = some l
  | _, _, .cached u, (_, some l) => seen u fun row => row.activeLevel = some l
  | _, _, .readUser u, some row => held u row
  | _, _, .readUser u, none => missing u
  | _, held v row, .fill _ _, _ => seen v fun r => r = row
  | _, _, .change u _, some _ => changed u
  | _, _, .invalidate u, _ => applied u
  | _, q, _, _ => q

/-- It is known that the user has had such a row, unless there was no such user. -/
def Knows (u : UserId) (p : UserRow → Prop) (q : LevelPhase) : Prop :=
  (∃ p', q = seen u p' ∧ ∀ row, p' row → p row) ∨ (∃ row, q = held u row ∧ p row) ∨ q = missing u

end LevelPhase

/-- The discipline of the worker's requests. -/
def levelWork : Discipline LevelAct LevelPhase := ⟨LevelPhase.ok, fun _ _ => True, LevelPhase.next⟩

/-- Which user a check is about. -/
def LevelCall.user : LevelCall → Option UserId
  | authenticate u _ => some u
  | admission u => some u
  | tierGate u => some u
  | _ => none

/-- The answer of a check about a user with this row: an authentication takes the level from its
token and looks at deletion only. -/
def LevelCall.Fits (c : LevelCall) (r : LevelRet) (row : UserRow) : Prop :=
  match c with
  | authenticate u tokenLevel =>
    r = .principal (if row.deletedAt.isSome then none else some (u, tokenLevel))
  | admission u => r = .level (if u = "" then none else row.activeLevel)
  | tierGate u => r = .level (if u = "" then none else row.activeLevel)
  | _ => True

section

variable {u v : UserId} {q : LevelPhase}

theorem UserRow.not_deleted {row : UserRow} {l : String} (h : row.activeLevel = some l) :
    row.deletedAt.isSome = false := by
  unfold activeLevel at h
  split_ifs at h with ha
  rw [Bool.not_eq_true, Bool.or_eq_false_iff] at ha
  exact ha.2

theorem levelWork_resolve (hu : u ≠ "") : levelWork.Obeys .start (resolveUserLevel u) fun q' r =>
    q'.Knows u fun row => r = row.activeLevel := by
  unfold resolveUserLevel
  rw [if_neg hu]
  refine Discipline.obeys_perform_bind.2 ⟨rfl, fun out _ => ?_⟩
  obtain ⟨now, hit⟩ := out
  cases hit with
  | some l => exact .inl ⟨_, rfl, fun row hrow => hrow.symm⟩
  | none =>
    refine Discipline.obeys_perform_bind.2 ⟨rfl, fun row _ => ?_⟩
    cases row with
    | none => exact .inr (.inr rfl)
    | some row =>
      dsimp only
      cases hl : row.activeLevel with
      | none => exact .inr (.inl ⟨row, rfl, hl.symm⟩)
      | some l =>
        refine Discipline.obeys_perform_bind.2 ⟨⟨row, rfl, hl⟩, fun _ _ => ?_⟩
        refine .inl ⟨_, rfl, ?_⟩
        rintro _ rfl
        exact hl.symm

theorem levelWork_lookUp (hu : u ≠ "") : levelWork.Obeys .start (lookUpSessionLevel u) fun q' r =>
    q'.Knows u fun row => r = row.activeLevel := by
  unfold lookUpSessionLevel
  rw [if_neg hu]
  refine Discipline.obeys_perform_bind.2 ⟨rfl, fun hit _ => ?_⟩
  cases hit with
  | some l => exact .inl ⟨_, rfl, fun row hrow => hrow.symm⟩
  | none => exact levelWork_resolve hu

theorem levelWork_principal {l : String} : levelWork.Obeys .start (principalFromRequest u l) fun q' r =>
    q'.Knows u fun row => r = if row.deletedAt.isSome then none else some (u, l) := by
  refine Discipline.obeys_perform_bind.2 ⟨rfl, fun hit _ => ?_⟩
  cases hit with
  | some l' =>
    refine .inl ⟨_, rfl, fun row hrow => ?_⟩
    simp [UserRow.not_deleted hrow]
  | none =>
    refine Discipline.obeys_perform_bind.2 ⟨rfl, fun row _ => ?_⟩
    cases row with
    | none => exact .inr (.inr rfl)
    | some row =>
      dsimp only
      split_ifs with hd
      · exact .inr (.inl ⟨row, rfl, by simp [hd]⟩)
      · exact .inr (.inl ⟨row, rfl, by simp [hd]⟩)

theorem LevelPhase.Knows.mono {p p' : UserRow → Prop} (h : q.Knows u p) (hp : ∀ row, p row → p' row) :
    q.Knows u p' := by
  rcases h with ⟨p₀, hq, hp₀⟩ | ⟨row, hq, hrow⟩ | hq
  · exact .inl ⟨p₀, hq, fun row hr => hp row (hp₀ row hr)⟩
  · exact .inr (.inl ⟨row, hq, hp row hrow⟩)
  · exact .inr (.inr hq)

theorem levelWork_apply {r : LevelRet} (hq : q = .changed u) :
    levelWork.Obeys q (do perform (.invalidate u); pure r) fun q' _ => q' = .applied u :=
  Discipline.obeys_perform_bind.2 ⟨hq, fun _ _ => rfl⟩

/-- **Every check answers by a row that it knows of**, and a change is applied once it has been
committed. -/
theorem levelWork_body (c : LevelCall) : levelWork.Obeys .start c.body fun q r =>
    (∀ u, c.target = some u → r = .changed → q = .applied u) ∧
      ∀ u, c.user = some u → q.Knows u (c.Fits r) ∨ ∀ row, c.Fits r row := by
  cases c with
  | update u level suspended =>
    dsimp only [LevelCall.body, updateUser]
    split_ifs
    · exact ⟨fun _ _ h => absurd h (by simp), fun _ h => absurd h (by simp [LevelCall.user])⟩
    · refine Discipline.obeys_perform_bind.2 ⟨rfl, fun out _ => ?_⟩
      cases out with
      | none => exact ⟨fun _ _ h => absurd h (by simp), fun _ h => absurd h (by simp [LevelCall.user])⟩
      | some rows =>
        refine (levelWork_apply rfl).mono fun q r hq => ⟨fun v hv _ => ?_, fun _ h => ?_⟩
        · exact Option.some.inj hv ▸ hq
        · exact absurd h (by simp [LevelCall.user])
  | delete admin u purge =>
    dsimp only [LevelCall.body, deleteUser]
    split_ifs
    · exact ⟨fun _ _ h => absurd h (by simp), fun _ h => absurd h (by simp [LevelCall.user])⟩
    · refine Discipline.obeys_perform_bind.2 ⟨rfl, fun out _ => ?_⟩
      cases out with
      | none => exact ⟨fun _ _ h => absurd h (by simp), fun _ h => absurd h (by simp [LevelCall.user])⟩
      | some rows =>
        obtain ⟨row, row'⟩ := rows
        dsimp only
        split_ifs
        · exact ⟨fun _ _ h => absurd h (by simp), fun _ h => absurd h (by simp [LevelCall.user])⟩
        · refine (levelWork_apply rfl).mono fun q r hq => ⟨fun v hv _ => ?_, fun _ h => ?_⟩
          · exact Option.some.inj hv ▸ hq
          · exact absurd h (by simp [LevelCall.user])
  | authenticate u l =>
    refine Discipline.obeys_bind.2 (levelWork_principal.mono fun q r hq => ?_)
    refine ⟨fun _ h => absurd h (by simp [LevelCall.target]), fun v hv => .inl ?_⟩
    obtain rfl := Option.some.inj hv
    exact hq.mono fun row hr => congrArg LevelRet.principal hr
  | admission u =>
    by_cases hu : u = ""
    · have hbody : (LevelCall.admission u).body = pure (.level none) := by
        simp [LevelCall.body, lookUpSessionLevel, hu]
      rw [hbody]
      refine ⟨fun _ h => absurd h (by simp [LevelCall.target]), fun v hv => .inr fun row => ?_⟩
      simp [LevelCall.Fits, hu]
    · refine Discipline.obeys_bind.2 ((levelWork_lookUp hu).mono fun q r hq => ?_)
      refine ⟨fun _ h => absurd h (by simp [LevelCall.target]), fun v hv => .inl ?_⟩
      obtain rfl := Option.some.inj hv
      refine hq.mono fun row hr => ?_
      simp [LevelCall.Fits, hu, hr]
  | tierGate u =>
    by_cases hu : u = ""
    · have hbody : (LevelCall.tierGate u).body = pure (.level none) := by
        simp [LevelCall.body, resolveUserLevel, hu]
      rw [hbody]
      refine ⟨fun _ h => absurd h (by simp [LevelCall.target]), fun v hv => .inr fun row => ?_⟩
      simp [LevelCall.Fits, hu]
    · refine Discipline.obeys_bind.2 ((levelWork_resolve hu).mono fun q r hq => ?_)
      refine ⟨fun _ h => absurd h (by simp [LevelCall.target]), fun v hv => .inl ?_⟩
      obtain rfl := Option.some.inj hv
      refine hq.mono fun row hr => ?_
      simp [LevelCall.Fits, hu, hr]

end

/-! ### Every run -/

/-- What a phase says about the history. -/
def LevelPhase.Holds (i : ℕ) (log : Log LevelAct) : LevelPhase → Prop
  | start => True
  | seen u p => (∃ x, (i, x) ∈ log) ∧ ∀ j, Before log i j u → ∃ row, Since log j u row ∧ p row
  | held u row => (∀ j, Before log i j u → Since log j u row) ∧
      ∃ l x l', log = l ++ [(i, x)] ++ l' ∧ (∀ y ∈ l', y.1 ≠ i) ∧
        ∀ j z, (j, z) ∈ l ++ [(i, x)] → (changedTo u z).isSome = true → Since log j u row
  | missing u => (∃ x, (i, x) ∈ log) ∧ ∀ j, ¬ Before log i j u
  | changed u => ∃ x, (i, x) ∈ log ∧ (changedTo u x).isSome = true
  | applied u => ∃ x, (i, x) ∈ log ∧ invalidates u x = true

/-- What the table and the cache say about the history. -/
structure LevelInv (s : LevelWorker) (log : Log LevelAct) : Prop where
  /-- A user that was changed has had its present row since. -/
  current : ∀ {j x u}, (j, x) ∈ log → (changedTo u x).isSome = true →
    ∃ row, s.users.lookup u = some row ∧ Since log j u row
  /-- A cached level is one the user has had since every change that was applied. -/
  cached : ∀ {u e}, (u, e) ∈ s.cache → ∀ j x, (j, x) ∈ log → invalidates u x = true →
    ∃ row, Since log j u row ∧ row.activeLevel = some e.level
  /-- A request changes a user before it drops the entry. -/
  order : ∀ {l l'}, log = l ++ l' → ∀ {j x u}, (j, x) ∈ l → invalidates u x = true →
    ∃ z, (j, z) ∈ l ∧ (changedTo u z).isSome = true

section

variable {log : Log LevelAct} {s s' : LevelWorker} {i j k : ℕ} {u : UserId} {q : LevelPhase}
  {y : Event LevelAct} {β : Type} {a : LevelAct β} {now : ℕ} {b : β}

/-- What a coroutine knows stays true when another one moves. -/
theorem LevelPhase.Holds.append (hk : k ≠ i) (h : q.Holds i log) : q.Holds i (log ++ [(k, y)]) := by
  cases q with
  | start => trivial
  | seen u p =>
    obtain ⟨⟨x, hx⟩, hj⟩ := h
    refine ⟨⟨x, List.mem_append_left _ hx⟩, fun j hb => ?_⟩
    obtain ⟨row, hrow, hp⟩ := hj j (hb.of_append hx)
    exact ⟨row, hrow.append _, hp⟩
  | held u row =>
    obtain ⟨hj, l, x, l', rfl, hl', hl⟩ := h
    have hx : (i, x) ∈ l ++ [(i, x)] ++ l' := by simp
    refine ⟨fun j hb => (hj j (hb.of_append hx)).append _, l, x, l' ++ [(k, y)], by simp, ?_, ?_⟩
    · intro z hz
      rcases List.mem_append.1 hz with hz | hz
      · exact hl' z hz
      · rw [List.mem_singleton.1 hz]
        exact hk
    · exact fun j z hz hc => (hl j z hz hc).append _
  | missing u =>
    obtain ⟨⟨x, hx⟩, hj⟩ := h
    exact ⟨⟨x, List.mem_append_left _ hx⟩, fun j hb => hj j (hb.of_append hx)⟩
  | changed u =>
    obtain ⟨x, hx, hc⟩ := h
    exact ⟨x, List.mem_append_left _ hx, hc⟩
  | applied u =>
    obtain ⟨x, hx, hc⟩ := h
    exact ⟨x, List.mem_append_left _ hx, hc⟩

theorem LevelInv.order_append (h : LevelInv s log) (hy : ∀ u, invalidates u y = true →
    ∃ z, (i, z) ∈ log ∧ (changedTo u z).isSome = true) {l l' : Log LevelAct}
    (hl : log ++ [(i, y)] = l ++ l') {j : ℕ} {x : Event LevelAct} {u : UserId} (hx : (j, x) ∈ l)
    (hix : invalidates u x = true) : ∃ z, (j, z) ∈ l ∧ (changedTo u z).isSome = true := by
  rcases List.append_eq_append_iff.1 hl with ⟨m, rfl, hm⟩ | ⟨m, hlog, hm⟩
  · rcases List.mem_append.1 hx with hx | hx
    · obtain ⟨z, hz, hcz⟩ := h.order (List.append_nil log).symm hx hix
      exact ⟨z, List.mem_append_left _ hz, hcz⟩
    · have hmem : (j, x) ∈ [(i, y)] := by
        rw [hm]
        exact List.mem_append_left _ hx
      obtain ⟨rfl, rfl⟩ := Prod.mk.inj (List.mem_singleton.1 hmem)
      obtain ⟨z, hz, hcz⟩ := hy u hix
      exact ⟨z, List.mem_append_left _ hz, hcz⟩
  · exact h.order hlog hx hix

/-- An action that neither changes a user nor drops an entry. -/
theorem LevelInv.quiet (h : LevelInv s log) (hu : s'.users = s.users)
    (hc : ∀ u e, (u, e) ∈ s'.cache → (u, e) ∈ s.cache ∨ ∀ j x, (j, x) ∈ log →
      invalidates u x = true → ∃ row, Since log j u row ∧ row.activeLevel = some e.level)
    (hchg : ∀ u, changedTo u y = none) (hinv : ∀ u, invalidates u y = false) :
    LevelInv s' (log ++ [(i, y)]) where
  current {j x u} hx hcx := by
    rcases List.mem_append.1 hx with hx | hx
    · obtain ⟨row, hrow, hs⟩ := h.current hx hcx
      exact ⟨row, hu ▸ hrow, hs.append _⟩
    · obtain ⟨-, rfl⟩ := Prod.mk.inj (List.mem_singleton.1 hx)
      rw [hchg] at hcx
      exact absurd hcx (by simp)
  cached {u e} he j x hx hix := by
    rcases List.mem_append.1 hx with hx | hx
    · rcases hc u e he with hold | hnew
      · obtain ⟨row, hs, hl⟩ := h.cached hold j x hx hix
        exact ⟨row, hs.append _, hl⟩
      · obtain ⟨row, hs, hl⟩ := hnew j x hx hix
        exact ⟨row, hs.append _, hl⟩
    · obtain ⟨-, rfl⟩ := Prod.mk.inj (List.mem_singleton.1 hx)
      rw [hinv] at hix
      exact absurd hix (by simp)
  order := h.order_append fun u hu => absurd hu (by simp [hinv u])

theorem LevelInv.change {c : UserChange} {row : UserRow} (h : LevelInv s log)
    (hrow : s.users.lookup u = some row) :
    LevelInv { s with users := s.users.insert u (c.apply now row) }
      (log ++ [(i, ⟨.change u c, some (row, c.apply now row)⟩)]) where
  current {j x v} hx hcx := by
    by_cases hv : v = u
    · subst hv
      exact ⟨c.apply now row, AList.lookup_insert _, .changed (by simp [changedTo]) hx hcx⟩
    · rcases List.mem_append.1 hx with hx | hx
      · obtain ⟨r, hr, hs⟩ := h.current hx hcx
        exact ⟨r, (AList.lookup_insert_ne hv).trans hr, hs.append _⟩
      · obtain ⟨-, rfl⟩ := Prod.mk.inj (List.mem_singleton.1 hx)
        exact absurd hcx (by simp [changedTo, Ne.symm hv])
  cached {v e} he j x hx hix := by
    rcases List.mem_append.1 hx with hx | hx
    · obtain ⟨r, hs, hl⟩ := h.cached he j x hx hix
      exact ⟨r, hs.append _, hl⟩
    · obtain ⟨-, rfl⟩ := Prod.mk.inj (List.mem_singleton.1 hx)
      exact absurd hix (by simp [invalidates])
  order := h.order_append fun v hv => absurd hv (by simp [invalidates])

theorem LevelInv.invalidate (h : LevelInv s log)
    (hi : ∃ x, (i, x) ∈ log ∧ (changedTo u x).isSome = true) :
    LevelInv { s with cache := s.cache.pop u } (log ++ [(i, ⟨.invalidate u, ()⟩)]) where
  current {j x v} hx hcx := by
    rcases List.mem_append.1 hx with hx | hx
    · obtain ⟨r, hr, hs⟩ := h.current hx hcx
      exact ⟨r, hr, hs.append _⟩
    · obtain ⟨-, rfl⟩ := Prod.mk.inj (List.mem_singleton.1 hx)
      exact absurd hcx (by simp [changedTo])
  cached {v e} he j x hx hix := by
    obtain ⟨hold, hv⟩ := LevelCache.mem_pop.1 he
    rcases List.mem_append.1 hx with hx | hx
    · obtain ⟨r, hs, hl⟩ := h.cached hold j x hx hix
      exact ⟨r, hs.append _, hl⟩
    · obtain ⟨-, rfl⟩ := Prod.mk.inj (List.mem_singleton.1 hx)
      exact absurd hix (by simp [invalidates, Ne.symm hv])
  order := h.order_append fun v hv => by
    obtain rfl : u = v := by simpa [invalidates] using hv
    exact hi

/-- What was read before an applied change is not filled in after it. -/
theorem LevelInv.fill {row : UserRow} {e : LevelEntry} (h : LevelInv s log)
    (hq : (LevelPhase.held u row).Holds i log) (hl : row.activeLevel = some e.level)
    (hg : overtaken log i u = false) :
    LevelInv { s with cache := (s.cache.set u e).trim } (log ++ [(i, ⟨.fill u e, ()⟩)]) := by
  have hchg : ∀ v, changedTo v ⟨.fill u e, ()⟩ = none := fun v => rfl
  have hinv : ∀ v, invalidates v ⟨.fill u e, ()⟩ = false := fun v => rfl
  refine h.quiet rfl (fun v e' he => ?_) hchg hinv
  dsimp only at he
  rcases LevelCache.mem_set.1 (LevelCache.mem_of_trim he) with ⟨hold, -⟩ | ⟨rfl, rfl⟩
  · exact .inl hold
  · refine .inr fun j x hx hix => ⟨row, ?_, hl⟩
    obtain ⟨-, l, z, l', rfl, hl', hbefore⟩ := hq
    rcases List.mem_append.1 hx with hx | hx
    · -- applied before the read, so changed before the read
      obtain ⟨w, hw, hcw⟩ := h.order rfl hx hix
      exact hbefore j w hw hcw
    · -- applied since the read: the guard says that the change came before it
      obtain ⟨w, hw, hcw⟩ := h.order (List.append_nil _).symm (List.mem_append_right _ hx) hix
      rcases List.mem_append.1 hw with hw | hw
      · exact hbefore j w hw hcw
      · have hsince : (l ++ [(i, z)] ++ l').rtakeWhile (fun y => decide (y.1 ≠ i)) = l' := by
          refine rtakeWhile_after ?_ fun y hy => decide_eq_true (hl' y hy)
          exact decide_eq_false (not_not.2 rfl)
        rw [overtaken, hsince] at hg
        refine absurd (List.any_eq_true.2 ⟨_, hw, ?_⟩) (Bool.eq_false_iff.1 hg)
        rw [Bool.and_eq_true, List.any_eq_true]
        exact ⟨hcw, _, hx, by simp [hix]⟩

theorem LevelInv.exec (h : LevelInv s log) (hq : q.Holds i log) (hok : q.ok a)
    (hg : fillsFresh log i a = true) (he : a.exec now s = some (s', b)) :
    LevelInv s' (log ++ [(i, ⟨a, b⟩)]) := by
  cases a with
  | peek u =>
    obtain ⟨rfl, -⟩ := Prod.mk.inj (Option.some.inj he)
    exact h.quiet rfl (fun _ _ => .inl) (fun _ => rfl) fun _ => rfl
  | cached u =>
    simp only [LevelAct.exec] at he
    split at he
    · obtain ⟨rfl, -⟩ := Prod.mk.inj (Option.some.inj he)
      exact h.quiet rfl (fun _ _ h => .inl (LevelCache.mem_of_touch h)) (fun _ => rfl) fun _ => rfl
    · obtain ⟨rfl, -⟩ := Prod.mk.inj (Option.some.inj he)
      exact h.quiet rfl (fun _ _ => .inl) (fun _ => rfl) fun _ => rfl
  | readUser u =>
    obtain ⟨rfl, -⟩ := Prod.mk.inj (Option.some.inj he)
    exact h.quiet rfl (fun _ _ => .inl) (fun _ => rfl) fun _ => rfl
  | fill u e =>
    obtain ⟨rfl, -⟩ := Prod.mk.inj (Option.some.inj he)
    obtain ⟨row, rfl, hl⟩ := hok
    exact h.fill hq hl (by simpa [fillsFresh] using hg)
  | change u c =>
    simp only [LevelAct.exec] at he
    cases hrow : s.users.lookup u with
    | none =>
      rw [hrow] at he
      obtain ⟨rfl, rfl⟩ := Prod.mk.inj (Option.some.inj he)
      exact h.quiet rfl (fun _ _ => .inl) (fun _ => rfl) fun _ => rfl
    | some row =>
      rw [hrow] at he
      obtain ⟨rfl, rfl⟩ := Prod.mk.inj (Option.some.inj he)
      exact h.change hrow
  | invalidate u =>
    obtain ⟨rfl, -⟩ := Prod.mk.inj (Option.some.inj he)
    obtain rfl : q = .changed u := hok
    exact h.invalidate hq

/-- A cached level is one that the user has had since every change applied so far. -/
theorem LevelInv.of_fresh {l : String} (h : LevelInv s log) (hf : s.cache.fresh u now = some l)
    (hb : Before log i j u) : ∃ row, Since log j u row ∧ row.activeLevel = some l := by
  obtain ⟨e, he, rfl⟩ := LevelCache.mem_of_fresh hf
  obtain ⟨x, hx, hix⟩ := mem_of_before hb
  exact h.cached he j x hx hix

/-- A row that is read is one that the user has had since every change so far. -/
theorem LevelInv.of_before (h : LevelInv s log) (hb : Before log i j u) :
    ∃ row, s.users.lookup u = some row ∧ Since log j u row := by
  obtain ⟨x, hx, hix⟩ := mem_of_before hb
  obtain ⟨z, hz, hcz⟩ := h.order (List.append_nil log).symm hx hix
  exact h.current hz hcz

/-- What happened before coroutine `i` moved happened before its new action. -/
theorem Before.of_own {x : Event LevelAct} (h : Before (log ++ [(i, x)]) i j u) : Before log i j u := by
  obtain ⟨l₁, l₂, z, hl, hz, hinv, hno⟩ := h
  rcases List.append_eq_append_iff.1 hl with ⟨l, rfl, hl₂⟩ | ⟨l, rfl, hl₂⟩
  · cases l with
    | nil => exact ⟨log, [], z, by simp, by simpa using hz, hinv, by simpa using hno⟩
    | cons w l =>
      obtain ⟨rfl, -⟩ := List.cons_eq_cons.1 hl₂
      exact absurd rfl (hno (i, x) (by simp))
  · exact ⟨l₁, l, z, rfl, hz, hinv, hno⟩

theorem LevelPhase.Holds.of_seen {p : UserRow → Prop}
    (h : ∀ j, Before log i j u → ∃ row, Since log j u row ∧ p row) :
    (LevelPhase.seen u p).Holds i (log ++ [(i, y)]) := by
  refine ⟨⟨y, by simp⟩, fun j hb => ?_⟩
  obtain ⟨row, hrow, hp⟩ := h j hb.of_own
  exact ⟨row, hrow.append _, hp⟩

/-- What is learned is true. -/
theorem LevelPhase.Holds.next (h : LevelInv s log) (hq : q.Holds i log) (hok : q.ok a)
    (he : a.exec now s = some (s', b)) : (q.next a b).Holds i (log ++ [(i, ⟨a, b⟩)]) := by
  cases a with
  | peek u =>
    obtain rfl : q = .start := hok
    obtain ⟨-, rfl⟩ := Prod.mk.inj (Option.some.inj he)
    cases hl : (if u = "" then none else s.cache.fresh u now) with
    | none => trivial
    | some l =>
      split_ifs at hl
      exact .of_seen fun j hb => h.of_fresh hl hb
  | cached u =>
    obtain rfl : q = .start := hok
    simp only [LevelAct.exec] at he
    cases hl : s.cache.fresh u now with
    | none =>
      rw [hl] at he
      obtain ⟨-, rfl⟩ := Prod.mk.inj (Option.some.inj he)
      trivial
    | some l =>
      rw [hl] at he
      obtain ⟨-, rfl⟩ := Prod.mk.inj (Option.some.inj he)
      exact .of_seen fun j hb => h.of_fresh hl hb
  | readUser u =>
    obtain rfl : q = .start := hok
    obtain ⟨rfl, rfl⟩ := Prod.mk.inj (Option.some.inj he)
    cases hr : s.users.lookup u with
    | none =>
      refine ⟨⟨⟨.readUser u, none⟩, by simp⟩, fun j hb => ?_⟩
      obtain ⟨row, hrow, -⟩ := h.of_before hb.of_own
      rw [hr] at hrow
      exact absurd hrow (by simp)
    | some row =>
      have hsince : ∀ j z, (j, z) ∈ log → (changedTo u z).isSome = true → Since log j u row := by
        intro j z hz hcz
        obtain ⟨r, hr', hs⟩ := h.current hz hcz
        rw [hr] at hr'
        exact Option.some.inj hr' ▸ hs
      refine ⟨fun j hb => ?_, log, ⟨.readUser u, some row⟩, [], by simp, by simp, ?_⟩
      · obtain ⟨r, hr', hs⟩ := h.of_before hb.of_own
        rw [hr] at hr'
        exact Option.some.inj hr' ▸ hs.append _
      · intro j z hz hcz
        rcases List.mem_append.1 hz with hz | hz
        · exact (hsince j z hz hcz).append _
        · obtain ⟨-, rfl⟩ := Prod.mk.inj (List.mem_singleton.1 hz)
          exact absurd hcz (by simp [changedTo])
  | fill u e =>
    obtain ⟨row, rfl, -⟩ := hok
    exact .of_seen fun j hb => ⟨row, hq.1 j hb, rfl⟩
  | change u c =>
    obtain rfl : q = .start := hok
    simp only [LevelAct.exec] at he
    cases hrow : s.users.lookup u with
    | none =>
      rw [hrow] at he
      obtain ⟨-, rfl⟩ := Prod.mk.inj (Option.some.inj he)
      trivial
    | some row =>
      rw [hrow] at he
      obtain ⟨-, rfl⟩ := Prod.mk.inj (Option.some.inj he)
      exact ⟨⟨.change u c, some (row, c.apply now row)⟩, by simp, by simp [changedTo]⟩
  | invalidate u => exact ⟨⟨.invalidate u, b⟩, by simp, by simp [invalidates]⟩

theorem sound_levelWork (users : Table UserId UserRow) :
    Sound levelWorker freshFills levelWork (fun _ => .start) { users }
      (fun s log => LevelInv s log) (fun i _ q _ log => q.Holds i log) where
  init := by
    refine ⟨fun h => absurd h (by simp), fun h => absurd h (by simp), fun hl _ _ _ hx => ?_⟩
    obtain ⟨rfl, -⟩ := List.append_eq_nil_iff.1 hl.symm
    exact absurd hx (by simp)
  start _ _ _ := trivial
  step _ _ hg he hinv hq hok := ⟨trivial, hinv.exec hq hok hg he, hq.next hinv hok he⟩
  frame _ _ _ _ _ _ _ _ _ _ hj hq' := hq'.append (Ne.symm hj)

variable {P P' : Pool LevelAct LevelWorker LevelCall LevelRet} {users : Table UserId UserRow}
  {c c' : LevelCall} {g : ℕ} {r : LevelRet}

/-- **No check that begins after a change was applied uses what the user was before**: it answers by
a row that the user has had since the change, as long as no look-up is overtaken between its read
and its write. -/
theorem level_current (h : Run levelWorker freshFills (.init { users }) P)
    (hj : P.threads[j]? = some ⟨c, .ret .changed⟩) (hc : c.target = some u)
    (h' : Run levelWorker freshFills P P') (hg : P.threads.length ≤ g)
    (hr : P'.threads[g]? = some ⟨c', .ret r⟩) (hc' : c'.user = some u) :
    ∃ row, Since P'.log j u row ∧ c'.Fits r row := by
  obtain ⟨hinv, hthreads⟩ := (sound_levelWork users).of_run levelWork_body (h.trans h')
  -- the change was applied before the check began
  have hbefore : Before P'.log g j u := by
    obtain ⟨q, hq, hfin⟩ := ((sound_levelWork users).of_run levelWork_body h).2 j _ hj
    obtain rfl := hfin.1 u hc rfl
    obtain ⟨x, hx, hix⟩ := hq
    obtain ⟨l, hl⟩ := h'.log_append
    refine ⟨P.log, l, x, hl, hx, hix, fun y hy => ?_⟩
    have hlt := h.log_lt y hy
    omega
  obtain ⟨q, hq, hfin⟩ := hthreads g _ hr
  rcases hfin.2 u hc' with (⟨p, rfl, hp⟩ | ⟨row, rfl, hrow⟩ | rfl) | hall
  · obtain ⟨row, hs, hpr⟩ := hq.2 j hbefore
    exact ⟨row, hs, hp row hpr⟩
  · exact ⟨row, hq.1 j hbefore, hrow⟩
  · exact absurd hbefore (hq.2 j)
  · obtain ⟨row, -, hs⟩ := hinv.of_before hbefore
    exact ⟨row, hs, hall row⟩

end

/-- What a request has returned. -/
def answered : LevelProg LevelRet → Option LevelRet
  | .ret r => some r
  | _ => none

theorem answered_eq_some {p : LevelProg LevelRet} {r : LevelRet} (h : answered p = some r) :
    p = .ret r := by
  unfold answered at h
  split at h
  · rw [Option.some.inj h]
  · exact absurd h (by simp)

/-- A user `u` who is an admin. -/
def Sample.admins : Table UserId UserRow := AList.insert "u" ⟨"u", "admin", none, none⟩ ∅

/-- `u` is demoted (coroutine `0`). -/
def Sample.demoted : List (Move ℕ LevelCall) :=
  [.start (.update "u" (some "tier1") none), .step 0 1, .step 0 1]

/-- The admission that comes next (coroutine `1`) uses the new level. -/
theorem level_current_admission : ∃ P P' row,
    levelWorker.run (fun P i _ a _ => fillsFresh P.log i a) (.init { users := Sample.admins })
      Sample.demoted = some P ∧
    levelWorker.run (fun P i _ a _ => fillsFresh P.log i a) P
      ([.start (.admission "u")] ++ List.replicate 4 (.step 1 2)) = some P' ∧
    Since P'.log 0 "u" row ∧ (LevelCall.admission "u").Fits (.level (some "tier1")) row := by
  have hplay : ((levelWorker.run (fun P i _ a _ => fillsFresh P.log i a)
      (.init { users := Sample.admins }) Sample.demoted).bind fun P =>
        (levelWorker.run (fun P i _ a _ => fillsFresh P.log i a) P
          ([.start (.admission "u")] ++ List.replicate 4 (.step 1 2))).bind fun P' =>
        P.threads[0]?.bind fun th => P'.threads[1]?.map fun th' =>
          (P.threads.length, th.call, answered th.prog, th'.call, answered th'.prog)) =
      some (1, .update "u" (some "tier1") none, some .changed, .admission "u",
        some (.level (some "tier1"))) := by
    decide +kernel
  obtain ⟨P, hP, h⟩ := Option.bind_eq_some_iff.1 hplay
  obtain ⟨P', hP', h⟩ := Option.bind_eq_some_iff.1 h
  obtain ⟨⟨c, p⟩, hth, h⟩ := Option.bind_eq_some_iff.1 h
  obtain ⟨⟨c', p'⟩, hth', h⟩ := Option.map_eq_some_iff.1 h
  simp only [Prod.mk.injEq] at h
  obtain ⟨hlen, rfl, hp, rfl, hp'⟩ := h
  obtain rfl := answered_eq_some hp
  obtain rfl := answered_eq_some hp'
  have hrun : Run levelWorker freshFills (.init { users := Sample.admins }) P :=
    Run.of_run (fun _ _ => trivial) (fun _ _ _ _ _ hc => hc) hP
  have hrun' : Run levelWorker freshFills P P' :=
    Run.of_run (fun _ _ => trivial) (fun _ _ _ _ _ hc => hc) hP'
  obtain ⟨row, hs, hf⟩ := level_current hrun hth rfl hrun' hlen.le hth' rfl
  exact ⟨P, P', row, hP, hP', hs, hf⟩

/-- What was asked of a check: the level it uses is that of the user, who is active. -/
def LevelRet.Uses (r : LevelRet) (row : UserRow) : Prop :=
  match r with
  | level (some l) => row.activeLevel = some l
  | principal (some (_, l)) => row.activeLevel = some l
  | _ => True

/-- The authentication that comes next uses the level of its token. -/
theorem level_of_token : ¬ ∀ (users : Table UserId UserRow)
    (P P' : Pool LevelAct LevelWorker LevelCall LevelRet) (j g : ℕ) (u : UserId) (c c' : LevelCall)
    (r : LevelRet), Run levelWorker .free (.init { users }) P →
    P.threads[j]? = some ⟨c, .ret .changed⟩ → c.target = some u → Run levelWorker .free P P' →
    P.threads.length ≤ g → P'.threads[g]? = some ⟨c', .ret r⟩ → c'.user = some u →
    ∃ row, Since P'.log j u row ∧ r.Uses row := by
  intro hall
  have hplay : ((levelWorker.run (fun _ _ _ _ _ => true) (.init { users := Sample.admins })
      Sample.demoted).bind fun P =>
        (levelWorker.run (fun _ _ _ _ _ => true) P
          [.start (.authenticate "u" "admin"), .step 1 2, .step 1 2]).bind fun P' =>
        P.threads[0]?.bind fun th => P'.threads[1]?.map fun th' =>
          ((P.threads.length, P'.log.filterMap fun y => changedTo "u" y.2),
            th.call, answered th.prog, th'.call, answered th'.prog)) =
      some ((1, [⟨"u", "tier1", none, none⟩]), .update "u" (some "tier1") none, some .changed,
        .authenticate "u" "admin", some (.principal (some ("u", "admin")))) := by
    decide +kernel
  obtain ⟨P, hP, h⟩ := Option.bind_eq_some_iff.1 hplay
  obtain ⟨P', hP', h⟩ := Option.bind_eq_some_iff.1 h
  obtain ⟨⟨c, p⟩, hth, h⟩ := Option.bind_eq_some_iff.1 h
  obtain ⟨⟨c', p'⟩, hth', h⟩ := Option.map_eq_some_iff.1 h
  simp only [Prod.mk.injEq] at h
  obtain ⟨⟨hlen, hrows⟩, rfl, hp, rfl, hp'⟩ := h
  obtain rfl := answered_eq_some hp
  obtain rfl := answered_eq_some hp'
  obtain ⟨row, ⟨l₁, x, l₂, hl, -, hrow⟩, huse⟩ := hall Sample.admins P P' 0 1 "u" _ _ _
    (Run.of_run (fun _ _ => trivial) (fun _ _ _ _ _ _ => trivial) hP) hth rfl
    (Run.of_run (fun _ _ => trivial) (fun _ _ _ _ _ _ => trivial) hP') hlen.le hth' rfl
  -- the only row that `u` has been given is that of a `tier1` user
  have hmem : row ∈ P'.log.filterMap fun y => changedTo "u" y.2 := by
    rw [hl, List.filterMap_append]
    exact List.mem_append_right _ hrow
  rw [hrows, List.mem_singleton] at hmem
  rw [hmem] at huse
  exact absurd (Option.some.inj huse) (by decide)

end Backplane
