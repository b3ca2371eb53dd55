import Backplane.Protocol.Types
import Mathlib.Data.List.Sort
import Mathlib.Data.Prod.Lex

/-!
# Reaping what the router has purged

The suite looks at the first page of its sessions, and of its users, asks the router which of them
are gone, and deletes what it has of those.

* `SuiteRow`, `SuiteStore` : the tables of the suite.
* `reconcileClosedSessions`, `reconcilePurgedUsers` : the two passes.
* `Complete`, `Safe` : a pass that removes nothing leaves nothing, and nothing is removed of what
  the router still has.
* `Seen` : where something is left, something that is gone is on the page.
* `reaping_iff` : the passes are complete and safe if and only if that is so.
-/

namespace Backplane.Suite

/-! ### The store -/

/-- A row of the suite. -/
inductive SuiteRow
  | sessionInfo (sessionId : SessionId) (userId : UserId) (createdAt : ℕ)
  | sessionHistory (sessionId : SessionId) (createdAt : ℕ)
  | cronJob (sessionId : SessionId) (userId : UserId) (createdAt : ℕ)
  | cronExecution (sessionId : SessionId) (userId : UserId) (firedAt : ℕ)
  /-- `suite_platform_mappings` -/
  | platformMapping (userId : UserId)
  | userConfig (userId : UserId)
  deriving DecidableEq

namespace SuiteRow

/-- Its session, and its age. -/
def session : SuiteRow → Option (SessionId × ℕ)
  | sessionInfo sid _ createdAt | sessionHistory sid createdAt | cronJob sid _ createdAt =>
    some (sid, createdAt)
  | cronExecution sid _ firedAt => some (sid, firedAt)
  | platformMapping _ | userConfig _ => none

/-- `user_id` -/
def userId : SuiteRow → Option UserId
  | sessionInfo _ uid _ | cronJob _ uid _ | cronExecution _ uid _ | platformMapping uid
  | userConfig uid => some uid
  | sessionHistory _ _ => none

/-- `purge_session_suite_data` deletes it. -/
def goesWithSession (sid : SessionId) : SuiteRow → Bool
  | sessionInfo s _ _ | sessionHistory s _ | cronJob s _ _ => s = sid
  | _ => false

end SuiteRow

/-- The rows, and the users who have a LanceDB. -/
structure SuiteStore where
  rows : List SuiteRow := []
  /-- The users with a LanceDB. -/
  lance : List UserId := []

/-- What the router has. -/
structure RouterRecords where
  sessions : List SessionId
  /-- The users with a `purged_at`. -/
  purged : List UserId

namespace SuiteStore

variable (s : SuiteStore)

/-- The user's sessions. -/
def sessionsOf (uid : UserId) : List SessionId :=
  s.rows.filterMap fun
    | .sessionInfo sid u _ => if u = uid then some sid else none
    | _ => none

/-- `purge_session_suite_data` -/
def purgeSession (sid : SessionId) : SuiteStore :=
  { s with rows := s.rows.filter fun r => !r.goesWithSession sid }

/-- `purge_user_suite_data` deletes the row. -/
def goesWithUser (uid : UserId) : SuiteRow → Bool
  | .sessionHistory sid _ => sid ∈ s.sessionsOf uid
  | r => r.userId = some uid

/-- `purge_user_suite_data` -/
def purgeUser (uid : UserId) : SuiteStore :=
  { s with rows := s.rows.filter fun r => !s.goesWithUser uid r }

/-- `session_info`, created before this, oldest first; those of one time come in any order. -/
def oldSessions (tie : SessionId → ℕ) (before : ℕ) : List SessionId :=
  ((s.rows.filterMap fun
    | .sessionInfo sid _ createdAt => if createdAt < before then some (sid, createdAt) else none
    | _ => none).insertionSort fun x y => toLex (x.2, tie x.1) ≤ toLex (y.2, tie y.1)).map Prod.fst

/-- `list_old_session_ids` -/
def listOldSessionIds (tie : SessionId → ℕ) (before limit : ℕ) : List SessionId :=
  (s.oldSessions tie before).take limit

/-- `user_config`, in the order of the collation. -/
def configs (collation : UserId → ℕ) : List UserId :=
  (s.rows.filterMap fun
    | .userConfig uid => some uid
    | _ => none).insertionSort fun x y => collation x ≤ collation y

/-- `list_user_config_ids` -/
def listUserConfigIds (collation : UserId → ℕ) (limit : ℕ) : List UserId :=
  (s.configs collation).take limit

/-! ### The passes -/

/-- What becomes of the calls of a pass. -/
structure Outcome where
  answers : Bool := true
  /-- `purge_lance`, of this user. -/
  lance : UserId → Bool := fun _ => true
  /-- The transaction of this session or user is committed. -/
  commits : String → Bool := fun _ => true

/-- The loop of `reconcile_closed_sessions`; `none`: it raises. -/
def reapSessions (o : Outcome) : List SessionId → SuiteStore → ℕ → SuiteStore × Option ℕ
  | [], s, reaped => (s, some reaped)
  | sid :: sids, s, reaped =>
    if o.commits sid then reapSessions o sids (s.purgeSession sid) (reaped + 1) else (s, none)

/-- `reconcile_closed_sessions` -/
def reconcileClosedSessions (r : RouterRecords) (tie : SessionId → ℕ) (cutoff batch : ℕ)
    (o : Outcome) : SuiteStore × Option ℕ :=
  let ids := s.listOldSessionIds tie cutoff batch
  if ids = [] then (s, some 0)
  else if o.answers then reapSessions o (ids.filter (· ∉ r.sessions)) s 0
  else (s, none)

/-- The loop of `reconcile_purged_users`; `none`: it raises. -/
def eraseUsers (o : Outcome) : List UserId → SuiteStore → ℕ → SuiteStore × Option ℕ
  | [], s, erased => (s, some erased)
  | uid :: uids, s, erased =>
    if o.lance uid then
      let s := { s with lance := s.lance.filter (· ≠ uid) }
      if o.commits uid then eraseUsers o uids (s.purgeUser uid) (erased + 1) else (s, none)
    else eraseUsers o uids s erased

/-- `reconcile_purged_users` -/
def reconcilePurgedUsers (r : RouterRecords) (collation : UserId → ℕ) (batch : ℕ) (o : Outcome) :
    SuiteStore × Option ℕ :=
  let ids := s.listUserConfigIds collation batch
  if ids = [] then (s, some 0)
  else if o.answers then eraseUsers o (ids.filter (· ∈ r.purged)) s 0
  else (s, none)

/-- The `batch` of sessions. -/
def sessionBatch : ℕ := 200

/-- The `batch` of users. -/
def userBatch : ℕ := 500

/-! ### What is claimed -/

/-- Nothing that is older than this is left of a session that the router does not have. -/
def SessionsClean (r : RouterRecords) (cutoff : ℕ) : Prop :=
  ∀ row ∈ s.rows, ∀ sid createdAt, row.session = some (sid, createdAt) → createdAt < cutoff →
    sid ∈ r.sessions

/-- Nothing is left of a user who is purged. -/
def UsersClean (r : RouterRecords) : Prop :=
  (∀ row ∈ s.rows, ∀ uid, row.userId = some uid → uid ∉ r.purged) ∧
    ∀ uid ∈ s.lance, uid ∉ r.purged

/-- A pass that succeeds and removes nothing leaves nothing of what is purged. -/
structure Complete (r : RouterRecords) (tie : SessionId → ℕ) (collation : UserId → ℕ)
    (cutoff : ℕ) : Prop where
  /-- The pass over sessions. -/
  sessions : (s.reconcileClosedSessions r tie cutoff sessionBatch {}).2 = some 0 →
    s.SessionsClean r cutoff
  users : (s.reconcilePurgedUsers r collation userBatch {}).2 = some 0 → s.UsersClean r

/-- The row is of a session that the router does not have, or of a user who is purged. -/
def Purged (r : RouterRecords) (row : SuiteRow) : Prop :=
  (∃ sid createdAt, row.session = some (sid, createdAt) ∧ sid ∉ r.sessions) ∨
    ∃ uid ∈ r.purged, s.goesWithUser uid row = true

/-- Whatever becomes of its calls, a pass removes only what is purged. -/
structure Safe (r : RouterRecords) (tie : SessionId → ℕ) (collation : UserId → ℕ)
    (cutoff : ℕ) : Prop where
  /-- The pass over sessions. -/
  sessions : ∀ o, ∀ row ∈ s.rows,
    row ∉ (s.reconcileClosedSessions r tie cutoff sessionBatch o).1.rows → s.Purged r row
  /-- It leaves the databases alone. -/
  lance : ∀ o, (s.reconcileClosedSessions r tie cutoff sessionBatch o).1.lance = s.lance
  users : ∀ o, ∀ row ∈ s.rows,
    row ∉ (s.reconcilePurgedUsers r collation userBatch o).1.rows → s.Purged r row
  userLance : ∀ o, ∀ uid ∈ s.lance,
    uid ∉ (s.reconcilePurgedUsers r collation userBatch o).1.lance → uid ∈ r.purged

/-- Where something is left that is purged, the page has something that is purged: it is in the
table that is listed, and fewer than a page of what the router still has come before it. -/
structure Seen (r : RouterRecords) (tie : SessionId → ℕ) (collation : UserId → ℕ)
    (cutoff : ℕ) : Prop where
  sessions : ¬ s.SessionsClean r cutoff → (∃ sid ∈ s.oldSessions tie cutoff, sid ∉ r.sessions) ∧
    ((s.oldSessions tie cutoff).takeWhile (· ∈ r.sessions)).length < sessionBatch
  users : ¬ s.UsersClean r → (∃ uid ∈ s.configs collation, uid ∈ r.purged) ∧
    ((s.configs collation).takeWhile (· ∉ r.purged)).length < userBatch

variable {s} {r : RouterRecords} {tie : SessionId → ℕ} {collation : UserId → ℕ} {cutoff : ℕ}
  {o : Outcome}

/-! ### Pages -/

/-- A page has only what is live, unless something else comes before its end. -/
theorem forall_mem_take_iff {α : Type} {p : α → Bool} {l : List α} {n : ℕ} :
    (∀ x ∈ l.take n, p x = true) ↔
      ¬ ((∃ x ∈ l, p x = false) ∧ (l.takeWhile p).length < n) := by
  induction l generalizing n with
  | nil => simp
  | cons x l ih =>
    cases n with
    | zero => simp
    | succ n =>
      cases hx : p x with
      | false => simp [hx]
      | true =>
        rw [List.take_succ_cons, List.forall_mem_cons, ih, List.takeWhile_cons_of_pos hx,
          List.length_cons, Nat.succ_lt_succ_iff]
        simp [hx]

/-! ### What a pass removes -/

theorem reapSessions_length (sids : List SessionId) (s : SuiteStore) (n : ℕ) :
    (reapSessions {} sids s n).2 = some (n + sids.length) := by
  induction sids generalizing s n with
  | nil => rfl
  | cons sid sids ih =>
    rw [reapSessions, if_pos rfl, ih, List.length_cons, Nat.add_assoc, Nat.add_comm 1]

theorem eraseUsers_length (uids : List UserId) (s : SuiteStore) (n : ℕ) :
    (eraseUsers {} uids s n).2 = some (n + uids.length) := by
  induction uids generalizing s n with
  | nil => rfl
  | cons uid uids ih =>
    rw [eraseUsers, if_pos rfl]
    dsimp only
    rw [if_pos rfl, ih, List.length_cons, Nat.add_assoc, Nat.add_comm 1]

/-- A pass removes nothing if the router has the sessions of the page. -/
theorem reconcileClosedSessions_eq_zero {batch : ℕ} :
    (s.reconcileClosedSessions r tie cutoff batch {}).2 = some 0 ↔
      ∀ sid ∈ (s.oldSessions tie cutoff).take batch, decide (sid ∈ r.sessions) = true := by
  rw [reconcileClosedSessions, listOldSessionIds]
  by_cases hempty : (s.oldSessions tie cutoff).take batch = []
  · simp [hempty]
  · rw [if_neg hempty, if_pos rfl, reapSessions_length, Option.some.injEq, Nat.zero_add,
      List.length_eq_zero_iff, List.filter_eq_nil_iff]
    simp

theorem reconcilePurgedUsers_eq_zero {batch : ℕ} :
    (s.reconcilePurgedUsers r collation batch {}).2 = some 0 ↔
      ∀ uid ∈ (s.configs collation).take batch, decide (uid ∉ r.purged) = true := by
  rw [reconcilePurgedUsers, listUserConfigIds]
  by_cases hempty : (s.configs collation).take batch = []
  · simp [hempty]
  · rw [if_neg hempty, if_pos rfl, eraseUsers_length, Option.some.injEq, Nat.zero_add,
      List.length_eq_zero_iff, List.filter_eq_nil_iff]
    simp

/-- The row goes with one of the sessions that are reaped. -/
theorem session_of_reapSessions {sids : List SessionId} {n : ℕ} {row : SuiteRow}
    (hrow : row ∈ s.rows) (hgone : row ∉ (reapSessions o sids s n).1.rows) :
    ∃ sid ∈ sids, row.goesWithSession sid = true := by
  induction sids generalizing s n with
  | nil => exact absurd hrow hgone
  | cons sid sids ih =>
    rw [reapSessions] at hgone
    split_ifs at hgone
    · by_cases hgoes : row.goesWithSession sid = true
      · exact ⟨sid, List.mem_cons_self, hgoes⟩
      · have hkept : row ∈ (s.purgeSession sid).rows :=
          List.mem_filter.2 ⟨hrow, by simpa using hgoes⟩
        obtain ⟨sid', hsid', hgoes'⟩ := ih hkept hgone
        exact ⟨sid', List.mem_cons_of_mem _ hsid', hgoes'⟩
    · exact absurd hrow hgone

theorem lance_reapSessions {sids : List SessionId} {n : ℕ} :
    (reapSessions o sids s n).1.lance = s.lance := by
  induction sids generalizing s n with
  | nil => rfl
  | cons sid sids ih =>
    rw [reapSessions]
    split_ifs
    · exact ih
    · rfl

/-- A user of a smaller store is one of the store. -/
theorem goesWithUser_mono {s' : SuiteStore} {uid : UserId} {row : SuiteRow}
    (hsub : ∀ row ∈ s'.rows, row ∈ s.rows) (h : s'.goesWithUser uid row = true) :
    s.goesWithUser uid row = true := by
  cases row with
  | sessionHistory sid createdAt =>
    have hmem : sid ∈ s'.sessionsOf uid := of_decide_eq_true h
    obtain ⟨row, hrow, heq⟩ := List.mem_filterMap.1 hmem
    exact decide_eq_true (List.mem_filterMap.2 ⟨row, hsub row hrow, heq⟩)
  | sessionInfo | cronJob | cronExecution | platformMapping | userConfig => exact h

/-- The row goes with one of the users who are erased. -/
theorem user_of_eraseUsers {uids : List UserId} {n : ℕ} {row : SuiteRow}
    (hrow : row ∈ s.rows) (hgone : row ∉ (eraseUsers o uids s n).1.rows) :
    ∃ uid ∈ uids, s.goesWithUser uid row = true := by
  induction uids generalizing s n with
  | nil => exact absurd hrow hgone
  | cons uid uids ih =>
    rw [eraseUsers] at hgone
    dsimp only at hgone
    split_ifs at hgone
    · by_cases hgoes : s.goesWithUser uid row = true
      · exact ⟨uid, List.mem_cons_self, hgoes⟩
      · have hsub : ∀ row ∈ (purgeUser { s with lance := s.lance.filter (· ≠ uid) } uid).rows,
            row ∈ s.rows := fun row hr => (List.mem_filter.1 hr).1
        have hkept : row ∈ (purgeUser { s with lance := s.lance.filter (· ≠ uid) } uid).rows := by
          refine List.mem_filter.2 ⟨hrow, ?_⟩
          change (!s.goesWithUser uid row) = true
          simpa using hgoes
        obtain ⟨uid', huid', hgoes'⟩ := ih hkept hgone
        exact ⟨uid', List.mem_cons_of_mem _ huid', goesWithUser_mono hsub hgoes'⟩
    · exact absurd hrow hgone
    · obtain ⟨uid', huid', hgoes'⟩ := ih hrow hgone
      exact ⟨uid', List.mem_cons_of_mem _ huid', hgoes'⟩

theorem lance_of_eraseUsers {uids : List UserId} {n : ℕ} {uid : UserId} (huid : uid ∈ s.lance)
    (hgone : uid ∉ (eraseUsers o uids s n).1.lance) : uid ∈ uids := by
  induction uids generalizing s n with
  | nil => exact absurd huid hgone
  | cons u uids ih =>
    rw [eraseUsers] at hgone
    dsimp only at hgone
    by_cases heq : uid = u
    · exact heq ▸ List.mem_cons_self
    · have hkept : uid ∈ s.lance.filter (· ≠ u) :=
        List.mem_filter.2 ⟨huid, decide_eq_true heq⟩
      split_ifs at hgone
      · have hkept' : uid ∈ (purgeUser { s with lance := s.lance.filter (· ≠ u) } u).lance := hkept
        exact List.mem_cons_of_mem _ (ih hkept' hgone)
      · exact absurd hkept hgone
      · exact List.mem_cons_of_mem _ (ih huid hgone)

theorem session_of_goesWithSession {sid : SessionId} {row : SuiteRow}
    (h : row.goesWithSession sid = true) : ∃ createdAt, row.session = some (sid, createdAt) := by
  cases row with
  | sessionInfo s _ createdAt | sessionHistory s createdAt | cronJob s _ createdAt =>
    obtain rfl : s = sid := of_decide_eq_true h
    exact ⟨createdAt, rfl⟩
  | cronExecution | platformMapping | userConfig => cases h

/-- **Nothing is removed of what the router still has.** -/
theorem safe (s : SuiteStore) (r : RouterRecords) (tie : SessionId → ℕ) (collation : UserId → ℕ)
    (cutoff : ℕ) : s.Safe r tie collation cutoff where
  sessions o row hrow hgone := by
    rw [reconcileClosedSessions] at hgone
    split_ifs at hgone
    · exact absurd hrow hgone
    · obtain ⟨sid, hsid, hgoes⟩ := session_of_reapSessions hrow hgone
      obtain ⟨createdAt, hsession⟩ := session_of_goesWithSession hgoes
      exact .inl ⟨sid, createdAt, hsession, of_decide_eq_true (List.mem_filter.1 hsid).2⟩
    · exact absurd hrow hgone
  lance o := by
    rw [reconcileClosedSessions]
    split_ifs
    · rfl
    · exact lance_reapSessions
    · rfl
  users o row hrow hgone := by
    rw [reconcilePurgedUsers] at hgone
    split_ifs at hgone
    · exact absurd hrow hgone
    · obtain ⟨uid, huid, hgoes⟩ := user_of_eraseUsers hrow hgone
      exact .inr ⟨uid, of_decide_eq_true (List.mem_filter.1 huid).2, hgoes⟩
    · exact absurd hrow hgone
  userLance o uid huid hgone := by
    rw [reconcilePurgedUsers] at hgone
    split_ifs at hgone
    · exact absurd huid hgone
    · exact of_decide_eq_true (List.mem_filter.1 (lance_of_eraseUsers huid hgone)).2
    · exact absurd huid hgone

end SuiteStore

open SuiteStore

/-- **When reaping is complete.**  A pass that succeeds and removes nothing leaves nothing of what
is purged, and no pass removes what the router still has, if and only if: where something is left
that is purged, the table that is listed has something that is purged, with fewer than a page of
what the router still has before it. -/
theorem reaping_iff (s : SuiteStore) (r : RouterRecords) (tie : SessionId → ℕ)
    (collation : UserId → ℕ) (cutoff : ℕ) :
    s.Complete r tie collation cutoff ∧ s.Safe r tie collation cutoff ↔
      s.Seen r tie collation cutoff := by
  have hsessions : (s.reconcileClosedSessions r tie cutoff sessionBatch {}).2 = some 0 ↔
      ¬ ((∃ sid ∈ s.oldSessions tie cutoff, sid ∉ r.sessions) ∧
        ((s.oldSessions tie cutoff).takeWhile (· ∈ r.sessions)).length < sessionBatch) := by
    rw [reconcileClosedSessions_eq_zero, forall_mem_take_iff]
    simp
  have husers : (s.reconcilePurgedUsers r collation userBatch {}).2 = some 0 ↔
      ¬ ((∃ uid ∈ s.configs collation, uid ∈ r.purged) ∧
        ((s.configs collation).takeWhile (· ∉ r.purged)).length < userBatch) := by
    rw [reconcilePurgedUsers_eq_zero, forall_mem_take_iff]
    simp
  constructor
  · rintro ⟨hcomplete, -⟩
    refine ⟨fun hleft => ?_, fun hleft => ?_⟩
    · by_contra hpage
      exact hleft (hcomplete.sessions (hsessions.2 hpage))
    · by_contra hpage
      exact hleft (hcomplete.users (husers.2 hpage))
  · intro hseen
    refine ⟨⟨fun hzero => ?_, fun hzero => ?_⟩, safe s r tie collation cutoff⟩
    · by_contra hleft
      exact hsessions.1 hzero (hseen.sessions hleft)
    · by_contra hleft
      exact husers.1 hzero (hseen.users hleft)

section

/-- A name of a session. -/
def sessionName (n : ℕ) : SessionId := String.ofList (List.replicate n 's')

/-- Two hundred sessions that are live, and one after them that is purged. -/
def crowdedStore : SuiteStore where
  rows := (List.range 201).map fun n => .sessionInfo (sessionName n) "u" n

/-- The router has the two hundred. -/
def crowdedRouter : RouterRecords := ⟨(List.range 200).map sessionName, []⟩

theorem sessionName_injective : Function.Injective sessionName := by
  intro n m h
  have hlength := congrArg String.length h
  simpa [sessionName] using hlength

/-- The sessions are listed in the order of their numbers. -/
theorem oldSessions_crowdedStore :
    crowdedStore.oldSessions (fun _ => 0) 1000 = (List.range 201).map sessionName := by
  have hrows : (crowdedStore.rows.filterMap fun
      | .sessionInfo sid _ createdAt => if createdAt < 1000 then some (sid, createdAt) else none
      | _ => none) = (List.range 201).map fun n => (sessionName n, n) := by
    rw [crowdedStore, List.filterMap_map, ← List.filterMap_eq_map]
    refine List.filterMap_congr fun n hn => ?_
    have hlt : n < 1000 := (List.mem_range.1 hn).trans (by omega)
    exact if_pos hlt
  rw [SuiteStore.oldSessions, hrows, List.Pairwise.insertionSort_eq, List.map_map]
  · rfl
  · refine List.pairwise_map.2 (List.pairwise_lt_range.imp fun hlt => ?_)
    exact (Prod.Lex.toLex_lt_toLex.2 (.inl hlt)).le

/-- **A page of live sessions hides what comes after it.**  The pass removes nothing, and the
session that is purged stays. -/
theorem crowded_page_hides : ¬ ∀ (s : SuiteStore) (r : RouterRecords) (tie : SessionId → ℕ)
    (collation : UserId → ℕ) (cutoff : ℕ),
    s.Complete r tie collation cutoff ∧ s.Safe r tie collation cutoff := by
  intro hall
  obtain ⟨hcomplete, -⟩ := hall crowdedStore crowdedRouter (fun _ => 0) (fun _ => 0) 1000
  have hzero : (crowdedStore.reconcileClosedSessions crowdedRouter (fun _ => 0) 1000 sessionBatch
      {}).2 = some 0 := by
    rw [reconcileClosedSessions_eq_zero, oldSessions_crowdedStore, ← List.map_take]
    intro sid hsid
    exact decide_eq_true hsid
  have hrow : .sessionInfo (sessionName 200) "u" 200 ∈ crowdedStore.rows :=
    List.mem_map.2 ⟨200, List.mem_range.2 (by omega), rfl⟩
  have hmem := hcomplete.sessions hzero _ hrow (sessionName 200) 200 rfl (by decide)
  obtain ⟨n, hn, heq⟩ := List.mem_map.1 hmem
  have hlt := List.mem_range.1 hn
  have hlast := sessionName_injective heq
  omega

end

end Backplane.Suite
