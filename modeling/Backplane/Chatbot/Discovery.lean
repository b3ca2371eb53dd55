import Backplane.Data.EventSystem
import Backplane.Data.Table
import Backplane.Protocol.Types
import Mathlib.Data.List.Sort
import Mathlib.Data.Prod.Lex

/-!
# Discovering approved users

A channel polls for the sessions of the users it services.  It asks for those that were opened after
the newest that it has seen, and gets a page of the oldest of them.  A session is stamped before it
is committed.

* `listServicedSessions` : the query, with its page.
* `discoverySystem` : sessions are opened and committed, users change, and the loop polls.
* `DiscoveryState.NothingLost` : each session has been passed on, or a later poll can find it.
* `approvals_discovered` : in every run in which sessions come into sight in the order of their
  stamps, and pages are cut between stamps, nothing is lost.
-/

namespace Backplane.Chatbot

/-! ### The query -/

/-- What the query reads of a user. -/
structure ServicedUser where
  servicedBy : List UserId := []
  deleted : Bool := false

/-- What the query reads of a session. -/
structure OpenedSession where
  userId : UserId
  openedAt : ℕ
  kind : Option String := none
  externalId : Option String := none

/-- `ServicedSession` -/
structure ServicedSession where
  userId : UserId
  sessionId : SessionId
  externalId : Option String
  channel : Option String
  openedAt : ℕ

/-- The tables of the router. -/
structure SessionTables where
  users : Table UserId ServicedUser := ∅
  sessions : Table SessionId OpenedSession := ∅

namespace SessionTables

variable (d : SessionTables) (service : UserId) (channel : String)

/-- The session is of this channel, and its user is serviced and not deleted. -/
def inSight (x : OpenedSession) : Bool :=
  (d.users.lookup x.userId).any (fun u => service ∈ u.servicedBy && !u.deleted) &&
    x.kind = some channel

/-- The conditions of the query. -/
def isListed (since : Option ℕ) (x : OpenedSession) : Bool :=
  d.inSight service channel x && since.all (· < x.openedAt)

/-- A row of the answer. -/
def view (r : (_ : SessionId) × OpenedSession) : ServicedSession :=
  ⟨r.2.userId, r.1, r.2.externalId, r.2.kind, r.2.openedAt⟩

/-- The rows in order; those with equal stamps come in any order. -/
def inOrder (tie : SessionId → ℕ) (rows : List ServicedSession) : List ServicedSession :=
  rows.insertionSort fun x y =>
    toLex (x.openedAt, tie x.sessionId) ≤ toLex (y.openedAt, tie y.sessionId)

/-- What the query lists, if the page is long enough. -/
def listing (tie : SessionId → ℕ) (since : Option ℕ) : List ServicedSession :=
  inOrder tie ((d.sessions.entries.filter fun r => d.isListed service channel since r.2).map view)

/-- `list_serviced_sessions` -/
def listServicedSessions (tie : SessionId → ℕ) (since : Option ℕ) (limit : ℕ) :
    List ServicedSession :=
  (d.listing service channel tie since).take limit

end SessionTables

/-! ### The loop -/

/-- A transaction that opens a session, and may approve the user. -/
structure Opening where
  sessionId : SessionId
  session : OpenedSession
  user : Option ServicedUser

/-- The tables, the transactions that are not committed yet, and the loop. -/
structure DiscoveryState extends SessionTables where
  now : ℕ := 0
  openings : Table ℕ Opening := ∅
  cursor : Option ℕ := none
  records : Option (List ServicedSession) := none
  /-- The sessions that the loop has passed to `reconcile_serviced_sessions`. -/
  passed : List SessionId := []

/-- What happens. -/
inductive DiscoveryEvent
  | tick (s : ℕ)
  /-- A transaction opens a session, with the user if it is an approval. -/
  | begin (tx : ℕ) (sessionId : SessionId) (u : UserId) (kind externalId : Option String)
      (user : Option ServicedUser)
  | commit (tx : ℕ)
  | rollback (tx : ℕ)
  | user (u : UserId) (row : Option ServicedUser)
  /-- The metadata of a session change. -/
  | annotate (sessionId : SessionId) (kind externalId : Option String)
  | purge (sessionId : SessionId)
  /-- A poll is answered; equal stamps come in this order. -/
  | poll (tie : SessionId → ℕ)
  /-- The records are reconciled, or that fails. -/
  | reconcile (done : Bool)
  | fail
  | restart

namespace DiscoveryState

variable (service : UserId) (channel : String) (limit : ℕ)

/-- An event. -/
def step (s : DiscoveryState) : DiscoveryEvent → Option DiscoveryState
  | .tick n => some { s with now := s.now + n }
  | .begin tx sessionId u kind externalId user =>
    if (s.openings.lookup tx).isSome then none
    else some { s with
      openings := s.openings.insert tx ⟨sessionId, ⟨u, s.now, kind, externalId⟩, user⟩ }
  | .commit tx => (s.openings.lookup tx).bind fun o =>
    if (s.sessions.lookup o.sessionId).isSome then none
    else some { s with
      users := match o.user with
        | some row => s.users.insert o.session.userId row
        | none => s.users
      sessions := s.sessions.insert o.sessionId o.session
      openings := s.openings.erase tx }
  | .rollback tx => some { s with openings := s.openings.erase tx }
  | .user u row => some { s with
      users := match row with
        | some row => s.users.insert u row
        | none => s.users.erase u }
  | .annotate sessionId kind externalId => some { s with
      sessions := s.sessions.update sessionId fun x =>
        { x with kind := kind.or x.kind, externalId := externalId.or x.externalId } }
  | .purge sessionId => some { s with sessions := s.sessions.erase sessionId }
  | .poll tie =>
    if s.records.isSome then none
    else some { s with
      records := some (s.listServicedSessions service channel tie s.cursor limit) }
  | .reconcile done => s.records.map fun records => { s with
      records := none
      passed := records.map ServicedSession.sessionId ++ s.passed
      cursor := if done then ((records.map ServicedSession.openedAt).max?).or s.cursor
        else s.cursor }
  | .fail => some { s with records := none }
  | .restart => some { s with cursor := none, records := none, passed := [] }

/-- Each session in sight has been passed on, or the query lists it. -/
def NothingLost (s : DiscoveryState) : Prop :=
  ∀ sessionId x, s.sessions.lookup sessionId = some x → s.inSight service channel x = true →
    sessionId ∈ s.passed ∨ s.isListed service channel s.cursor x = true

/-! ### What may happen -/

/-- The session is in sight. -/
def sees (s : DiscoveryState) (sessionId : SessionId) : Bool :=
  (s.sessions.lookup sessionId).any (s.inSight service channel)

/-- The stamp is later than those that the loop has seen. -/
def isLater (s : DiscoveryState) (openedAt : ℕ) : Bool :=
  s.cursor.all (· < openedAt) && s.records.all fun rs => rs.all fun r => r.openedAt < openedAt

/-- What comes into sight has not been missed. -/
def inTime (s s' : DiscoveryState) : Bool :=
  s'.sessions.entries.all fun x => !s'.sees service channel x.1 || s.sees service channel x.1 ||
    x.1 ∈ s.passed || s.isLater x.2.openedAt

/-- The page ends between two stamps. -/
def cutsBetween (s : DiscoveryState) (tie : SessionId → ℕ) : Bool :=
  ((s.listing service channel tie s.cursor).drop limit).all fun x =>
    (s.listServicedSessions service channel tie s.cursor limit).all fun y =>
      y.openedAt ≠ x.openedAt

/-- The event may happen: a session that comes into sight is later than those that the loop has
seen, and a page ends between two stamps. -/
def allowed (s : DiscoveryState) (e : DiscoveryEvent) : Bool :=
  (s.step service channel limit e).all (s.inTime service channel) && match e with
    | .poll tie => s.cutsBetween service channel limit tie
    | _ => true

end DiscoveryState

/-- The sessions and the loop, from the start on. -/
def discoverySystem (service : UserId) (channel : String) (limit : ℕ) :
    EventSystem DiscoveryState DiscoveryEvent :=
  ⟨{}, DiscoveryState.step service channel limit⟩

/-! ### Nothing is lost -/

namespace DiscoveryState

variable {service : UserId} {channel : String} {limit : ℕ} {s s' : DiscoveryState}
  {e : DiscoveryEvent} {sessionId : SessionId} {x : OpenedSession} {tie : SessionId → ℕ}

/-- What holds at any time. -/
def Inv (service : UserId) (channel : String) (s : DiscoveryState) : Prop :=
  ∀ sessionId x, s.sessions.lookup sessionId = some x → s.inSight service channel x = true →
    sessionId ∈ s.passed ∨ (∀ t, s.cursor = some t → t < x.openedAt) ∧
      ∀ rs, s.records = some rs → sessionId ∈ rs.map ServicedSession.sessionId ∨
        ∀ r ∈ rs, r.openedAt < x.openedAt

theorem isLater_iff {t : ℕ} : s.isLater t = true ↔ (∀ c, s.cursor = some c → c < t) ∧
    ∀ rs, s.records = some rs → ∀ r ∈ rs, r.openedAt < t := by
  simp only [isLater, Bool.and_eq_true, Option.all_eq_true, List.all_eq_true, decide_eq_true_eq]

/-- The router's tables change, and the stamps stay. -/
theorem Inv.of_tables (h : s.Inv service channel) (hcursor : s'.cursor = s.cursor)
    (hrecords : s'.records = s.records) (hpassed : s'.passed = s.passed)
    (hstamps : ∀ sessionId x x', s.sessions.lookup sessionId = some x →
      s'.sessions.lookup sessionId = some x' → x'.openedAt = x.openedAt)
    (htime : s.inTime service channel s' = true) : s'.Inv service channel := by
  intro sessionId x' hx' hsight
  have hmem : (⟨sessionId, x'⟩ : (_ : SessionId) × OpenedSession) ∈ s'.sessions.entries :=
    AList.mem_lookup_iff.1 hx'
  have hsees : s'.sees service channel sessionId = true := by
    rw [sees, hx']
    exact hsight
  have htime := List.all_eq_true.1 htime _ hmem
  simp only [hsees, Bool.not_true, Bool.false_or, Bool.or_eq_true, decide_eq_true_eq] at htime
  rw [hcursor, hrecords, hpassed]
  rcases htime with (hseen | hpassed) | hlater
  · obtain ⟨x, hx, hold⟩ := (Option.any_eq_true ..).1 hseen
    rw [hstamps sessionId x x' hx hx']
    exact h sessionId x hx hold
  · exact .inl hpassed
  · obtain ⟨hcursor, hrecords⟩ := isLater_iff.1 hlater
    exact .inr ⟨hcursor, fun rs hrs => .inr (hrecords rs hrs)⟩

/-- A page that ends between two stamps: what it leaves is later than what it has. -/
theorem lt_of_cut {rs : List ServicedSession} {n : ℕ} {y z : ServicedSession}
    (hcut : ((SessionTables.inOrder tie rs).drop n).all (fun x =>
      ((SessionTables.inOrder tie rs).take n).all fun y => y.openedAt ≠ x.openedAt) = true)
    (hz : z ∈ (SessionTables.inOrder tie rs).drop n)
    (hy : y ∈ (SessionTables.inOrder tie rs).take n) : y.openedAt < z.openedAt := by
  have hsorted : (SessionTables.inOrder tie rs).Pairwise fun x y =>
      toLex (x.openedAt, tie x.sessionId) ≤ toLex (y.openedAt, tie y.sessionId) :=
    List.pairwise_insertionSort _ rs
  rw [← List.take_append_drop n (SessionTables.inOrder tie rs), List.pairwise_append] at hsorted
  have hle := Prod.Lex.toLex_le_toLex.1 (hsorted.2.2 y hy z hz)
  have hne := of_decide_eq_true (List.all_eq_true.1 (List.all_eq_true.1 hcut z hz) y hy)
  rcases hle with hlt | ⟨heq, -⟩
  · exact hlt
  · exact absurd heq hne

theorem Inv.poll (h : s.Inv service channel)
    (hcut : s.cutsBetween service channel limit tie = true) :
    ({ s with records := some (s.listServicedSessions service channel tie s.cursor limit) } :
      DiscoveryState).Inv service channel := by
  intro sessionId x hx hsight
  refine (h sessionId x hx hsight).imp_right fun ⟨hcursor, _⟩ => ⟨hcursor, fun rs hrs => ?_⟩
  obtain rfl := Option.some.inj hrs
  -- The query lists the session, on the page or after it.
  have hlisted : s.isListed service channel s.cursor x = true := by
    simp only [SessionTables.isListed, Bool.and_eq_true, Option.all_eq_true, decide_eq_true_eq]
    exact ⟨hsight, hcursor⟩
  have hmem : SessionTables.view ⟨sessionId, x⟩ ∈ s.listing service channel tie s.cursor := by
    refine (List.mem_insertionSort _).2 (List.mem_map_of_mem (List.mem_filter.2 ⟨?_, hlisted⟩))
    exact AList.mem_lookup_iff.1 hx
  rw [← List.take_append_drop limit (s.listing service channel tie s.cursor)] at hmem
  rcases List.mem_append.1 hmem with hpage | hrest
  · exact .inl (List.mem_map_of_mem hpage)
  · exact .inr fun r hr => lt_of_cut hcut hrest hr

theorem Inv.reconcile {records : List ServicedSession} {done : Bool} (h : s.Inv service channel)
    (hrecords : s.records = some records) : ({ s with
      records := none
      passed := records.map ServicedSession.sessionId ++ s.passed
      cursor := if done then ((records.map ServicedSession.openedAt).max?).or s.cursor
        else s.cursor } : DiscoveryState).Inv service channel := by
  intro sessionId x hx hsight
  rcases h sessionId x hx hsight with hpassed | ⟨hcursor, hpage⟩
  · exact .inl (List.mem_append_right _ hpassed)
  · rcases hpage records hrecords with hmem | hlater
    · exact .inl (List.mem_append_left _ hmem)
    · refine .inr ⟨fun t ht => ?_, fun rs hrs => by cases hrs⟩
      dsimp only at ht
      split_ifs at ht
      · rcases Option.or_eq_some_iff.1 ht with hmax | ⟨-, hold⟩
        · obtain ⟨r, hr, rfl⟩ := List.mem_map.1 (List.max?_mem hmax)
          exact hlater r hr
        · exact hcursor t hold
      · exact hcursor t ht

theorem Inv.step (h : s.Inv service channel) (hallowed : s.allowed service channel limit e = true)
    (hstep : s.step service channel limit e = some s') : s'.Inv service channel := by
  obtain ⟨htime, hcut⟩ := Bool.and_eq_true_iff.1 hallowed
  rw [hstep, Option.all_some] at htime
  cases e with
  | tick n => exact Option.some.inj hstep ▸ h
  | begin tx sessionId u kind externalId user =>
    rw [DiscoveryState.step] at hstep
    split_ifs at hstep
    exact Option.some.inj hstep ▸ h
  | commit tx =>
    obtain ⟨o, -, hstep⟩ := Option.bind_eq_some_iff.1 hstep
    split_ifs at hstep with hnew
    obtain rfl := Option.some.inj hstep
    refine h.of_tables rfl rfl rfl (fun sessionId x x' hx hx' => ?_) htime
    rw [Table.lookup_insert] at hx'
    split_ifs at hx' with hid
    · rw [← hid, hx] at hnew
      exact absurd rfl hnew
    · rw [Option.some.inj (hx.symm.trans hx')]
  | rollback tx => exact Option.some.inj hstep ▸ h
  | user u row =>
    obtain rfl := Option.some.inj hstep
    refine h.of_tables rfl rfl rfl (fun sessionId x x' hx hx' => ?_) htime
    rw [Option.some.inj (hx.symm.trans hx')]
  | annotate sessionId kind externalId =>
    obtain rfl := Option.some.inj hstep
    refine h.of_tables rfl rfl rfl (fun id x x' hx hx' => ?_) htime
    rw [Table.lookup_update_map, hx] at hx'
    obtain rfl := Option.some.inj hx'
    split_ifs <;> rfl
  | purge sessionId =>
    obtain rfl := Option.some.inj hstep
    refine h.of_tables rfl rfl rfl (fun id x x' hx hx' => ?_) htime
    rw [Option.some.inj (hx.symm.trans (Table.lookup_of_erase hx').2)]
  | poll tie =>
    rw [DiscoveryState.step] at hstep
    split_ifs at hstep
    exact Option.some.inj hstep ▸ h.poll hcut
  | reconcile done =>
    obtain ⟨records, hrecords, rfl⟩ := Option.map_eq_some_iff.1 hstep
    exact h.reconcile hrecords
  | fail =>
    obtain rfl := Option.some.inj hstep
    exact fun sessionId x hx hsight => (h sessionId x hx hsight).imp_right fun hlater =>
      ⟨hlater.1, fun rs hrs => by cases hrs⟩
  | restart =>
    obtain rfl := Option.some.inj hstep
    exact fun sessionId x hx hsight =>
      .inr ⟨fun t ht => (by cases ht), fun rs hrs => (by cases hrs)⟩

theorem Inv.nothingLost (h : s.Inv service channel) : s.NothingLost service channel := by
  intro sessionId x hx hsight
  refine (h sessionId x hx hsight).imp_right fun hlater => ?_
  simp only [SessionTables.isListed, Bool.and_eq_true, Option.all_eq_true, decide_eq_true_eq]
  exact ⟨hsight, hlater.1⟩

end DiscoveryState

/-- **No approved user is lost** in a run in which sessions come into sight in the order of their
stamps, seen from the loop, and pages end between two stamps: each session in sight has been passed
on, or the query lists it. -/
theorem approvals_discovered {service : UserId} {channel : String} {limit : ℕ} {s : DiscoveryState}
    (h : (discoverySystem service channel limit).Reaches
      (fun s e => s.allowed service channel limit e = true) s) : s.NothingLost service channel := by
  have hinv : (discoverySystem service channel limit).Invariant
      (fun s e => s.allowed service channel limit e = true)
      (DiscoveryState.Inv service channel) := {
    init := fun _ _ hx => by cases hx
    step := fun hs hallowed hstep => hs.step hallowed hstep }
  exact (hinv.of_reaches h).nothingLost

namespace Sample

/-- Two approvals, of which the first is committed at once or after the loop has seen the second. -/
def twoApprovals (late : Bool) : List DiscoveryEvent :=
  let first : DiscoveryEvent := .begin 0 "s" "u" (some "chat") (some "1") (some ⟨["svc"], false⟩)
  let second : DiscoveryEvent := .begin 1 "t" "v" (some "chat") (some "2") (some ⟨["svc"], false⟩)
  let round : List DiscoveryEvent := [.poll fun _ => 0, .reconcile true]
  if late then [first, .tick 1, second, .commit 1] ++ round ++ [.commit 0]
  else [first, .commit 0, .tick 1, second, .commit 1] ++ round

/-- What has been passed on, and whether the query lists the first session. -/
def found (s : DiscoveryState) : List SessionId × Option Bool :=
  (s.passed, (s.sessions.lookup "s").map (s.isListed "svc" "chat" s.cursor))

end Sample

theorem approvals_discovered_two : ∃ s,
    (discoverySystem "svc" "chat" 200).run (DiscoveryState.allowed "svc" "chat" 200) {}
      (Sample.twoApprovals false) = some s ∧
      Sample.found s = (["s", "t"], some false) ∧ s.NothingLost "svc" "chat" := by
  have hrun : ((discoverySystem "svc" "chat" 200).run (DiscoveryState.allowed "svc" "chat" 200) {}
      (Sample.twoApprovals false)).map Sample.found = some (["s", "t"], some false) := by
    decide +kernel
  obtain ⟨s, hs, hfound⟩ := Option.map_eq_some_iff.1 hrun
  exact ⟨s, hs, hfound, approvals_discovered (.of_run (fun _ _ h => h) hs)⟩

/-- **A session that is committed late is lost**: the loop has seen a later stamp. -/
theorem late_commit_lost : ¬ ∀ s, (discoverySystem "svc" "chat" 200).Reaches (fun _ _ => True) s →
    s.NothingLost "svc" "chat" := by
  intro hall
  have hrun : ((discoverySystem "svc" "chat" 200).run (fun _ _ => true) {}
      (Sample.twoApprovals true)).map (fun s => (Sample.found s,
        (s.sessions.lookup "s").map (s.inSight "svc" "chat"))) =
        some ((["t"], some false), some true) := by decide +kernel
  obtain ⟨s, hs, hread⟩ := Option.map_eq_some_iff.1 hrun
  obtain ⟨hfound, hsight⟩ := Prod.mk.inj hread
  obtain ⟨hpassed, hlisted⟩ := Prod.mk.inj hfound
  obtain ⟨x, hx, hsight⟩ := Option.map_eq_some_iff.1 hsight
  rw [hx, Option.map_some, Option.some.injEq] at hlisted
  have hfalse := hall s (.of_run (fun _ _ _ => trivial) hs) "s" x hx hsight
  rw [hpassed, hlisted] at hfalse
  exact absurd hfalse (by decide)

end Backplane.Chatbot
