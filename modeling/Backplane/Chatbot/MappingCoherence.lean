import Backplane.Chatbot.Mappings

/-!
# Mappings that are coherent

The session of a mapping outlives its user: a poll or a `/link` that finds the chat mapped replaces
the user and keeps the session, and a `/new` or a `/link` sets its session whoever the user is now.

* `MappingState.allowed` : a mapping with a session keeps its user, and only commands of its user
  set its session.
* `MappingState.Coherent` : sessions are those of the user, and replaying changes no mapping.
* `mappings_coherent` : in every run of such steps, mappings and defaults are coherent.
-/

namespace Backplane.Chatbot

namespace MappingState

/-! ### What may happen -/

/-- A mapping with a session keeps its user, and only a command of this user sets its session. -/
def allowed (s : MappingState) : MappingEvent → Bool
  | .run rid => match s.programs.lookup rid with
    | some (.upsert chat u _ :: _) =>
      (s.mappings.lookup chat).all fun r => r.userId = u || r.sessionId = none
    | some (.point chat u _ :: _) => (s.mappings.lookup chat).all fun r => r.userId = u
    | _ => true
  | _ => true

/-- The session is the user's. -/
def Owns (s : MappingState) (u : UserId) (sid : SessionId) : Prop :=
  ∃ x, s.sessions.lookup sid = some x ∧ x.userId = u

/-- What is claimed of a state. -/
structure Coherent (s : MappingState) : Prop where
  /-- The session of a mapping is its user's. -/
  mapped : ∀ chat r sid, s.mappings.lookup chat = some r → r.sessionId = some sid →
    s.Owns r.userId sid
  /-- The default of a user is the user's. -/
  defaults : ∀ u sid, s.configs.lookup u = some (some sid) → s.Owns u sid
  /-- Replaying a session that was reconciled, of a user who is not purged, changes no mapping. -/
  replayed : ∀ sid ∈ s.reconciled, ∀ x chat, s.sessions.lookup sid = some x → x.chat = some chat →
    x.userId ∉ s.purged → ∀ chat',
      (upsertPlatformMapping s.mappings chat x.userId (some sid)).lookup chat' =
        s.mappings.lookup chat'

end MappingState

/-! ### What holds at any time -/

/-- What a statement relies on. -/
def Stmt.Ok (s : MappingState) : Stmt → Prop
  | .upsert chat u (some sid) => s.sessions.lookup sid = some ⟨u, some chat⟩
  | .createConfig u sid | .point _ u sid | .adopt _ u sid | .compare u sid _ | .setDefault u sid =>
    s.Owns u sid
  | _ => True

namespace MappingState

/-- What holds at any time. -/
structure Inv (s : MappingState) : Prop where
  /-- The session of a mapping is its user's. -/
  mapped : ∀ chat r sid, s.mappings.lookup chat = some r → r.sessionId = some sid →
    s.Owns r.userId sid
  /-- The default of a user is the user's. -/
  defaults : ∀ u sid, s.configs.lookup u = some (some sid) → s.Owns u sid
  /-- The statements have what they rely on. -/
  programs : ∀ rid stmts, s.programs.lookup rid = some stmts → ∀ stmt ∈ stmts, stmt.Ok s
  /-- The chat of a session that was reconciled is mapped to its user, and has a session. -/
  settled : ∀ sid ∈ s.reconciled, ∃ x chat, s.sessions.lookup sid = some x ∧ x.chat = some chat ∧
    (x.userId ∉ s.purged → ∃ sid', s.mappings.lookup chat = some ⟨x.userId, some sid'⟩)

variable {s s' : MappingState} {rid : ℕ} {stmts next : List Stmt} {stmt : Stmt} {chat : Chat}
  {u : UserId} {sid : SessionId} {e : MappingEvent}

theorem Owns.mono (h : s.Owns u sid)
    (hle : ∀ sid x, s.sessions.lookup sid = some x → s'.sessions.lookup sid = some x) :
    s'.Owns u sid := by
  obtain ⟨x, hx, hu⟩ := h
  exact ⟨x, hle sid x hx, hu⟩

end MappingState

open MappingState in
theorem Stmt.Ok.mono {s s' : MappingState} {stmt : Stmt}
    (hle : ∀ sid x, s.sessions.lookup sid = some x → s'.sessions.lookup sid = some x)
    (h : stmt.Ok s) : stmt.Ok s' := by
  cases stmt with
  | upsert chat u sid =>
    cases sid with
    | none => trivial
    | some sid => exact hle _ _ h
  | createConfig | point | adopt | compare | setDefault => exact Owns.mono h hle
  | submit | verify | openSession | createInfo | retire | release => trivial

namespace MappingState

variable {s s' : MappingState} {rid : ℕ} {stmts next : List Stmt} {stmt : Stmt} {chat : Chat}
  {u : UserId} {sid : SessionId} {e : MappingEvent}

theorem Inv.goOn (h : s.Inv) (hok : ∀ stmt ∈ stmts, stmt.Ok s) : (s.goOn rid stmts).Inv where
  mapped := h.mapped
  defaults := h.defaults
  programs rid' stmts' hlookup := by
    have hlookup := (Table.lookup_insert ..).symm.trans hlookup
    split_ifs at hlookup
    · obtain rfl := Option.some.inj hlookup
      exact hok
    · exact h.programs rid' stmts' hlookup
  settled := h.settled

theorem Inv.start (h : s.Inv) (hok : ∀ stmt ∈ stmts, stmt.Ok s)
    (hstep : s.start rid stmts = some s') : s'.Inv := by
  rw [MappingState.start] at hstep
  split_ifs at hstep
  exact Option.some.inj hstep ▸ h.goOn hok

/-- What is left of a program that goes on. -/
theorem Inv.rest (h : s.Inv) (hlookup : s.programs.lookup rid = some (stmt :: stmts)) :
    ∀ stmt' ∈ stmts, stmt'.Ok s :=
  fun _ hstmt => h.programs rid _ hlookup _ (List.mem_cons_of_mem _ hstmt)

theorem lookup_insert_of_new {x : RouterSession} (hnew : s.sessions.lookup sid = none)
    (sid' : SessionId) (y : RouterSession) (hy : s.sessions.lookup sid' = some y) :
    (s.sessions.insert sid x).lookup sid' = some y := by
  rw [Table.lookup_insert, if_neg]
  · exact hy
  · rintro rfl
    rw [hnew] at hy
    cases hy

theorem Inv.insertSession {x : RouterSession} {pending : List Chat} {users : List UserId}
    (h : s.Inv) (hnew : s.sessions.lookup sid = none) :
    ({ s with pending, users, sessions := s.sessions.insert sid x } : MappingState).Inv := by
  have hle := lookup_insert_of_new (x := x) hnew
  refine ⟨fun chat r sid hr hsid => (h.mapped chat r sid hr hsid).mono hle,
    fun u sid hu => (h.defaults u sid hu).mono hle,
    fun rid stmts hlookup stmt hstmt => ?_, fun sid hsid => ?_⟩
  · exact (h.programs rid stmts hlookup stmt hstmt).mono hle
  · obtain ⟨y, chat, hy, hrest⟩ := h.settled sid hsid
    exact ⟨y, chat, hle sid y hy, hrest⟩

/-! ### The statements that write mappings -/

/-- A mapping that has no session yet, or has one and keeps its user. -/
theorem Inv.upsert (h : s.Inv) {sid : Option SessionId}
    (hok : (Stmt.upsert chat u sid).Ok s)
    (hallowed : ∀ r, s.mappings.lookup chat = some r → r.userId = u ∨ r.sessionId = none) :
    ({ s with
      mappings := upsertPlatformMapping s.mappings chat u sid
      reconciled := sid.toList ++ s.reconciled } : MappingState).Inv := by
  have hkept : ∀ r sid', s.mappings.lookup chat = some r → r.sessionId = some sid' →
      r.userId = u := by
    intro r sid' hr hsid'
    refine (hallowed r hr).resolve_right fun hnone => ?_
    rw [hnone] at hsid'
    cases hsid'
  refine ⟨fun chat' r sid' hr hsid' => ?_, h.defaults, h.programs, fun sid' hsid' => ?_⟩
  · have hr := (Table.lookup_insert ..).symm.trans hr
    split_ifs at hr with hchat
    · obtain rfl := Option.some.inj hr
      -- either the session of the row before, or the one that is seeded
      rcases Option.or_eq_some_iff.1 hsid' with hold | ⟨-, hseed⟩
      · obtain ⟨r, hr, hsession⟩ := Option.bind_eq_some_iff.1 hold
        exact hkept r sid' hr hsession ▸ h.mapped chat r sid' hr hsession
      · obtain rfl : sid = some sid' := hseed
        exact ⟨_, hok, rfl⟩
    · exact h.mapped chat' r sid' hr hsid'
  · rcases List.mem_append.1 hsid' with hseed | hsid'
    · obtain rfl : sid = some sid' := Option.mem_toList.1 hseed
      refine ⟨⟨u, some chat⟩, chat, hok, rfl, fun _ => ?_⟩
      cases hold : (s.mappings.lookup chat).bind PlatformMapping.sessionId with
      | none => exact ⟨sid', (Table.lookup_insert ..).trans (by rw [if_pos rfl, hold]; rfl)⟩
      | some old => exact ⟨old, (Table.lookup_insert ..).trans (by rw [if_pos rfl, hold]; rfl)⟩
    · obtain ⟨x, chat', hx, hchat, hmapped⟩ := h.settled sid' hsid'
      refine ⟨x, chat', hx, hchat, fun hpurged => ?_⟩
      obtain ⟨old, hold⟩ := hmapped hpurged
      by_cases heq : chat' = chat
      · obtain rfl := heq
        obtain rfl : x.userId = u := hkept _ old hold rfl
        exact ⟨old, (Table.lookup_insert ..).trans (by rw [if_pos rfl, hold]; rfl)⟩
      · exact ⟨old, (Table.lookup_insert ..).trans ((if_neg heq).trans hold)⟩

theorem Inv.point (h : s.Inv) (howns : s.Owns u sid)
    (hallowed : ∀ r, s.mappings.lookup chat = some r → r.userId = u) :
    ({ s with mappings := setMappingSessionId s.mappings chat sid } : MappingState).Inv := by
  refine ⟨fun chat' r sid' hr hsid' => ?_, h.defaults, h.programs, fun sid' hsid' => ?_⟩
  · have hr := (Table.lookup_update ..).symm.trans hr
    split_ifs at hr with hchat
    · obtain ⟨old, hold, rfl⟩ := Option.map_eq_some_iff.1 hr
      obtain rfl := Option.some.inj hsid'
      exact hallowed old hold ▸ howns
    · exact h.mapped chat' r sid' hr hsid'
  · obtain ⟨x, chat', hx, hchat, hmapped⟩ := h.settled sid' hsid'
    refine ⟨x, chat', hx, hchat, fun hpurged => ?_⟩
    obtain ⟨old, hold⟩ := hmapped hpurged
    by_cases heq : chat' = chat
    · obtain rfl := heq
      exact ⟨sid, (Table.lookup_update ..).trans (by rw [if_pos rfl, hold]; rfl)⟩
    · exact ⟨old, (Table.lookup_update ..).trans ((if_neg heq).trans hold)⟩

theorem Inv.setConfig (h : s.Inv) (howns : s.Owns u sid)
    {configs : Table UserId (Option SessionId)}
    (hconfigs : ∀ u' sid', configs.lookup u' = some (some sid') →
      (u' = u ∧ sid' = sid) ∨ s.configs.lookup u' = some (some sid')) :
    ({ s with configs } : MappingState).Inv := by
  refine ⟨h.mapped, fun u' sid' hu => ?_, h.programs, h.settled⟩
  obtain ⟨rfl, rfl⟩ | hold := hconfigs u' sid' hu
  · exact howns
  · exact h.defaults u' sid' hold

/-! ### A statement -/

/-- A statement that may run keeps what holds at any time; what follows from it has what it
relies on. -/
theorem Inv.run (h : s.Inv) (hok : stmt.Ok s) (hrun : stmt.run s = some (s', next))
    (hupsert : ∀ chat u sid, stmt = .upsert chat u sid → ∀ r, s.mappings.lookup chat = some r →
      r.userId = u ∨ r.sessionId = none)
    (hpoint : ∀ chat u sid, stmt = .point chat u sid → ∀ r, s.mappings.lookup chat = some r →
      r.userId = u) :
    s'.Inv ∧ s'.sessions = s.sessions ∧ ∀ stmt' ∈ next, stmt'.Ok s' := by
  have hnone : ∀ stmt' ∈ ([] : List Stmt), stmt'.Ok s' := fun _ hstmt => (by cases hstmt)
  cases stmt with
  | verify | openSession => cases hrun
  | submit chat =>
    cases hrun
    exact ⟨⟨h.mapped, h.defaults, h.programs, h.settled⟩, rfl, hnone⟩
  | upsert chat u sid =>
    cases hrun
    exact ⟨h.upsert hok (hupsert chat u sid rfl), rfl, hnone⟩
  | createConfig u sid =>
    cases hrun
    split_ifs with hconfig
    · exact ⟨h, rfl, fun _ hstmt => (by cases hstmt)⟩
    · refine ⟨h.setConfig hok fun u' sid' hu => ?_, rfl, fun _ hstmt => (by cases hstmt)⟩
      have hu := (Table.lookup_insert ..).symm.trans hu
      split_ifs at hu with heq
      · exact .inl ⟨heq, (Option.some.inj (Option.some.inj hu)).symm⟩
      · exact .inr hu
  | createInfo sid u chat =>
    cases hrun
    split_ifs with hinfo
    · exact ⟨h, rfl, fun _ hstmt => (by cases hstmt)⟩
    · exact ⟨⟨h.mapped, h.defaults, h.programs, h.settled⟩, rfl, fun _ hstmt => (by cases hstmt)⟩
  | point chat u sid =>
    cases hrun
    exact ⟨h.point hok (hpoint chat u sid rfl), rfl, hnone⟩
  | adopt chat u sid =>
    cases hrun
    refine ⟨h, rfl, fun stmt' hstmt => ?_⟩
    unfold adoptNext at hstmt
    split at hstmt
    · obtain rfl := List.mem_singleton.1 hstmt
      exact hok
    · split at hstmt
      · obtain rfl := List.mem_singleton.1 hstmt
        exact hok
      · cases hstmt
  | compare u sid current =>
    cases hrun
    refine ⟨h, rfl, fun stmt' hstmt => ?_⟩
    split_ifs at hstmt
    · cases hstmt
    · obtain rfl := List.mem_singleton.1 hstmt
      exact hok
  | setDefault u sid =>
    cases hrun
    refine ⟨h.setConfig hok fun u' sid' hu => ?_, rfl, hnone⟩
    have hu := (Table.lookup_update ..).symm.trans hu
    split_ifs at hu with heq
    · obtain ⟨_, -, hsid⟩ := Option.map_eq_some_iff.1 hu
      exact .inl ⟨heq, (Option.some.inj hsid).symm⟩
    · exact .inr hu
  | retire chat =>
    cases hrun
    refine ⟨h, rfl, fun stmt' hstmt => ?_⟩
    obtain ⟨_, -, rfl⟩ := Option.map_eq_some_iff.1 (Option.mem_toList.1 hstmt)
    trivial
  | release sid =>
    cases hrun
    exact ⟨⟨h.mapped, h.defaults, h.programs, h.settled⟩, rfl, hnone⟩

/-! ### Commands and polls -/

theorem ok_of_cmdRegister : ∀ stmt ∈ s.cmdRegister chat, stmt.Ok s := by
  intro stmt hstmt
  rw [cmdRegister] at hstmt
  split_ifs at hstmt
  · cases hstmt
  · obtain rfl := List.mem_singleton.1 hstmt
    trivial

theorem ok_of_cmdLink : ∀ stmt ∈ s.cmdLink chat, stmt.Ok s := by
  intro stmt hstmt
  rw [cmdLink] at hstmt
  split_ifs at hstmt
  · cases hstmt
  · obtain rfl := List.mem_singleton.1 hstmt
    trivial

theorem ok_of_cmdNew : ∀ stmt ∈ s.cmdNew chat, stmt.Ok s := by
  intro stmt hstmt
  rw [cmdNew] at hstmt
  split at hstmt
  · cases hstmt
  · rcases List.mem_pair.1 hstmt with rfl | rfl <;> trivial

theorem Inv.ok_of_cmdSetdefault (h : s.Inv) : ∀ stmt ∈ s.cmdSetdefault chat, stmt.Ok s := by
  intro stmt hstmt
  rw [cmdSetdefault] at hstmt
  split at hstmt
  · next u sid hr =>
    obtain rfl := List.mem_singleton.1 hstmt
    exact h.mapped chat _ sid hr rfl
  · cases hstmt

theorem ok_of_reconcileSession {platform : Platform} :
    ∀ stmt ∈ s.reconcileSession platform sid, stmt.Ok s := by
  intro stmt hstmt
  rw [reconcileSession] at hstmt
  split at hstmt
  · next u chat hx =>
    split_ifs at hstmt
    · obtain rfl | rfl | rfl : stmt = .upsert chat u (some sid) ∨ stmt = .createConfig u sid ∨
          stmt = .createInfo sid u chat := by simpa using hstmt
      · exact hx
      · exact ⟨_, hx, rfl⟩
      · trivial
    · cases hstmt
  · cases hstmt

/-- What follows when the session is open. -/
theorem ok_of_opened {opener : Opener} (howns : s.Owns u sid) :
    ∀ stmt ∈ opened chat u sid opener, stmt.Ok s := by
  intro stmt hstmt
  cases opener with
  | link =>
    obtain rfl | rfl | rfl : stmt = .createInfo sid u chat ∨ stmt = .point chat u sid ∨
        stmt = .adopt chat u sid := by simpa [opened] using hstmt
    · trivial
    · exact howns
    · exact howns
  | new =>
    obtain rfl | rfl | rfl : stmt = .createInfo sid u chat ∨ stmt = .point chat u sid ∨
        stmt = .setDefault u sid := by simpa [opened] using hstmt
    · trivial
    · exact howns
    · exact howns

/-! ### Events -/

theorem Inv.purgeSuite (h : s.Inv) (hpurged : u ∈ s.purged) :
    ({ s with
      mappings := s.mappings.deleteWhere fun _ r => decide (r.userId = u)
      infos := s.infos.deleteWhere fun _ i => decide (i.userId = u)
      configs := s.configs.erase u } : MappingState).Inv := by
  refine ⟨fun chat r sid hr => h.mapped chat r sid (Table.lookup_deleteWhere.1 hr).1,
    fun u' sid hu => h.defaults u' sid (Table.lookup_of_erase hu).2, h.programs,
    fun sid hsid => ?_⟩
  obtain ⟨x, chat, hx, hchat, hmapped⟩ := h.settled sid hsid
  refine ⟨x, chat, hx, hchat, fun hlive => ?_⟩
  obtain ⟨sid', hr⟩ := hmapped hlive
  refine ⟨sid', Table.lookup_deleteWhere.2 ⟨hr, decide_eq_false ?_⟩⟩
  rintro rfl
  exact hlive hpurged

/-- **Events keep what holds at any time.** -/
theorem Inv.step (h : s.Inv) (hallowed : s.allowed e = true) (hstep : s.step e = some s') :
    s'.Inv := by
  cases e with
  | register rid chat => exact h.start ok_of_cmdRegister hstep
  | link rid chat => exact h.start ok_of_cmdLink hstep
  | new rid chat => exact h.start ok_of_cmdNew hstep
  | setdefault rid chat => exact h.start h.ok_of_cmdSetdefault hstep
  | poll rid platform sids =>
    refine h.start (fun stmt hstmt => ?_) hstep
    obtain ⟨sid, -, hstmt⟩ := List.mem_flatMap.1 hstmt
    exact ok_of_reconcileSession stmt hstmt
  | run rid =>
    simp only [MappingState.step] at hstep
    split at hstep
    · next stmt rest hlookup =>
      obtain ⟨⟨s'', next⟩, hrun, rfl⟩ := Option.map_eq_some_iff.1 hstep
      have hok := h.programs rid _ hlookup stmt List.mem_cons_self
      obtain ⟨hinv, hsessions, hnext⟩ := h.run hok hrun
        (by
          rintro chat u sid rfl r hr
          simpa [allowed, hlookup, hr] using hallowed)
        (by
          rintro chat u sid rfl r hr
          simpa [allowed, hlookup, hr] using hallowed)
      refine hinv.goOn fun stmt' hstmt' => ?_
      rcases List.mem_append.1 hstmt' with hstmt' | hstmt'
      · exact hnext stmt' hstmt'
      · exact (h.rest hlookup stmt' hstmt').mono fun _ _ hx => hsessions ▸ hx
    · cases hstep
  | linked rid u =>
    simp only [MappingState.step] at hstep
    split at hstep
    · next chat rest hlookup =>
      split_ifs at hstep
      obtain rfl := Option.some.inj hstep
      refine h.goOn fun stmt hstmt => ?_
      rcases List.mem_cons.1 hstmt with rfl | hstmt
      · trivial
      rcases List.mem_cons.1 hstmt with rfl | hstmt
      · trivial
      · exact h.rest hlookup stmt hstmt
    · cases hstep
  | opened rid sid =>
    simp only [MappingState.step] at hstep
    split at hstep
    · next chat u opener rest hlookup =>
      split_ifs at hstep with hnew
      obtain rfl := Option.some.inj hstep
      have hnew := Option.not_isSome_iff_eq_none.1 hnew
      refine (h.insertSession hnew).goOn fun stmt hstmt => ?_
      rcases List.mem_append.1 hstmt with hstmt | hstmt
      · exact ok_of_opened ⟨_, AList.lookup_insert _, rfl⟩ stmt hstmt
      · exact (h.rest hlookup stmt hstmt).mono (lookup_insert_of_new hnew)
    · cases hstep
  | skip rid =>
    simp only [MappingState.step] at hstep
    split at hstep
    · next sid rest hlookup =>
      obtain rfl := Option.some.inj hstep
      exact h.goOn (h.rest hlookup)
    · cases hstep
  | abort rid =>
    cases hstep
    exact ⟨h.mapped, h.defaults,
      fun rid stmts hlookup => h.programs rid stmts (Table.lookup_of_erase hlookup).2, h.settled⟩
  | approve chat u sid =>
    simp only [MappingState.step] at hstep
    split_ifs at hstep with hnew
    obtain rfl := Option.some.inj hstep
    exact h.insertSession (Option.isNone_iff_eq_none.1 hnew.2.2)
  | signUp u =>
    cases hstep
    exact ⟨h.mapped, h.defaults, h.programs, h.settled⟩
  | webapp u =>
    cases hstep
    split_ifs
    · exact h
    · refine ⟨h.mapped, fun u' sid hu => ?_, h.programs, h.settled⟩
      have hu := (Table.lookup_insert ..).symm.trans hu
      split_ifs at hu
      · cases hu
      · exact h.defaults u' sid hu
  | purge u =>
    cases hstep
    refine ⟨h.mapped, h.defaults, h.programs, fun sid hsid => ?_⟩
    obtain ⟨x, chat, hx, hchat, hmapped⟩ := h.settled sid hsid
    exact ⟨x, chat, hx, hchat, fun hlive => hmapped fun hp => hlive (List.mem_cons_of_mem _ hp)⟩
  | purgeSuite u =>
    simp only [MappingState.step] at hstep
    split_ifs at hstep with hpurged
    obtain rfl := Option.some.inj hstep
    exact h.purgeSuite hpurged

/-- What holds at any time is what is claimed: a mapping that has a session is not changed by
its user's session. -/
theorem Inv.coherent (h : s.Inv) : s.Coherent where
  mapped := h.mapped
  defaults := h.defaults
  replayed sid hsid x chat hx hchat hlive chat' := by
    obtain ⟨y, chat₀, hy, hchat₀, hmapped⟩ := h.settled sid hsid
    obtain rfl : x = y := Option.some.inj (hx.symm.trans hy)
    obtain rfl : chat = chat₀ := Option.some.inj (hchat.symm.trans hchat₀)
    obtain ⟨sid', hr⟩ := hmapped hlive
    rw [upsertPlatformMapping, Table.lookup_insert, hr]
    split_ifs with heq
    · rw [heq, hr]
      rfl
    · rfl

end MappingState

/-! ### Coherence -/

/-- **Mappings and defaults are coherent.**  Whatever the order of the statements of commands,
polls and purges: as long as a mapping with a session keeps its user, and only commands of its
user set its session, the session of a mapping is its user's, so is a default, and replaying a
session that was reconciled changes no mapping. -/
theorem mappings_coherent {s : MappingState}
    (hs : mappingSystem.Reaches (fun s e => s.allowed e = true) s) : s.Coherent := by
  have hinv : mappingSystem.Invariant (fun s e => s.allowed e = true) MappingState.Inv := by
    refine ⟨⟨?_, ?_, ?_, ?_⟩, fun h hallowed hstep => h.step hallowed hstep⟩
    · exact fun _ _ _ hr => (by cases hr)
    · exact fun _ _ hr => (by cases hr)
    · exact fun _ _ hr => (by cases hr)
    · exact fun _ hr => (by cases hr)
  exact (hinv.of_reaches hs).coherent

section

/-- The chat of the runs below. -/
def anyChat : Chat := ⟨.telegram, "1"⟩

/-- A chat registers, is approved, is mapped by two polls and takes a new session, which becomes
the default; the first session is then replayed. -/
def replayedRun : List MappingEvent :=
  [.register 0 anyChat, .run 0, .approve anyChat "A" "s1", .poll 1 .telegram ["s1"], .run 1,
    .run 1, .run 1, .new 2 anyChat, .run 2, .skip 2, .opened 2 "s2", .run 2, .run 2, .run 2,
    .poll 3 .telegram ["s1"], .run 3]

/-- Two registrations of one chat are approved before the first poll. -/
def rebindingRun : List MappingEvent :=
  [.register 0 anyChat, .run 0, .register 1 anyChat, .approve anyChat "A" "s1", .run 1,
    .approve anyChat "B" "s2", .poll 2 .telegram ["s1", "s2"], .run 2, .run 2, .run 2, .run 2]

/-- The mapping keeps the new session. -/
theorem mappings_coherent_replayed : ∃ s : MappingState, s.Coherent ∧
    s.mappings.lookup anyChat = some ⟨"A", some "s2"⟩ ∧
    s.configs.lookup "A" = some (some "s2") := by
  have h : (mappingSystem.run MappingState.allowed mappingSystem.init replayedRun).map
      (fun s => (s.mappings.lookup anyChat, s.configs.lookup "A")) =
        some (some ⟨"A", some "s2"⟩, some (some "s2")) := by
    decide +kernel
  obtain ⟨s, hs, hread⟩ := Option.map_eq_some_iff.1 h
  obtain ⟨hmapping, hconfig⟩ := Prod.mk.inj hread
  exact ⟨s, mappings_coherent (.of_run (fun _ _ h => h) hs), hmapping, hconfig⟩

/-- **A chat that is mapped anew keeps the session of the user before.**  The second approval
replaces the user; the session stays the first user's. -/
theorem rebinding_keeps_session :
    ¬ ∀ s, mappingSystem.Reaches (fun _ _ => True) s → s.Coherent := by
  intro hall
  have h : (mappingSystem.run (fun _ _ => true) mappingSystem.init rebindingRun).map
      (fun s => (s.mappings.lookup anyChat,
        (s.sessions.lookup "s1").map RouterSession.userId)) =
        some (some ⟨"B", some "s1"⟩, some "A") := by
    decide +kernel
  obtain ⟨s, hs, hread⟩ := Option.map_eq_some_iff.1 h
  obtain ⟨hmapping, hsession⟩ := Prod.mk.inj hread
  have hcoherent := hall s (.of_run (fun _ _ _ => trivial) hs)
  obtain ⟨x, hx, hu⟩ := hcoherent.mapped anyChat _ "s1" hmapping rfl
  rw [hx, Option.map_some, hu] at hsession
  exact absurd hsession (by decide)

end

end Backplane.Chatbot

