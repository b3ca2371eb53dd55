import Backplane.Router.Reachable

/-!
# Acks and heartbeats

Two things wait in the map of pending acks: a delivered frame for its Ack, and a heartbeat's Ping for
its Pong.  A wait may be cancelled, as it is when the socket it runs on behalf of breaks.

* `AckAct`, `AckCall` : the actions and calls of the router, with heartbeats and cancelled waits.
* `acks cfg` : the machine in which all of them run together.
* `Router.Wired` : a channel is one agent's, and so is a socket, live or parked.
* `AckStep` : what an action does to the pending acks and to the ids in flight.
-/

namespace Backplane

open Concur Prog

/-! ### The machine -/

/-- The actions of the router, of a heartbeat and of a wait that is cancelled. -/
inductive AckAct : Type → Type 1
  | router {β : Type} (a : Act β) : AckAct β
  /-- `CancelledError`: is this wait cancelled? -/
  | cancelled (t : Ticket) : AckAct Bool
  /-- The `finally` clause of a cancelled wait. -/
  | discard (t : Ticket) : AckAct Unit
  /-- `_heartbeat_loop` of a socket up to where it awaits the Pong; nothing to await on a full
  outbox. -/
  | ping (k : SocketId) (intervalS : ℕ) : AckAct (Option Ticket)

/-- Send a Ping through a socket: register, mark in flight, enqueue.  On a full outbox the
registration is undone. -/
def Router.sendPing (s : Router) (cap deadline : ℕ) (k : SocketId) (cid : CorrelationId) :
    Router × Option Ticket :=
  match s.sockets.lookup k with
  | none => (s, none)
  | some e =>
    match s.putNowait cap e.channel ⟨cid, .ping ⟨.router⟩⟩ with
    | none => (s, none)
    | some s' =>
      ({ s'.setChannel e.channel { s'.channel e.channel with
            inflight := cid :: (s'.channel e.channel).inflight } with
          correlation := s'.correlation.register cid deadline }, some ⟨cid, e.channel⟩)

/-- What an action does; `none` when it has to wait. -/
def AckAct.exec (cfg : Config) : {β : Type} → AckAct β → Env → Router → Option (Router × β)
  | _, router a, e, s => a.exec cfg e s
  | _, cancelled _, e, s => some (s, e.fault)
  | _, discard t, _, s => some (s.discardInflight t, ())
  | _, ping k interval, e, s =>
    -- correlation ids are generated
    if (s.correlation.pending.lookup e.freshId).isSome ∨
        (s.correlation.settled.lookup e.freshId).isSome then none
    else some (s.sendPing cfg.perSocketOutboxMax (e.now + interval) k e.freshId)

/-- A program of the machine. -/
abbrev AckProg := Prog AckAct

/-- `await fut`; a wait that is cancelled yields nothing. -/
def awaitFuture (t : Ticket) : AckProg (Option Settled) := do
  if ← perform (.cancelled t) then
    perform (.discard t)
    pure none
  else
    let v ← perform (.router (.awaitAck t))
    pure (some v)

/-- An action of the router, in a coroutine whose waits for an ack may be cancelled. -/
def cancellable : {β : Type} → Act β → AckProg (Option β)
  | _, .awaitAck t => awaitFuture t
  | _, a => do
    let b ← perform (.router a)
    pure (some b)

/-- One round of `_heartbeat_loop` of an idle socket. -/
def heartbeat (k : SocketId) (intervalS : ℕ) : AckProg Unit := do
  match ← perform (.ping k intervalS) with
  | none => pure ()
  | some t =>
    let _ ← awaitFuture t

/-- What can start a coroutine. -/
inductive AckCall
  /-- Any call of the router. -/
  | router (c : Call)
  | heartbeat (k : SocketId) (intervalS : ℕ)

/-- The program a call runs. -/
def AckCall.body (cfg : Config) : AckCall → AckProg Unit
  | .router c => do
    let _ ← (c.body cfg).expand cancellable
  | .heartbeat k intervalS => Backplane.heartbeat k intervalS

/-- A pool of the machine. -/
abbrev AckPool := Pool AckAct Router AckCall Unit

/-- The router with its heartbeats. -/
def acks (cfg : Config) : Machine AckAct Env Router AckCall Unit where
  exec := AckAct.exec cfg
  body := AckCall.body cfg

/-! ### Sockets and channels -/

/-- The socket of an agent uses the channel. -/
def Router.Owns (s : Router) (a : AgentId) (ch : ChannelId) : Prop :=
  ∃ k e, s.sockets.lookup k = some e ∧ e.agentId = a ∧ e.channel = ch

/-- Sockets and channels are numbered, each channel is one agent's, and so is each socket of the
registry. -/
structure Router.Wired (s : Router) : Prop where
  /-- The next socket is a new one. -/
  sockets : s.sockets.Numbered
  /-- The next channel is a new one. -/
  channels : s.channels.Numbered
  /-- Every channel in use is there. -/
  present : ∀ {a ch}, s.Owns a ch → s.channels.lookup ch ≠ none
  /-- No two agents share a channel. -/
  sole : ∀ {a b ch}, s.Owns a ch → s.Owns b ch → a = b
  /-- A live socket is its agent's. -/
  live : ∀ {a k}, s.registry.live.lookup a = some k →
    ∃ e, s.sockets.lookup k = some e ∧ e.agentId = a
  /-- So is a parked one. -/
  parked : ∀ {a k}, s.registry.resume.lookup a = some k →
    ∃ e, s.sockets.lookup k = some e ∧ e.agentId = a

/-- Nothing has changed but the contents of channels, and which sockets are closed. -/
structure Router.SameWires (s s' : Router) : Prop where
  registry : s'.registry = s.registry
  sockets : ∀ k, (s'.sockets.lookup k).map (fun e => (e.agentId, e.channel)) =
    (s.sockets.lookup k).map fun e => (e.agentId, e.channel)
  socketsNumbered : s.sockets.Numbered → s'.sockets.Numbered
  channels : ∀ ch, s.channels.lookup ch ≠ none → s'.channels.lookup ch ≠ none
  channelsNumbered : s.channels.Numbered → s'.channels.Numbered

namespace Router

variable {s s' s₁ : Router} {a b : AgentId} {ch : ChannelId} {k : SocketId} {cap d : ℕ}
  {m : Envelope} {cid : CorrelationId}

theorem SameWires.of_eq (hr : s'.registry = s.registry) (hs : s'.sockets = s.sockets)
    (hc : s'.channels = s.channels) : s.SameWires s' :=
  ⟨hr, fun _ => by rw [hs], fun h => by rwa [hs], fun _ h => by rwa [hc], fun h => by rwa [hc]⟩

theorem SameWires.refl (s : Router) : s.SameWires s := .of_eq rfl rfl rfl

theorem SameWires.trans (h : s.SameWires s₁) (h' : s₁.SameWires s') : s.SameWires s' where
  registry := h'.registry.trans h.registry
  sockets k := (h'.sockets k).trans (h.sockets k)
  socketsNumbered hn := h'.socketsNumbered (h.socketsNumbered hn)
  channels ch hc := h'.channels ch (h.channels ch hc)
  channelsNumbered hn := h'.channelsNumbered (h.channelsNumbered hn)

theorem SameWires.socket_iff (h : s.SameWires s') :
    (∃ e, s'.sockets.lookup k = some e ∧ e.agentId = a) ↔
      ∃ e, s.sockets.lookup k = some e ∧ e.agentId = a := by
  have hk := congrArg (Option.map Prod.fst) (h.sockets k)
  simp only [Option.map_map, Function.comp_def] at hk
  rw [← Option.map_eq_some_iff, ← Option.map_eq_some_iff, hk]

theorem SameWires.owns_iff (h : s.SameWires s') : s'.Owns a ch ↔ s.Owns a ch := by
  have hk : ∀ k, (∃ e, s'.sockets.lookup k = some e ∧ e.agentId = a ∧ e.channel = ch) ↔
      ∃ e, s.sockets.lookup k = some e ∧ e.agentId = a ∧ e.channel = ch := by
    intro k
    have hw : ∀ e : SocketEntry, e.agentId = a ∧ e.channel = ch ↔ (e.agentId, e.channel) = (a, ch) :=
      fun e => Prod.mk.injEq .. ▸ Iff.rfl
    simp only [hw, ← Option.map_eq_some_iff, h.sockets k]
  exact exists_congr hk

theorem Wired.of_same (hw : s.Wired) (h : s.SameWires s') : s'.Wired where
  sockets := h.socketsNumbered hw.sockets
  channels := h.channelsNumbered hw.channels
  present ho := h.channels _ (hw.present (h.owns_iff.1 ho))
  sole ho ho' := hw.sole (h.owns_iff.1 ho) (h.owns_iff.1 ho')
  live hl := h.socket_iff.2 (hw.live (h.registry ▸ hl))
  parked hl := h.socket_iff.2 (hw.parked (h.registry ▸ hl))

theorem sameWires_setChannel (hp : s.channels.lookup ch ≠ none) (c : Channel) :
    s.SameWires (s.setChannel ch c) where
  registry := rfl
  sockets _ := rfl
  socketsNumbered h := h
  channels x hx := by
    simp only [setChannel, Table.lookup_insert]
    split_ifs
    · simp
    · exact hx
  channelsNumbered h := h.insert hp

theorem sameWires_markClosed : s.SameWires (s.markClosed k) where
  registry := rfl
  sockets x := by
    simp only [markClosed, Table.lookup_update_map, Option.map_map]
    congr 1
    funext e
    simp only [Function.comp_apply]
    split_ifs <;> rfl
  socketsNumbered h := h.update _
  channels _ h := h
  channelsNumbered h := h

theorem putNowait_eq_some (h : s.putNowait cap ch m = some s') :
    s' = s.setChannel ch { s.channel ch with outbox := (s.channel ch).outbox ++ [m] } := by
  simp only [putNowait, Option.ite_none_right_eq_some, Option.some.injEq] at h
  exact h.2.symm

@[simp] theorem channel_setChannel (c : Channel) (x : ChannelId) :
    (s.setChannel ch c).channel x = if x = ch then c else s.channel x := by
  simp only [channel, setChannel, Table.lookup_insert]
  split_ifs <;> rfl

/-- The channel of an agent's live socket is the agent's. -/
theorem Wired.owns_liveChannel (hw : s.Wired) (h : s.liveChannel a = some ch) : s.Owns a ch := by
  obtain ⟨k, hk, hch⟩ := Option.bind_eq_some_iff.1 h
  obtain ⟨e, he, rfl⟩ := Option.map_eq_some_iff.1 hch
  obtain ⟨e', he', rfl⟩ := hw.live hk
  obtain rfl := Option.some.inj (he.symm.trans he')
  exact ⟨k, e, he, rfl, rfl⟩

/-- Sending a frame whose ack is awaited: nothing happens, or it is registered, in flight and in the
outbox of a channel that is there. -/
theorem deliverAwait_cases (hw : s.Wired) {out : Except Delivery Ticket}
    (h : s.deliverAwait cap d a m = (s', out)) :
    (∃ err, out = .error err ∧ s' = s) ∨ ∃ ch, out = .ok ⟨m.correlationId, ch⟩ ∧ s.Owns a ch ∧
      s' = { s.setChannel ch { s.channel ch with
          outbox := (s.channel ch).outbox ++ [m]
          inflight := m.correlationId :: (s.channel ch).inflight } with
        correlation := s.correlation.register m.correlationId d } := by
  unfold deliverAwait at h
  split at h
  · obtain ⟨rfl, rfl⟩ := Prod.mk.inj h
    exact .inl ⟨_, rfl, rfl⟩
  · rename_i ch hch
    split at h
    · obtain ⟨rfl, rfl⟩ := Prod.mk.inj h
      exact .inl ⟨_, rfl, rfl⟩
    · rename_i s₁ hput
      obtain ⟨rfl, rfl⟩ := Prod.mk.inj h
      refine .inr ⟨ch, rfl, hw.owns_liveChannel hch, ?_⟩
      rw [putNowait_eq_some hput]
      simp [setChannel, channel, AList.lookup_insert, AList.insert_insert]

theorem sendPing_cases {out : Option Ticket} (h : s.sendPing cap d k cid = (s', out)) :
    (out = none ∧ s' = s) ∨ ∃ e, s.sockets.lookup k = some e ∧ out = some ⟨cid, e.channel⟩ ∧
      s' = { s.setChannel e.channel { s.channel e.channel with
          outbox := (s.channel e.channel).outbox ++ [⟨cid, .ping ⟨.router⟩⟩]
          inflight := cid :: (s.channel e.channel).inflight } with
        correlation := s.correlation.register cid d } := by
  unfold sendPing at h
  split at h
  · obtain ⟨rfl, rfl⟩ := Prod.mk.inj h
    exact .inl ⟨rfl, rfl⟩
  · rename_i e he
    split at h
    · obtain ⟨rfl, rfl⟩ := Prod.mk.inj h
      exact .inl ⟨rfl, rfl⟩
    · rename_i s₁ hput
      obtain ⟨rfl, rfl⟩ := Prod.mk.inj h
      refine .inr ⟨e, he, rfl, ?_⟩
      rw [putNowait_eq_some hput]
      simp [setChannel, channel, AList.lookup_insert, AList.insert_insert]

theorem owns_insert (hn : s.sockets.Numbered) (e : SocketEntry) (hs : s'.sockets =
    s.sockets.insert s.sockets.entries.length e) :
    s'.Owns b ch ↔ s.Owns b ch ∨ b = e.agentId ∧ ch = e.channel := by
  constructor
  · rintro ⟨k, e', he', rfl, rfl⟩
    rw [hs, Table.lookup_insert] at he'
    split_ifs at he'
    · obtain rfl := Option.some.inj he'
      exact .inr ⟨rfl, rfl⟩
    · exact .inl ⟨k, e', he', rfl, rfl⟩
  · rintro (⟨k, e', he', rfl, rfl⟩ | ⟨rfl, rfl⟩)
    · refine ⟨k, e', ?_, rfl, rfl⟩
      rw [hs, Table.lookup_insert, if_neg, he']
      rintro rfl
      exact absurd (hn.lookup_length.symm.trans he') (by simp)
    · exact ⟨_, e, by rw [hs, AList.lookup_insert], rfl, rfl⟩

/-- A new socket of an agent, on a channel that is the agent's or nobody's. -/
theorem Wired.insert (hw : s.Wired) (e : SocketEntry) {live resume : Table AgentId SocketId}
    {channels : Table ChannelId Channel} (hc : channels.Numbered)
    (hkept : ∀ ch, s.channels.lookup ch ≠ none → channels.lookup ch ≠ none)
    (hthere : channels.lookup e.channel ≠ none)
    (hfree : ∀ b, s.Owns b e.channel → b = e.agentId)
    (hlive : ∀ b k, live.lookup b = some k →
      b = e.agentId ∧ k = s.sockets.entries.length ∨ s.registry.live.lookup b = some k)
    (hresume : ∀ b k, resume.lookup b = some k → s.registry.resume.lookup b = some k) :
    Wired { s with
      registry := ⟨live, resume⟩
      sockets := s.sockets.insert s.sockets.entries.length e
      channels := channels } := by
  have howns : ∀ {b ch}, Router.Owns { s with
      registry := ⟨live, resume⟩
      sockets := s.sockets.insert s.sockets.entries.length e
      channels := channels } b ch ↔ s.Owns b ch ∨ b = e.agentId ∧ ch = e.channel :=
    owns_insert hw.sockets e rfl
  have hold : ∀ {b k}, (∃ e', s.sockets.lookup k = some e' ∧ e'.agentId = b) →
      ∃ e', (AList.insert s.sockets.entries.length e s.sockets).lookup k = some e' ∧
        e'.agentId = b := by
    rintro b k ⟨e', he', rfl⟩
    refine ⟨e', ?_, rfl⟩
    rw [Table.lookup_insert, if_neg, he']
    rintro rfl
    exact absurd (hw.sockets.lookup_length.symm.trans he') (by simp)
  constructor
  · exact hw.sockets.insert_length
  · exact hc
  · intro b ch ho
    rcases howns.1 ho with ho | ⟨-, rfl⟩
    · exact hkept _ (hw.present ho)
    · exact hthere
  · intro b c ch ho ho'
    rcases howns.1 ho with ho | ⟨rfl, rfl⟩ <;> rcases howns.1 ho' with ho' | ⟨rfl, hch⟩
    · exact hw.sole ho ho'
    · exact hfree b (hch ▸ ho)
    · exact (hfree c ho').symm
    · rfl
  · intro b k hl
    rcases hlive b k hl with ⟨rfl, rfl⟩ | hl
    · exact ⟨e, AList.lookup_insert _, rfl⟩
    · exact hold (hw.live hl)
  · exact fun hl => hold (hw.parked (hresume _ _ hl))

theorem Wired.attach (hw : s.Wired) (tok : Option String) (newToken : String) :
    (s.attach a tok newToken).1.Wired := by
  have hlive : ∀ b k, (s.registry.live.insert a s.sockets.entries.length).lookup b = some k →
      b = a ∧ k = s.sockets.entries.length ∨ s.registry.live.lookup b = some k := by
    intro b k hl
    rw [Table.lookup_insert] at hl
    split_ifs at hl with hb
    · exact .inl ⟨hb, (Option.some.inj hl).symm⟩
    · exact .inr hl
  unfold Router.attach
  cases hp : s.consumable a tok with
  | some e =>
    obtain ⟨t, -, hpark⟩ := Option.bind_eq_some_iff.1 hp
    obtain ⟨k, hk, hfilter⟩ := Option.bind_eq_some_iff.1 hpark
    obtain ⟨he, -⟩ := Option.filter_eq_some_iff.1 hfilter
    obtain ⟨e', he', hagent⟩ := hw.parked hk
    obtain rfl := Option.some.inj (he.symm.trans he')
    have hown : s.Owns a e.channel := ⟨k, e, he, hagent, rfl⟩
    refine hw.insert ⟨a, e.sessionToken, e.channel, false⟩ hw.channels (fun _ h => h)
      (hw.present hown) (fun b hb => hw.sole hb hown) hlive fun b k' hl => ?_
    rw [Option.isSome_some, if_pos rfl] at hl
    by_cases hb : b = a
    · rw [hb, AList.lookup_erase] at hl
      exact absurd hl (by simp)
    · rwa [AList.lookup_erase_ne hb] at hl
  | none =>
    have hkept : ∀ ch, s.channels.lookup ch ≠ none →
        (s.channels.insert s.channels.entries.length {}).lookup ch ≠ none := by
      intro ch hch
      rw [Table.lookup_insert]
      split_ifs
      · simp
      · exact hch
    refine hw.insert ⟨a, newToken, s.channels.entries.length, false⟩ hw.channels.insert_length
      hkept ?_ (fun b hb => ?_) hlive fun _ _ hl => hl
    · show (s.channels.insert s.channels.entries.length {}).lookup s.channels.entries.length ≠ none
      rw [AList.lookup_insert]
      simp
    · exact absurd hw.channels.lookup_length (hw.present hb)

theorem Wired.detach (hw : s.Wired) : (s.detach k).1.Wired := by
  unfold Router.detach
  split
  · exact hw
  · rename_i e he
    dsimp only
    split_ifs with hl
    · refine ⟨hw.sockets, hw.channels, hw.present, hw.sole, fun {a k'} h => hw.live ?_,
        fun {a k'} h => ?_⟩
      · by_cases ha : a = e.agentId
        · rw [ha] at h
          exact absurd (h.symm.trans (AList.lookup_erase _ _)) (by simp)
        · exact (AList.lookup_erase_ne ha).symm.trans h
      · by_cases ha : a = e.agentId
        · rw [ha] at h ⊢
          obtain rfl := Option.some.inj ((AList.lookup_insert _).symm.trans h)
          exact ⟨e, he, rfl⟩
        · exact hw.parked ((AList.lookup_insert_ne ha).symm.trans h)
    · exact hw.of_same (.of_eq rfl rfl rfl)

theorem Wired.expireResume (hw : s.Wired) : (s.expireResume a k).1.Wired := by
  unfold Router.expireResume
  split_ifs
  · refine ⟨hw.sockets, hw.channels, hw.present, hw.sole, hw.live, fun {b k'} h => hw.parked ?_⟩
    by_cases hb : b = a
    · rw [hb] at h
      exact absurd (h.symm.trans (AList.lookup_erase _ _)) (by simp)
    · exact (AList.lookup_erase_ne hb).symm.trans h
  · exact hw

end Router

/-! ### Pending acks -/

/-- What becomes of a correlation id: nothing, or its pending future is settled; with a frame only as
`frames` allows. -/
def PendingAcks.Fate (p p' : PendingAcks) (cid : CorrelationId) (frames : Frame → Prop) : Prop :=
  (p'.pending.lookup cid = p.pending.lookup cid ∧ p'.settled.lookup cid = p.settled.lookup cid) ∨
    ∃ v, p.pending.lookup cid ≠ none ∧ p'.pending.lookup cid = none ∧
      p'.settled.lookup cid = some v ∧ ∀ f, v = .frame f → frames f

namespace PendingAcks

variable {p p' p₁ : PendingAcks} {cid : CorrelationId} {v : Settled} {frames : Frame → Prop}

theorem Fate.of_eq (h : p' = p) : p.Fate p' cid frames := .inl ⟨by rw [h], by rw [h]⟩

/-- A future is settled once. -/
theorem Fate.trans (h : p.Fate p₁ cid frames) (h' : p₁.Fate p' cid frames) :
    p.Fate p' cid frames := by
  rcases h with ⟨hp, hs⟩ | ⟨v, hp, hp₁, hs, hv⟩ <;> rcases h' with ⟨hp', hs'⟩ | ⟨w, hq, hq', hw, hf⟩
  · exact .inl ⟨hp'.trans hp, hs'.trans hs⟩
  · exact .inr ⟨w, hp ▸ hq, hq', hw, hf⟩
  · exact .inr ⟨v, hp, hp'.trans hp₁, hs'.trans hs, hv⟩
  · exact absurd hp₁ hq

theorem fate_settle (p : PendingAcks) (x : CorrelationId) (hv : ∀ f, x = cid → v = .frame f → frames f) :
    p.Fate (p.settle x v) cid frames := by
  unfold settle
  split
  · exact .of_eq rfl
  · rename_i d hd
    by_cases hx : cid = x
    · subst hx
      exact .inr ⟨v, by simp [hd], AList.lookup_erase _ _, AList.lookup_insert _,
        fun f => hv f rfl⟩
    · exact .inl ⟨AList.lookup_erase_ne hx, AList.lookup_insert_ne hx⟩

theorem fate_foldl {X : Type} (key : X → CorrelationId) (hv : ∀ f, v ≠ .frame f) (xs : List X) :
    ∀ p : PendingAcks, p.Fate (xs.foldl (fun p x => p.settle (key x) v) p) cid frames := by
  induction xs with
  | nil => exact fun p => .of_eq rfl
  | cons x xs ih =>
    exact fun p => (fate_settle p (key x) fun f _ h => absurd h (hv f)).trans (ih _)

theorem fate_rejectIds (p : PendingAcks) (cids : List CorrelationId) :
    p.Fate (p.rejectIds cids) cid frames :=
  fate_foldl id (fun _ => by simp) cids p

theorem fate_reap (p : PendingAcks) (now : ℕ) : p.Fate (p.reap now) cid frames :=
  fate_foldl Prod.fst (fun _ => by simp) _ p

end PendingAcks

/-! ### What an action does -/

/-- The ticket of the future an action has registered. -/
def Concur.Event.opens : Event AckAct → Option Ticket
  | ⟨.router (.deliverAwait _ _), .ok t⟩ => some t
  | ⟨.ping _ _, t⟩ => t
  | _ => none

/-- What an action does to the sockets, the ids in flight and the pending acks. -/
structure AckStep (s s' : Router) (opens : Option Ticket) (frames : CorrelationId → Frame → Prop) :
    Prop where
  /-- The wires stay as they should. -/
  wired : s'.Wired
  /-- Nobody loses a channel. -/
  owns : ∀ {a ch}, s.Owns a ch → s'.Owns a ch
  /-- An id gets in flight when its future is registered. -/
  inflight : ∀ {ch cid}, cid ∈ (s'.channel ch).inflight →
    cid ∈ (s.channel ch).inflight ∨ opens = some ⟨cid, ch⟩
  /-- A future is registered on somebody's channel. -/
  owned : ∀ t, opens = some t → ∃ a, s.Owns a t.channel
  /-- A registered future is a new one. -/
  opened : ∀ t, opens = some t → s.correlation.pending.lookup t.correlationId = none ∧
    s.correlation.settled.lookup t.correlationId = none ∧
    s'.correlation.pending.lookup t.correlationId ≠ none ∧
    s'.correlation.settled.lookup t.correlationId = none
  /-- Any other id is settled or left alone. -/
  fate : ∀ cid, (∀ t, opens = some t → t.correlationId ≠ cid) →
    s.correlation.Fate s'.correlation cid (frames cid)

/-- The actions that have to do with sockets, channels and pending acks. -/
def hubTags : List Tag :=
  [.attach, .markClosed, .detach, .expireResume, .deliver, .deliverAwait, .awaitAck, .put, .settle,
    .reap, .sendNext]

section

variable {cfg : Config} {s s' : Router} {β : Type} {a : Act β} {e : Env} {b : β} {ch : ChannelId}
  {frames : CorrelationId → Frame → Prop}

/-- Every other action leaves them alone. -/
theorem Act.exec_hub (h : exec cfg a e s = some (s', b)) (ha : a.tag ∉ hubTags) :
    s'.registry = s.registry ∧ s'.sockets = s.sockets ∧ s'.channels = s.channels ∧
      s'.correlation = s.correlation := by
  cases a with
  | attach | markClosed | detach | expireResume | deliver | deliverAwait | awaitAck | put | settle
  | reap | sendNext => exact absurd (by simp [Act.tag, hubTags]) ha
  | sessionLevel u =>
    obtain rfl : _ = s' := congrArg Prod.fst (Option.some.inj h)
    unfold Router.sessionLevel
    repeat' split
    all_goals exact ⟨rfl, rfl, rfl, rfl⟩
  | createTask f c d =>
    simp only [exec, Option.ite_none_left_eq_some] at h
    obtain rfl : _ = s' := congrArg Prod.fst (Option.some.inj h.2)
    exact ⟨rfl, rfl, rfl, rfl⟩
  | openSession u =>
    simp only [exec, Option.ite_none_left_eq_some] at h
    obtain rfl : _ = s' := congrArg Prod.fst (Option.some.inj h.2)
    exact ⟨rfl, rfl, rfl, rfl⟩
  | delegationPhaseC f t c =>
    simp only [exec] at h
    split at h <;>
    · obtain rfl : _ = s' := congrArg Prod.fst (Option.some.inj h)
      exact ⟨rfl, rfl, rfl, rfl⟩
  | _ =>
    obtain rfl : _ = s' := congrArg Prod.fst (Option.some.inj h)
    exact ⟨rfl, rfl, rfl, rfl⟩

theorem AckStep.of_same (hw : s.Wired) (h : s.SameWires s')
    (hin : ∀ ch cid, cid ∈ (s'.channel ch).inflight → cid ∈ (s.channel ch).inflight)
    (hc : s'.correlation = s.correlation) : AckStep s s' none frames where
  wired := hw.of_same h
  owns ho := h.owns_iff.2 ho
  inflight hi := .inl (hin _ _ hi)
  owned _ h := absurd h (by simp)
  opened _ h := absurd h (by simp)
  fate _ _ := .of_eq hc

/-- A channel of the router is rewritten. -/
theorem AckStep.setChannel (hw : s.Wired) (hp : s.channels.lookup ch ≠ none) (c : Channel)
    (hc : ∀ cid ∈ c.inflight, cid ∈ (s.channel ch).inflight) :
    AckStep s (s.setChannel ch c) none frames := by
  refine .of_same hw (Router.sameWires_setChannel hp c) (fun x cid hi => ?_) rfl
  rw [Router.channel_setChannel] at hi
  split_ifs at hi with hx
  · rw [hx]
    exact hc cid hi
  · exact hi

/-- A frame is registered, in flight and in the outbox of a channel that is there. -/
theorem AckStep.register (hw : s.Wired) {x : AgentId} {t : Ticket} {d : ℕ} {o : List Envelope}
    (ho : s.Owns x t.channel)
    (hpending : s.correlation.pending.lookup t.correlationId = none)
    (hsettled : s.correlation.settled.lookup t.correlationId = none)
    (hs : s' = { s.setChannel t.channel { s.channel t.channel with
      outbox := o, inflight := t.correlationId :: (s.channel t.channel).inflight } with
        correlation := s.correlation.register t.correlationId d }) :
    AckStep s s' (some t) frames := by
  have hsame : s.SameWires s' :=
    (Router.sameWires_setChannel (hw.present ho) _).trans
      (.of_eq (by rw [hs]) (by rw [hs]) (by rw [hs]))
  have hcorr : s'.correlation = s.correlation.register t.correlationId d := by rw [hs]
  have hchannel : ∀ x, s'.channel x = if x = t.channel then { s.channel t.channel with
      outbox := o, inflight := t.correlationId :: (s.channel t.channel).inflight }
      else s.channel x := fun x => by rw [hs]; exact Router.channel_setChannel _ x
  refine ⟨hw.of_same hsame, fun h => hsame.owns_iff.2 h, fun {ch cid} hi => ?_, ?_, ?_, ?_⟩
  · rw [hchannel] at hi
    split_ifs at hi with hx
    · subst hx
      rcases List.mem_cons.1 hi with rfl | hi
      · exact .inr rfl
      · exact .inl hi
    · exact .inl hi
  · rintro _ ⟨⟩
    exact ⟨x, ho⟩
  · rintro _ ⟨⟩
    rw [hcorr]
    exact ⟨hpending, hsettled, by simp [PendingAcks.register], hsettled⟩
  · intro cid hcid
    rw [hcorr]
    exact .inl ⟨AList.lookup_insert_ne (hcid t rfl).symm, rfl⟩

/-- The pending acks are settled, in whatever way the ids allow. -/
theorem AckStep.settles (hw : s.Wired) {p : PendingAcks}
    (hp : ∀ cid, s.correlation.Fate p cid (frames cid)) :
    AckStep s { s with correlation := p } none frames where
  wired := hw.of_same (.of_eq rfl rfl rfl)
  owns ho := ho
  inflight hi := .inl hi
  owned _ h := absurd h (by simp)
  opened _ h := absurd h (by simp)
  fate cid _ := hp cid

end

/-- The frame an action may settle a future with, and the future's id. -/
def Concur.Event.settles : Event AckAct → Option (CorrelationId × Frame)
  | ⟨.router (.settle _ ref f), _⟩ => some (ref, f)
  | _ => none

/-- The ticket whose wait ends with an action. -/
def AckAct.ends : {β : Type} → AckAct β → Option Ticket
  | _, .router (.awaitAck t) => some t
  | _, .discard t => some t
  | _, _ => none

section

variable {cfg : Config} {s s' : Router} {β : Type} {e : Env} {b : β} {k : SocketId} {m : Envelope}
  {cap : ℕ} {frames : CorrelationId → Frame → Prop}

theorem AckStep.refl (hw : s.Wired) : AckStep s s none frames :=
  .of_same hw (.refl s) (fun _ _ h => h) rfl

theorem AckStep.putNowait {ch : ChannelId} (hw : s.Wired) (hp : s.channels.lookup ch ≠ none)
    (h : s.putNowait cap ch m = some s') : AckStep s s' none frames := by
  rw [Router.putNowait_eq_some h]
  exact .setChannel hw hp _ fun _ hc => hc

theorem AckStep.deliver (hw : s.Wired) (dst : AgentId) :
    AckStep s (s.deliver cap dst m).1 none frames := by
  unfold Router.deliver
  split
  · exact .refl hw
  · rename_i ch hch
    split
    · rename_i s₁ hput
      exact .putNowait hw (hw.present (hw.owns_liveChannel hch)) hput
    · exact .refl hw

theorem AckStep.discardInflight (hw : s.Wired) (t : Ticket)
    (hp : s.channels.lookup t.channel ≠ none) : AckStep s (s.discardInflight t) none frames :=
  .setChannel hw hp _ fun _ hc => (List.mem_filter.1 hc).1

theorem AckStep.sendNext (hw : s.Wired) {fails : Bool} (h : s.sendNext k fails = some s') :
    AckStep s s' none frames := by
  obtain ⟨entry, hk, hnext⟩ := Option.bind_eq_some_iff.1 h
  split at hnext
  · exact absurd hnext (by simp)
  · obtain rfl := Option.some.inj hnext
    exact .setChannel hw (hw.present ⟨k, entry, hk, rfl, rfl⟩) _ fun _ hc => hc

theorem AckStep.attach (hw : s.Wired) (x : AgentId) (tok : Option String) (newToken : String) :
    AckStep s (s.attach x tok newToken).1 none frames where
  wired := hw.attach tok newToken
  owns ho := (Router.owns_insert hw.sockets _ rfl).2 (.inl ho)
  inflight {ch cid} hi := by
    left
    unfold Router.attach at hi
    cases hc : s.consumable x tok with
    | some e' => rwa [hc] at hi
    | none =>
      rw [hc] at hi
      simp only [Router.channel, Option.isSome_none, Bool.false_eq_true, if_false,
        Table.lookup_insert] at hi
      split_ifs at hi with hch
      · exact absurd hi (by simp)
      · exact hi
  owned _ h := absurd h (by simp)
  opened _ h := absurd h (by simp)
  fate _ _ := .of_eq rfl

theorem AckStep.detach (hw : s.Wired) : AckStep s (s.detach k).1 none frames where
  wired := hw.detach
  owns ho := by
    unfold Router.detach
    split
    · exact ho
    · dsimp only
      split_ifs <;> exact ho
  inflight hi := by
    left
    unfold Router.detach at hi
    split at hi
    · exact hi
    · dsimp only at hi
      split_ifs at hi <;> exact hi
  owned _ h := absurd h (by simp)
  opened _ h := absurd h (by simp)
  fate cid _ := by
    unfold Router.detach
    split
    · exact .of_eq rfl
    · dsimp only
      split_ifs <;> exact PendingAcks.fate_rejectIds _ _

theorem AckStep.expireResume (hw : s.Wired) (x : AgentId) :
    AckStep s (s.expireResume x k).1 none frames where
  wired := hw.expireResume
  owns ho := by unfold Router.expireResume; split_ifs <;> exact ho
  inflight hi := by left; unfold Router.expireResume at hi; split_ifs at hi <;> exact hi
  owned _ h := absurd h (by simp)
  opened _ h := absurd h (by simp)
  fate _ _ := by unfold Router.expireResume; split_ifs <;> exact .of_eq rfl

theorem AckStep.settleFrom (hw : s.Wired) (ref : CorrelationId) (f : Frame) (hf : frames ref f) :
    AckStep s (s.settleFrom k ref f) none frames := by
  unfold Router.settleFrom
  split
  · exact .refl hw
  · split_ifs
    · refine .settles hw fun cid => PendingAcks.fate_settle _ _ fun g hg hv => ?_
      obtain rfl := Settled.frame.inj hv
      exact hg ▸ hf
    · exact .refl hw

/-- An action of the router. -/
theorem Act.exec_ackStep {a : Act β} (hw : s.Wired) (h : exec cfg a e s = some (s', b))
    (hp : ∀ t, (AckAct.router a).ends = some t → s.channels.lookup t.channel ≠ none) :
    AckStep s s' (Event.opens ⟨.router a, b⟩)
      (fun cid f => Event.settles ⟨.router a, b⟩ = some (cid, f)) := by
  by_cases ha : a.tag ∉ hubTags
  · obtain ⟨hr, hs, hc, hacks⟩ := exec_hub h ha
    have hopens : Event.opens ⟨.router a, b⟩ = none := by
      cases a <;> first | rfl | exact absurd (by simp [Act.tag, hubTags]) ha
    rw [hopens]
    exact .of_same hw (.of_eq hr hs hc) (fun ch cid hi => by rwa [Router.channel, hc] at hi) hacks
  rw [not_not] at ha
  cases a with
  | attach x tok =>
    obtain ⟨rfl, rfl⟩ := Prod.mk.inj (Option.some.inj h)
    exact .attach hw x tok _
  | markClosed k =>
    obtain ⟨rfl, rfl⟩ := Prod.mk.inj (Option.some.inj h)
    exact .of_same hw Router.sameWires_markClosed (fun _ _ hi => hi) rfl
  | detach k =>
    obtain ⟨rfl, rfl⟩ := Prod.mk.inj (Option.some.inj h)
    exact .detach hw
  | expireResume x k =>
    obtain ⟨rfl, rfl⟩ := Prod.mk.inj (Option.some.inj h)
    exact .expireResume hw x
  | deliver dst f =>
    obtain ⟨rfl, rfl⟩ := Prod.mk.inj (Option.some.inj h)
    exact .deliver hw dst
  | deliverAwait dst f =>
    simp only [exec, Option.ite_none_left_eq_some, not_or, Bool.not_eq_true,
      Option.isSome_eq_false_iff, Option.isNone_iff_eq_none] at h
    obtain ⟨⟨hpending, hsettled⟩, hd⟩ := h
    rcases Router.deliverAwait_cases hw (Option.some.inj hd) with
      ⟨err, rfl, rfl⟩ | ⟨ch, rfl, ho, hs'⟩
    · exact .refl hw
    · exact .register (t := ⟨e.freshId, ch⟩) hw ho hpending hsettled hs'
  | awaitAck t =>
    obtain ⟨v, -, hv⟩ := Option.map_eq_some_iff.1 h
    obtain ⟨rfl, rfl⟩ := Prod.mk.inj hv
    exact .discardInflight hw t (hp t rfl)
  | put k f =>
    obtain ⟨entry, hk, hv⟩ := Option.bind_eq_some_iff.1 h
    obtain ⟨s₁, hs₁, hv⟩ := Option.map_eq_some_iff.1 hv
    obtain ⟨rfl, rfl⟩ := Prod.mk.inj hv
    exact .putNowait hw (hw.present ⟨k, entry, hk, rfl, rfl⟩) hs₁
  | settle k ref f =>
    obtain ⟨rfl, rfl⟩ := Prod.mk.inj (Option.some.inj h)
    exact .settleFrom hw ref f rfl
  | reap =>
    obtain ⟨rfl, rfl⟩ := Prod.mk.inj (Option.some.inj h)
    exact .settles hw fun _ => PendingAcks.fate_reap _ _
  | sendNext k =>
    obtain ⟨s₁, hs₁, hv⟩ := Option.map_eq_some_iff.1 h
    obtain ⟨rfl, rfl⟩ := Prod.mk.inj hv
    exact .sendNext hw hs₁
  | _ => exact absurd ha (by simp [Act.tag, hubTags])

/-- **What an action does to the pending acks.** -/
theorem AckAct.exec_step {a : AckAct β} (hw : s.Wired) (h : exec cfg a e s = some (s', b))
    (hp : ∀ t, a.ends = some t → s.channels.lookup t.channel ≠ none) :
    AckStep s s' (Event.opens ⟨a, b⟩) (fun cid f => Event.settles ⟨a, b⟩ = some (cid, f)) := by
  cases a with
  | router a => exact Act.exec_ackStep hw h hp
  | cancelled t =>
    obtain ⟨rfl, rfl⟩ := Prod.mk.inj (Option.some.inj h)
    exact .refl hw
  | discard t =>
    obtain ⟨rfl, rfl⟩ := Prod.mk.inj (Option.some.inj h)
    exact .discardInflight hw t (hp t rfl)
  | ping k interval =>
    simp only [exec, Option.ite_none_left_eq_some, not_or, Bool.not_eq_true,
      Option.isSome_eq_false_iff, Option.isNone_iff_eq_none] at h
    obtain ⟨⟨hpending, hsettled⟩, hd⟩ := h
    rcases Router.sendPing_cases (Option.some.inj hd) with ⟨rfl, rfl⟩ | ⟨entry, hk, rfl, hs'⟩
    · exact .refl hw
    · exact .register (t := ⟨e.freshId, entry.channel⟩) hw ⟨k, entry, hk, rfl, rfl⟩
        hpending hsettled hs'

end

end Backplane
