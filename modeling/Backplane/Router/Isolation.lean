import Backplane.Router.Acks

/-!
# Isolation of acks

A future belongs to one delivery: only the agent the frame went to can settle it, what it is settled
with is the ack of that frame, and nothing is left of it once the wait is over.

* `AckIsolated` : the property.
* `ackTickets` : a coroutine waits for its own tickets only.
* `AckInv` : tickets are unique, what is in flight on a channel was registered there, and a future
  is settled once; `AckInv.step`, `ackInv_of_run`.
* `acks_isolated` : the property holds in every run in which no Pong settles the future of a delivery
  and no wait is cancelled before its future is settled.
* `pong_settles_delivery`, `cancelled_wait_leaks` : each exception is needed.
-/

namespace Backplane

open Concur Prog

/-! ### The property -/

/-- A future was registered with this ticket. -/
def Opened (log : Log AckAct) (t : Ticket) : Prop := ∃ x ∈ log, x.2.opens = some t

/-- The event that a frame was handed to an agent and its ack is awaited. -/
abbrev AckAct.delivery (dst : AgentId) (m : Frame) (t : Ticket) : Event AckAct :=
  ⟨.router (.deliverAwait dst m), .ok t⟩

/-- A frame with this ticket was handed to the agent. -/
def DeliveredTo (log : Log AckAct) (dst : AgentId) (t : Ticket) : Prop :=
  ∃ i m, (i, AckAct.delivery dst m t) ∈ log

/-- The frame is an Ack for the id. -/
def Frame.Acks (f : Frame) (cid : CorrelationId) : Prop :=
  ∃ g, f = .ack g ∧ g.refCorrelationId = cid

/-- Futures of deliveries are settled by the right agent with the right frame, and removed. -/
structure AckIsolated (P : AckPool) : Prop where
  /-- A frame on a socket settles the future of a delivery only if the socket is the agent's the
  frame went to. -/
  sender : ∀ dst t, DeliveredTo P.log dst t → ∀ k e f, P.shared.sockets.lookup k = some e →
    (P.shared.settleFrom k t.correlationId f).correlation ≠ P.shared.correlation → e.agentId = dst
  /-- What `deliver_frame` returns is an Ack for the frame it sent. -/
  acked : ∀ i dst m tr f, tr <:+: P.past i →
    After ((deliverFrame dst m).expand cancellable) tr (.ret (some (.ok f))) →
    ∃ t, AckAct.delivery dst m t ∈ tr ∧ f.Acks t.correlationId
  /-- Once it has returned or raised, its future is no longer pending. -/
  removed : ∀ i dst m tr r, tr <:+: P.past i →
    After ((deliverFrame dst m).expand cancellable) tr (.ret r) →
    ∀ t, AckAct.delivery dst m t ∈ tr → P.shared.correlation.pending.lookup t.correlationId = none

/-- What `deliver_frame` may have done when it is over: it could not send, its wait was cancelled, or
the future was settled. -/
theorem deliverFrame_after {dst : AgentId} {m : Frame} {tr : List (Event AckAct)}
    {r : Option (Except DeliverExn Frame)}
    (h : After ((deliverFrame dst m).expand cancellable) tr (.ret r)) :
    (∃ x e, tr = [⟨.router (.deliverAwait dst m), .error x⟩] ∧ r = some (.error e)) ∨
      ∃ t, (tr = [AckAct.delivery dst m t, ⟨.cancelled t, true⟩, ⟨.discard t, ()⟩] ∧ r = none) ∨
        ∃ v, tr = [AckAct.delivery dst m t, ⟨.cancelled t, false⟩, ⟨.router (.awaitAck t), v⟩] ∧
          ∀ f, r = some (.ok f) → v = .frame f := by
  obtain ⟨out, tr₁, rfl, h₁⟩ := After.perform_bind h
  rcases out with x | t
  · left
    obtain ⟨e, he, rfl⟩ : ∃ e, r = some (.error e) ∧ tr₁ = [] := by
      cases x <;> exact ⟨_, (After.ret_iff.1 h₁).2.symm, (After.ret_iff.1 h₁).1⟩
    exact ⟨x, e, rfl, he⟩
  refine .inr ⟨t, ?_⟩
  obtain ⟨hit, tr₂, rfl, h₂⟩ := After.perform_bind h₁
  cases hit with
  | true =>
    obtain ⟨_, tr₃, rfl, h₃⟩ := After.perform_bind h₂
    obtain ⟨rfl, rfl⟩ := After.ret_iff.1 h₃
    exact .inl ⟨rfl, rfl⟩
  | false =>
    obtain ⟨v, tr₃, rfl, h₃⟩ := After.perform_bind h₂
    refine .inr ⟨v, ?_⟩
    cases v with
    | frame g =>
      obtain ⟨rfl, rfl⟩ := After.ret_iff.1 h₃
      refine ⟨rfl, fun f hf => ?_⟩
      obtain rfl := Except.ok.inj (Option.some.inj hf)
      rfl
    | timeout | connectionError =>
      obtain ⟨rfl, rfl⟩ := After.ret_iff.1 h₃
      exact ⟨rfl, fun f hf => absurd hf (by simp)⟩

/-! ### Tickets in hand -/

/-- A coroutine waits only for futures it has registered itself; it knows its tickets. -/
def ackTickets : Discipline AckAct (List Ticket) where
  ok q a := ∀ t, a.ends = some t → t ∈ q
  ans _ _ := True
  next q a b := (Event.opens ⟨a, b⟩).toList ++ q

/-- The same, of the actions of the router. -/
def routerTickets : Discipline Act (List Ticket) where
  ok q a := ackTickets.ok q (.router a)
  ans _ _ := True
  next q a b := ackTickets.next q (.router a) b

section

variable {cfg : Config} {β : Type} {a : Act β} {t : Ticket} {q : List Ticket}

theorem ends_router (ha : a.tag ≠ .awaitAck) : (AckAct.router a).ends = none := by
  cases a <;> first | rfl | exact absurd rfl ha

theorem routerTickets_safe (ha : a.tag ≠ .awaitAck) : routerTickets.Safe (fun _ => True) a :=
  fun _ _ => ⟨fun t ht => absurd ((ends_router ha).symm.trans ht) (by simp), fun _ _ => trivial⟩

theorem Uses.tickets {α : Type} {p : Coroutine α} {T : List Tag} (h : Uses p T)
    (hT : Tag.awaitAck ∉ T) : routerTickets.Keeps (fun _ => True) p :=
  h.keeps fun _ ha => routerTickets_safe fun hg => hT (hg ▸ ha)

theorem tickets_deliverFrame (dst : AgentId) (m : Frame) :
    routerTickets.Keeps (fun _ => True) (deliverFrame dst m) := by
  intro q _
  refine Discipline.obeys_perform_bind.2 ⟨fun t ht => absurd ht (by simp [AckAct.ends]), ?_⟩
  rintro ((_ | _ | _) | t) -
  iterate 3 trivial
  refine Discipline.obeys_perform_bind.2 ⟨?_, fun v _ => by cases v <;> trivial⟩
  rintro _ ⟨⟩
  exact List.mem_cons_self

theorem tickets_keeps : KeepsTasks cfg routerTickets fun _ => True where
  plain a ha := routerTickets_safe fun hg => absurd (hg ▸ ha) (by decide)
  progress _ _ := routerTickets_safe (by simp [Act.tag])
  complete _ _ := uses_completeTask.tickets (by decide)
  cancel _ _ _ _ := (uses_cancelTask _ _ _ _).tickets (by decide)
  fail _ _ _ := (uses_failTask _ _ _).tickets (by decide)
  admission f _ := keeps_admitTask f
    (fun a ha => routerTickets_safe fun hg => absurd (hg ▸ ha) (by decide)) tickets_deliverFrame
    fun _ _ _ _ _ => (uses_safeFail _ _ _ _ _).tickets (by decide)

theorem tickets_awaitFuture (ht : t ∈ q) :
    ackTickets.Obeys q (awaitFuture t) fun q' _ => q' = q := by
  have hends : ∀ x, some t = some x → x ∈ q := by
    rintro _ ⟨⟩
    exact ht
  refine Discipline.obeys_perform_bind.2 ⟨fun x hx => absurd hx (by simp [AckAct.ends]), ?_⟩
  rintro (_ | _) -
  · exact ⟨hends, fun _ _ => rfl⟩
  · exact ⟨hends, fun _ _ => rfl⟩

theorem tickets_cancellable (a : Act β) (q : List Ticket) (hok : routerTickets.ok q a) :
    ackTickets.Obeys q (cancellable a) fun q' r =>
      ∀ b, r = some b → routerTickets.ans a b ∧ q' = routerTickets.next q a b := by
  cases a with
  | awaitAck t =>
    exact (tickets_awaitFuture (hok t rfl)).mono fun q' r hq v _ => ⟨trivial, hq⟩
  | _ =>
    refine ⟨hok, ?_⟩
    rintro b - _ ⟨⟩
    exact ⟨trivial, rfl⟩

theorem tickets_body (c : AckCall) : ackTickets.Obeys [] (c.body cfg) fun _ _ => True := by
  cases c with
  | router c =>
    refine Discipline.obeys_bind.2 (((tickets_keeps.body c [] trivial).expand
      tickets_cancellable).mono fun _ _ _ => trivial)
  | heartbeat k interval =>
    refine Discipline.obeys_perform_bind.2 ⟨fun t ht => absurd ht (by simp [AckAct.ends]), ?_⟩
    rintro (_ | t) -
    · trivial
    · exact Discipline.obeys_bind.2 ((tickets_awaitFuture List.mem_cons_self).mono fun _ _ _ => trivial)

end

/-! ### What futures are settled with -/

/-- A future is settled with an Ack that names it, or with a Pong. -/
def AckAct.Tied {β : Type} (a : AckAct β) : Prop :=
  ∀ b cid f, Event.settles ⟨a, b⟩ = some (cid, f) → f.Acks cid ∨ ∃ g, f = .pong g

section

variable {cfg : Config} {β : Type} {a : Act β}

theorem tied_router (ha : a.tag ≠ .settle) : (AckAct.router a).Tied := by
  intro b cid f h
  cases a <;> first | exact absurd rfl ha | exact absurd h (by simp [Event.settles])

theorem tied_cancellable (h : (AckAct.router a).Tied) : (cancellable a).Only AckAct.Tied := by
  cases a with
  | awaitAck t =>
    refine ⟨fun b cid f hf => absurd hf (by simp [Event.settles]), fun hit => ?_⟩
    cases hit <;> exact ⟨fun b cid f hf => absurd hf (by simp [Event.settles]), fun _ => trivial⟩
  | _ => exact ⟨h, fun _ => trivial⟩

theorem Uses.tied {α : Type} {p : Coroutine α} {T : List Tag} (h : Uses p T) (hT : Tag.settle ∉ T) :
    p.Only fun a => (AckAct.router a).Tied :=
  Only.mono h fun _ ha => tied_router fun hg => hT (hg ▸ ha)

theorem tied_dispatchFrame (k : SocketId) (x : AgentId) (m : Envelope) :
    (dispatchFrame cfg k x m).Only fun a => (AckAct.router a).Tied := by
  unfold dispatchFrame
  split
  · exact (uses_handleNewTask _).tied (by decide)
  · exact (uses_handleResult _).tied (by decide)
  · exact (uses_handleProgress _).tied (by decide)
  · exact (uses_handleCancel _).tied (by decide)
  · refine only_perform.2 ?_
    rintro b _ _ ⟨⟩
    exact .inl ⟨_, rfl, rfl⟩
  · exact only_perform.2 (tied_router (by simp [Act.tag]))
  · refine only_perform.2 ?_
    rintro b _ _ ⟨⟩
    exact .inr ⟨_, rfl⟩
  · exact (uses_handleFileStore _).tied (by decide)
  · trivial

theorem tied_body (c : AckCall) : (c.body cfg).Only AckAct.Tied := by
  cases c with
  | router c =>
    refine Only.bind (Only.expand (Only.mono ?_ fun _ => tied_cancellable)) fun _ => trivial
    by_cases hc : Tag.settle ∈ c.tags
    · cases c with
      | frame k x m => exact (tied_dispatchFrame k x m).bind fun _ => trivial
      | _ => exact absurd hc (by simp only [Call.tags]; decide)
    · exact (uses_call_body c).tied hc
  | heartbeat k interval =>
    have hping : (AckAct.ping k interval).Tied :=
      fun b cid f hf => absurd hf (by simp [Event.settles])
    refine Only.bind (only_perform.2 hping) fun out => ?_
    cases out with
    | none => trivial
    | some t =>
      refine Only.bind (tied_cancellable (a := .awaitAck t) ?_) fun _ => trivial
      exact tied_router (by simp [Act.tag])

end

/-! ### The invariant -/

/-- What holds of the tickets, the ids in flight and the futures. -/
structure AckInv (s : Router) (log : Log AckAct) : Prop where
  /-- Sockets and channels are as they should. -/
  wired : s.Wired
  /-- A settled future is not pending. -/
  once : ∀ cid v, s.correlation.settled.lookup cid = some v →
    s.correlation.pending.lookup cid = none
  /-- A registered future is pending until it is settled. -/
  known : ∀ t, Opened log t → s.correlation.settled.lookup t.correlationId = none →
    s.correlation.pending.lookup t.correlationId ≠ none
  /-- An id is registered once. -/
  sole : ∀ t t', Opened log t → Opened log t' → t.correlationId = t'.correlationId → t = t'
  /-- What is in flight on a channel was registered there. -/
  inflight : ∀ ch cid, cid ∈ (s.channel ch).inflight → Opened log ⟨cid, ch⟩
  /-- The channel of a ticket is somebody's. -/
  owned : ∀ t, Opened log t → ∃ a, s.Owns a t.channel
  /-- The channel of a delivery is the addressee's. -/
  owns : ∀ dst t, DeliveredTo log dst t → s.Owns dst t.channel
  /-- A frame that settled the future of a delivery is its Ack. -/
  acked : ∀ dst t f, DeliveredTo log dst t →
    s.correlation.settled.lookup t.correlationId = some (.frame f) → f.Acks t.correlationId
  /-- A wait yields what the future was settled with. -/
  awaited : ∀ i t v, (i, ⟨.router (.awaitAck t), v⟩) ∈ log →
    s.correlation.settled.lookup t.correlationId = some v
  /-- A cancelled wait was one for a settled future. -/
  discarded : ∀ i t u, (i, ⟨.discard t, u⟩) ∈ log → Opened log t ∧
    ∀ dst, DeliveredTo log dst t → s.correlation.settled.lookup t.correlationId ≠ none

section

variable {cfg : Config} {s s' : Router} {log : Log AckAct} {i : ℕ} {x : Event AckAct} {t t' : Ticket}
  {dst : AgentId} {cid : CorrelationId} {v : Settled}

theorem opened_append :
    Opened (log ++ [(i, x)]) t ↔ Opened log t ∨ x.opens = some t := by
  simp [Opened, or_and_right, exists_or]

theorem deliveredTo_append :
    DeliveredTo (log ++ [(i, x)]) dst t ↔
      DeliveredTo log dst t ∨ ∃ m, x = AckAct.delivery dst m t := by
  simp only [DeliveredTo, List.mem_append, List.mem_singleton, Prod.mk.injEq, exists_or]
  constructor
  · rintro (h | ⟨j, m, -, h⟩)
    · exact .inl h
    · exact .inr ⟨m, h.symm⟩
  · rintro (h | ⟨m, h⟩)
    · exact .inl h
    · exact .inr ⟨i, m, rfl, h.symm⟩

theorem DeliveredTo.opened (h : DeliveredTo log dst t) : Opened log t := by
  obtain ⟨i, m, hm⟩ := h
  exact ⟨_, hm, rfl⟩

variable {frames : CorrelationId → Frame → Prop}

/-- An id that is registered now was not registered before. -/
theorem AckInv.fresh (h : AckInv s log) (hs : AckStep s s' x.opens frames)
    (ht : x.opens = some t) (ht' : Opened log t') : t.correlationId ≠ t'.correlationId := by
  intro he
  obtain ⟨hpending, hsettled, -, -⟩ := hs.opened t ht
  exact h.known t' ht' (he ▸ hsettled) (he ▸ hpending)

/-- What a future was settled with stays. -/
theorem AckInv.settled_mono (h : AckInv s log) (hs : AckStep s s' x.opens frames)
    (hv : s.correlation.settled.lookup cid = some v) :
    s'.correlation.settled.lookup cid = some v := by
  have hnew : ∀ t, x.opens = some t → t.correlationId ≠ cid := by
    intro t ht he
    obtain ⟨-, hsettled, -⟩ := hs.opened t ht
    rw [he, hv] at hsettled
    exact absurd hsettled (by simp)
  rcases hs.fate cid hnew with ⟨-, hsame⟩ | ⟨w, hpending, -⟩
  · exact hsame.trans hv
  · exact absurd (h.once cid v hv) hpending

theorem AckInv.step (h : AckInv s log)
    (hs : AckStep s s' x.opens fun cid f => x.settles = some (cid, f))
    (hdst : ∀ dst m t, x = AckAct.delivery dst m t → s.Owns dst t.channel)
    (hframe : ∀ cid f, x.settles = some (cid, f) → f.Acks cid ∨
      ∀ dst t, DeliveredTo log dst t → t.correlationId = cid → s'.correlation = s.correlation)
    (hawait : ∀ t v, x = ⟨.router (.awaitAck t), v⟩ →
      s.correlation.settled.lookup t.correlationId = some v)
    (hdiscard : ∀ t u, x = ⟨.discard t, u⟩ → Opened log t ∧
      ∀ dst, DeliveredTo log dst t → s.correlation.settled.lookup t.correlationId ≠ none) :
    AckInv s' (log ++ [(i, x)]) := by
  -- an id is registered by this action, or it is settled or left alone
  have hfate : ∀ cid, (∃ t, x.opens = some t ∧ t.correlationId = cid) ∨
      s.correlation.Fate s'.correlation cid fun f => x.settles = some (cid, f) := by
    intro cid
    by_cases hx : ∃ t, x.opens = some t ∧ t.correlationId = cid
    · exact .inl hx
    · exact .inr (hs.fate cid fun t ht he => hx ⟨t, ht, he⟩)
  constructor
  · exact hs.wired
  · intro cid v hv
    rcases hfate cid with ⟨t, ht, rfl⟩ | ⟨hpending, hsettled⟩ | ⟨-, -, hpending, -⟩
    · exact absurd hv (by simp [(hs.opened t ht).2.2.2])
    · exact hpending.trans (h.once cid v (hsettled.symm.trans hv))
    · exact hpending
  · intro t ht hnone
    rcases opened_append.1 ht with hold | hnew
    · rcases hfate t.correlationId with ⟨t', ht', he⟩ | ⟨hpending, hsettled⟩ | ⟨v, -, -, hv, -⟩
      · exact absurd he (h.fresh hs ht' hold)
      · rw [hpending]
        exact h.known t hold (hsettled.symm.trans hnone)
      · exact absurd (hv.symm.trans hnone) (by simp)
    · exact (hs.opened t hnew).2.2.1
  · intro t t' ht ht' he
    rcases opened_append.1 ht with hold | hnew <;> rcases opened_append.1 ht' with hold' | hnew'
    · exact h.sole t t' hold hold' he
    · exact absurd he.symm (h.fresh hs hnew' hold)
    · exact absurd he (h.fresh hs hnew hold')
    · exact Option.some.inj (hnew.symm.trans hnew')
  · exact fun ch cid hi => opened_append.2 ((hs.inflight hi).imp_left (h.inflight ch cid))
  · intro t ht
    obtain ⟨a, ha⟩ := (opened_append.1 ht).elim (h.owned t) (hs.owned t)
    exact ⟨a, hs.owns ha⟩
  · intro dst t ht
    rcases deliveredTo_append.1 ht with hold | ⟨m, hnew⟩
    · exact hs.owns (h.owns dst t hold)
    · exact hs.owns (hdst dst m t hnew)
  · intro dst t f ht hf
    rcases deliveredTo_append.1 ht with hold | ⟨m, rfl⟩
    · rcases hfate t.correlationId with ⟨t', ht', he⟩ | ⟨-, hsettled⟩ | ⟨v, hpending, hnone, hv, hset⟩
      · exact absurd he (h.fresh hs ht' hold.opened)
      · exact h.acked dst t f hold (hsettled.symm.trans hf)
      · obtain rfl := Option.some.inj (hv.symm.trans hf)
        rcases hframe _ f (hset f rfl) with hack | hsame
        · exact hack
        · rw [hsame dst t hold rfl] at hnone
          exact absurd hnone hpending
    · exact absurd hf (by simp [(hs.opened t rfl).2.2.2])
  · intro j t v ht
    rcases List.mem_append.1 ht with hold | hnew
    · exact h.settled_mono hs (h.awaited j t v hold)
    · obtain ⟨rfl, rfl⟩ := Prod.mk.inj (List.mem_singleton.1 hnew)
      exact h.settled_mono hs (hawait t v rfl)
  · intro j t u ht
    have hkept : Opened log t ∧ (∀ dst, DeliveredTo log dst t →
        s.correlation.settled.lookup t.correlationId ≠ none) := by
      rcases List.mem_append.1 ht with hold | hnew
      · exact h.discarded j t u hold
      · obtain ⟨rfl, rfl⟩ := Prod.mk.inj (List.mem_singleton.1 hnew)
        exact hdiscard t u rfl
    refine ⟨opened_append.2 (.inl hkept.1), fun dst hd => ?_⟩
    rcases deliveredTo_append.1 hd with hold | ⟨m, rfl⟩
    · obtain ⟨v, hv⟩ := Option.ne_none_iff_exists'.1 (hkept.2 dst hold)
      rw [h.settled_mono hs hv]
      simp
    · exact absurd rfl (h.fresh hs rfl hkept.1)

theorem ackInv_boot (d : Deployment) : AckInv d.boot [] := by
  have hnone : ∀ t, ¬ Opened [] t := fun t h => by simp [Opened] at h
  have hnobody : ∀ a ch, ¬ d.boot.Owns a ch := by
    rintro a ch ⟨k, e, he, -⟩
    exact absurd he (by simp [Deployment.boot])
  have hwired : d.boot.Wired := ⟨.empty, .empty, fun h => (hnobody _ _ h).elim,
    fun h => (hnobody _ _ h).elim, fun h => absurd h (by simp [Deployment.boot]),
    fun h => absurd h (by simp [Deployment.boot])⟩
  exact ⟨hwired, fun _ _ h => absurd h (by simp [Deployment.boot]), fun t h => (hnone t h).elim,
    fun t _ h => (hnone t h).elim, fun ch cid h => absurd h (by simp [Deployment.boot, Router.channel]),
    fun t h => (hnone t h).elim, fun _ t h => (hnone t h.opened).elim,
    fun _ t _ h => (hnone t h.opened).elim, fun _ _ _ h => absurd h (by simp),
    fun _ _ _ h => absurd h (by simp)⟩

end

/-! ### Every run -/

/-- The action neither settles the future of a delivery with a Pong, nor ends a wait of
`deliver_frame` whose future is still pending. -/
def AckAct.Orderly (s : Router) (log : Log AckAct) : {β : Type} → AckAct β → Prop
  | _, .router (.settle k ref (.pong g)) => ∀ dst t, DeliveredTo log dst t →
      t.correlationId = ref → (s.settleFrom k ref (.pong g)).correlation = s.correlation
  | _, .discard t => ∀ dst, DeliveredTo log dst t →
      s.correlation.pending.lookup t.correlationId = none
  | _, _ => True

/-- Every action is orderly. -/
def orderlyAcks : Guard AckAct Env Router AckCall Unit where
  start _ _ := True
  fire P _ _ a _ := a.Orderly P.shared P.log

section

variable {cfg : Config} {d : Deployment} {P : AckPool}

theorem settles_eq_some {x : Event AckAct} {cid : CorrelationId} {f : Frame}
    (h : x.settles = some (cid, f)) : ∃ k, x = ⟨.router (.settle k cid f), ()⟩ := by
  unfold Event.settles at h
  split at h
  · obtain ⟨rfl, rfl⟩ := Prod.mk.inj (Option.some.inj h)
    exact ⟨_, rfl⟩
  · exact absurd h (by simp)

theorem owns_of_delivery {s s' : Router} {e : Env} {dst : AgentId} {m : Frame} {t : Ticket}
    (hw : s.Wired) (he : Act.exec cfg (.deliverAwait dst m) e s = some (s', .ok t)) :
    s.Owns dst t.channel := by
  simp only [Act.exec, Option.ite_none_left_eq_some] at he
  rcases Router.deliverAwait_cases hw (Option.some.inj he.2) with ⟨_, h, -⟩ | ⟨ch, h, ho, -⟩
  · exact absurd h (by simp)
  · obtain rfl := Except.ok.inj h
    exact ho

theorem sound_acks (cfg : Config) (d : Deployment) :
    Sound (acks cfg) orderlyAcks ackTickets (fun _ => []) d.boot AckInv
      fun _ _ q _ log => ∀ t ∈ q, Opened log t where
  init := ackInv_boot d
  start _ _ _ t ht := absurd ht (by simp)
  step {P i c β a k e s b q} hrun hth hg he hinv hq hok := by
    have hs := AckAct.exec_step hinv.wired he fun t ht => by
      obtain ⟨x, hx⟩ := hinv.owned t (hq t (hok t ht))
      exact hinv.wired.present hx
    have htied : a.Tied := ((hrun.after hth).only (tied_body c)).2.1
    refine ⟨trivial, hinv.step hs ?_ ?_ ?_ ?_, fun t ht => ?_⟩
    · rintro dst m t ⟨⟩
      have hact : Act.exec cfg (.deliverAwait dst m) e P.shared = some (s, .ok t) := he
      exact owns_of_delivery hinv.wired hact
    · intro cid f hf
      refine (htied b cid f hf).imp_right ?_
      rintro ⟨g, rfl⟩ dst t hd rfl
      obtain ⟨k, hx⟩ := settles_eq_some hf
      cases hx
      obtain ⟨rfl, -⟩ := Prod.mk.inj (Option.some.inj he)
      exact hg dst t hd rfl
    · rintro t v ⟨⟩
      obtain ⟨w, hw, hv⟩ := Option.map_eq_some_iff.1 he
      obtain ⟨rfl, rfl⟩ := Prod.mk.inj hv
      exact hw
    · rintro t u ⟨⟩
      refine ⟨hq t (hok t rfl), fun dst hd hnone => ?_⟩
      exact hinv.known t hd.opened hnone (hg dst hd)
    · rcases List.mem_append.1 ht with ht | ht
      · exact opened_append.2 (.inr (Option.mem_toList.1 ht))
      · exact opened_append.2 (.inl (hq t ht))
  frame _ _ _ _ _ _ _ _ _ _ _ hq' t ht := opened_append.2 (.inl (hq' t ht))

/-- **Acks are isolated** in every run in which no Pong settles the future of a delivery and no wait
of `deliver_frame` is cancelled before its future is settled. -/
theorem acks_isolated (h : Run (acks cfg) orderlyAcks (.init d.boot) P) : AckIsolated P := by
  have hinv : AckInv P.shared P.log := ((sound_acks cfg d).of_run tickets_body h).1
  have hpast : ∀ {i x tr}, tr <:+: P.past i → x ∈ tr → (i, x) ∈ P.log :=
    fun htr hx => Log.mem_past.1 (htr.subset hx)
  constructor
  · intro dst t ht k e f hk hne
    -- the id is in flight on the channel of the socket, so that is where it was registered
    have hin : t.correlationId ∈ (P.shared.channel e.channel).inflight := by
      by_contra hout
      exact hne (by simp only [Router.settleFrom, hk, if_neg hout])
    have hch : e.channel = t.channel :=
      congrArg Ticket.channel (hinv.sole _ t (hinv.inflight _ _ hin) ht.opened rfl)
    refine hinv.wired.sole ⟨k, e, hk, rfl, rfl⟩ ?_
    rw [hch]
    exact hinv.owns dst t ht
  · intro i dst m tr f htr hf
    rcases deliverFrame_after hf with ⟨_, _, -, h⟩ | ⟨t, ⟨-, h⟩ | ⟨v, rfl, hv⟩⟩
    · exact absurd h (by simp)
    · exact absurd h (by simp)
    · obtain rfl := hv f rfl
      refine ⟨t, List.mem_cons_self, hinv.acked dst t f ⟨i, m, hpast htr List.mem_cons_self⟩ ?_⟩
      exact hinv.awaited i t _ (hpast htr (by simp))
  · intro i dst m tr r htr hr t ht
    have hd : DeliveredTo P.log dst t := ⟨i, m, hpast htr ht⟩
    have hopens : ∀ {l : List (Event AckAct)}, AckAct.delivery dst m t ∈ l →
        t ∈ l.filterMap Event.opens := fun hl => List.mem_filterMap.2 ⟨_, hl, rfl⟩
    obtain ⟨v, hv⟩ : ∃ v, P.shared.correlation.settled.lookup t.correlationId = some v := by
      rcases deliverFrame_after hr with ⟨x, _, rfl, -⟩ | ⟨t', ⟨rfl, -⟩ | ⟨v, rfl, -⟩⟩
      · exact absurd ht (by simp)
      · obtain rfl : t = t' := List.mem_singleton.1 (hopens ht)
        exact Option.ne_none_iff_exists'.1 ((hinv.discarded i t () (hpast htr (by simp))).2 dst hd)
      · obtain rfl : t = t' := List.mem_singleton.1 (hopens ht)
        exact ⟨v, hinv.awaited i t v (hpast htr (by simp))⟩
    exact hinv.once _ v hv

end

/-! ### Runs -/

namespace Sample

/-- A decision in the router is one in the router with heartbeats. -/
def acking : Move Env Call → Move Env AckCall
  | .start c => .start (.router c)
  | .step i e => .step i e

/-- `a` spawns task `t` on `b`; coroutine `3` has put the frame, with the id `k`, in `b`'s outbox. -/
def handed : List (Move Env AckCall) :=
  (connected ++ [receive 0 "a" (.newTask (spawn "a" "b"))] ++ steps 3 5 ++
    [step 3 "t", step 3, step 3 "k"]).map acking

/-- `b` answers with a frame (coroutine `4`), and coroutine `3` gets it. -/
def answered (f : Frame) : List (Move Env AckCall) :=
  handed ++ [acking (receive 1 "b" f), .step 4 {}, .step 3 {}, .step 3 {}]

/-- Neither a Pong nor a cancelled wait. -/
def noPong {β : Type} (_ : AckPool) (_ : ℕ) (_ : AckCall) : AckAct β → Env → Bool
  | .router (.settle _ _ (.pong _)), _ => false
  | .discard _, _ => false
  | _, _ => true

/-- The delivery the coroutine with this past, the newest event first, has just waited for, and what
its future was settled with. -/
def waited : List (Event AckAct) → Option (AgentId × Ticket × Settled)
  | ⟨.router (.awaitAck t), v⟩ :: ⟨.cancelled t₁, false⟩ ::
      ⟨.router (.deliverAwait dst _), .ok t₂⟩ :: _ =>
    if t₁ = t ∧ t₂ = t then some (dst, t, v) else none
  | _ => none

/-- The delivery the wait for which was just cancelled. -/
def struck : List (Event AckAct) → Option (AgentId × Ticket)
  | ⟨.discard t, _⟩ :: ⟨.cancelled t₁, true⟩ :: ⟨.router (.deliverAwait dst _), .ok t₂⟩ :: _ =>
    if t₁ = t ∧ t₂ = t then some (dst, t) else none
  | _ => none

theorem waited_eq_some {l : List (Event AckAct)} {dst : AgentId} {t : Ticket} {v : Settled}
    (h : waited l.reverse = some (dst, t, v)) : ∃ m,
    [AckAct.delivery dst m t, ⟨.cancelled t, false⟩, ⟨.router (.awaitAck t), v⟩] <:+: l := by
  unfold waited at h
  split at h
  · rename_i m _ _ heq
    split_ifs at h with ht
    obtain ⟨rfl, rfl⟩ := ht
    obtain ⟨rfl, hv⟩ := Prod.mk.inj (Option.some.inj h)
    obtain ⟨rfl, rfl⟩ := Prod.mk.inj hv
    refine ⟨m, List.IsSuffix.isInfix (List.reverse_prefix.1 ?_)⟩
    rw [heq]
    exact ⟨_, rfl⟩
  · exact absurd h (by simp)

end Sample

/-- `b` acks the frame. -/
theorem acks_isolated_answered : ∃ P, (acks {}).run Sample.noPong (.init Sample.deployment.boot)
      (Sample.answered (.ack (Sample.ack "b" "k" true))) = some P ∧
    Sample.waited (P.past 3).reverse =
      some ("b", ⟨"k", 1⟩, .frame (.ack (Sample.ack "b" "k" true))) ∧ AckIsolated P := by
  have hplay : (((acks {}).run Sample.noPong (.init Sample.deployment.boot)
      (Sample.answered (.ack (Sample.ack "b" "k" true)))).map fun P =>
        Sample.waited (P.past 3).reverse) =
      some (some ("b", ⟨"k", 1⟩, .frame (.ack (Sample.ack "b" "k" true)))) := by
    decide +kernel
  obtain ⟨P, hP, hw⟩ := Option.map_eq_some_iff.1 hplay
  refine ⟨P, hP, hw, acks_isolated (Run.of_run (fun _ _ => trivial) ?_ hP)⟩
  intro β Q i c a e hc
  show a.Orderly Q.shared Q.log
  unfold Sample.noPong at hc
  split at hc
  · exact absurd hc (by simp)
  · exact absurd hc (by simp)
  · unfold AckAct.Orderly
    split
    · rename_i h _
      exact (h _ _ _ rfl HEq.rfl).elim
    · rename_i h
      exact (h _ rfl HEq.rfl).elim
    · trivial

/-- `b` answers the frame with a Pong, and `deliver_frame` returns it. -/
theorem pong_settles_delivery : ¬ ∀ (cfg : Config) (d : Deployment) (P : AckPool),
    Run (acks cfg) .free (.init d.boot) P → AckIsolated P := by
  intro hall
  have hplay : (((acks {}).run (fun _ _ _ _ _ => true) (.init Sample.deployment.boot)
      (Sample.answered (.pong ⟨Sample.header "b", "k"⟩))).map fun P =>
        Sample.waited (P.past 3).reverse) =
      some (some ("b", ⟨"k", 1⟩, .frame (.pong ⟨Sample.header "b", "k"⟩))) := by
    decide +kernel
  obtain ⟨P, hP, hw⟩ := Option.map_eq_some_iff.1 hplay
  obtain ⟨m, hm⟩ := Sample.waited_eq_some hw
  have hrun : Run (acks {}) .free (.init Sample.deployment.boot) P :=
    Run.of_run (fun _ _ => trivial) (fun _ _ _ _ _ _ => trivial) hP
  obtain ⟨t, -, g, hg, -⟩ := (hall {} Sample.deployment P hrun).acked 3 "b" m _ _ hm
    (.cons (.cons (.cons (.nil _))))
  exact absurd hg (by simp)

/-- The wait for `b`'s ack is cancelled, and the future stays in the map. -/
theorem cancelled_wait_leaks : ∃ P : AckPool, Run (acks {}) .free (.init Sample.deployment.boot) P ∧
    Sample.struck (P.past 3).reverse = some ("b", ⟨"k", 1⟩) ∧
      P.shared.correlation.pending.lookup "k" = some 31 := by
  have hplay : (((acks {}).run (fun _ _ _ _ _ => true) (.init Sample.deployment.boot)
      (Sample.handed ++ [.step 3 { fault := true }, .step 3 {}])).map fun P =>
        (Sample.struck (P.past 3).reverse, P.shared.correlation.pending.lookup "k")) =
      some (some ("b", ⟨"k", 1⟩), some 31) := by
    decide +kernel
  obtain ⟨P, hP, h⟩ := Option.map_eq_some_iff.1 hplay
  obtain ⟨hw, hk⟩ := Prod.mk.inj h
  exact ⟨P, Run.of_run (fun _ _ => trivial) (fun _ _ _ _ _ _ => trivial) hP, hw, hk⟩

end Backplane
