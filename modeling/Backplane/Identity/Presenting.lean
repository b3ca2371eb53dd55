import Backplane.Concur.Trace
import Backplane.Identity.Tokens
import Mathlib.Data.List.Induction

/-!
# Who presents an agent token

An agent token names its agent by id, and is good until it expires or is revoked.  Nothing else in it
says which of the agents that have had the id it was for.

* `stale` : the agent has been evicted, and something not been renewed since.
* `Auth`, `authenticating` : what a request that presents a token knows.
* `Change.activates` : the transactions that make an agent active.
* `spent` : no stale token of an agent that becomes active is good or under way.
* `Fresh`, `fresh_of_run` : then none of an active agent ever is.
* `Fresh.rejects` : and no request that presents one finds an active agent.
-/

namespace Backplane

open Concur Prog

/-- The agent token a request presents. -/
def DirCall.presents : DirCall → Option AgentToken
  | handshake t _ _ | refreshAgentToken t _ => some t
  | _ => none

/-! ### Stale tokens -/

namespace Concur.Event

/-- An eviction of this agent commits. -/
def evicts (a : AgentId) (x : Event DirAct) : Bool :=
  match x.tx with
  | some (.evict a', _) => a' = a
  | _ => false

/-- This agent token is signed. -/
def signs (t : AgentToken) : Event DirAct → Bool
  | ⟨.issueAgentToken _, t'⟩ => t = t'
  | _ => false

/-- The agent looked up is active. -/
def finds : Event DirAct → Option Bool
  | ⟨.getAgent _, r⟩ => some (r.any fun r => r.status = .active)
  | _ => none

end Concur.Event

/-- The agent has been evicted, and none of these events has happened since. -/
def stale (log : Log DirAct) (a : AgentId) (renews : Event DirAct → Bool) : Bool :=
  log.foldl (fun b x => if x.2.evicts a then true else if renews x.2 then false else b) false

section

variable {log l : Log DirAct} {a : AgentId} {f : Event DirAct → Bool} {i : ℕ} {x : Event DirAct}

theorem stale_append : stale (log ++ [(i, x)]) a f =
    if x.evicts a then true else if f x then false else stale log a f := by
  simp [stale]

/-- What is stale stays so until it is renewed. -/
theorem stale_later (hs : stale log a f = true) (hl : ∀ y ∈ l, f y.2 = false) :
    stale (log ++ l) a f = true := by
  induction l using List.reverseRecOn with
  | nil => rwa [List.append_nil]
  | append_singleton l y ih =>
    have hlast : f y.2 = false := hl y (by simp)
    have hrest : stale (log ++ l) a f = true := ih fun z hz => hl z (List.mem_append_left _ hz)
    rw [← List.append_assoc, stale_append, hlast, hrest]
    simp

end

/-- The token is not good: never signed, expired, or revoked. -/
def AgentToken.dead (cfg : IdentitySettings) (s : Directory) (t : AgentToken) : Bool :=
  decide (t ∉ s.signed) || decide (t.expiresAt ≤ s.clock) || cfg.redis && decide (t.jti ∈ s.revokedJtis)

/-! ### Requests that present a token -/

/-- What a request knows of the token it presents. -/
structure Auth where
  token : Option AgentToken
  verified : Bool := false
  /-- It was not revoked. -/
  cleared : Bool := false
  /-- Its agent was active when last looked up. -/
  found : Bool := false

/-- A request looks its agent up only when its token has been verified and was not revoked. -/
def authenticating : Discipline DirAct Auth where
  ok q a := ∀ t, q.token = some t → match a with
    | .verifyAgentToken t' => t' = t ∧ q.cleared = false
    | .isJtiRevoked jti => jti = t.jti ∧ q.verified = true
    | .getAgent a => a = t.agentId ∧ q.verified = true ∧ q.cleared = true
    | .commit _ => False
    | _ => True
  ans _ _ := True
  next q a b := match a, b with
    | .verifyAgentToken _, b => { q with verified := b }
    | .isJtiRevoked _, b => { q with cleared := !b }
    | .getAgent _, r => { q with found := r.any fun r => r.status = .active }
    | _, _ => q

/-- What coroutine `i`, which serves this request, knows. -/
def authOf (log : Log DirAct) (i : ℕ) (c : DirCall) : Auth :=
  authenticating.after { token := c.presents } (log.past i)

section

variable {t : AgentToken} {a : AgentId} {q : Auth} {β : Type} {tr : List (Event DirAct)}

theorem token_next (x : DirAct β) (b : β) : (authenticating.next q x b).token = q.token := by
  cases x <;> rfl

theorem token_after : (authenticating.after q tr).token = q.token := by
  induction tr generalizing q with
  | nil => rfl
  | cons x tr ih => exact ih.trans (token_next x.act x.ans)

theorem found_next {x : Event DirAct} :
    (authenticating.next q x.act x.ans).found = x.finds.getD q.found := by
  obtain ⟨x, b⟩ := x
  cases x <;> rfl

/-- Of an agent that was never found active, no request has last found it so. -/
theorem found_after (hno : ∀ x ∈ tr, x.finds ≠ some true)
    (hf : (authenticating.after q tr).found = true) : ∀ x ∈ tr, x.finds = none := by
  induction tr using List.reverseRecOn with
  | nil => simp
  | append_singleton tr x ih =>
    simp only [Discipline.after, List.foldl_append, List.foldl_cons, List.foldl_nil] at hf
    rw [found_next] at hf
    have hx : x.finds = none := by
      cases hfx : x.finds with
      | none => rfl
      | some b =>
        rw [hfx, Option.getD_some] at hf
        exact absurd (hf ▸ hfx) (hno x (by simp))
    rw [hx, Option.getD_none] at hf
    intro y hy
    rcases List.mem_append.1 hy with hy | hy
    · exact ih (fun z hz => hno z (List.mem_append_left _ hz)) hf y hy
    · rw [List.mem_singleton.1 hy, hx]

/-- What a request returns that presents a token. -/
def Accounted (q : Auth) (r : Reply) : Prop := ∀ t, q.token = some t → ∀ o, r = .ok o → q.found = true

theorem obeys_unpresented {p : DirProg Reply} (hq : q.token = none) :
    authenticating.Obeys q p Accounted := by
  induction p generalizing q with
  | ret x => exact fun t ht => absurd (hq.symm.trans ht) (by simp)
  | act x k ih =>
    refine ⟨fun t ht => absurd (hq.symm.trans ht) (by simp), fun b _ => ih b ?_⟩
    exact (token_next x b).trans hq

theorem accounted_error {err : RequestFailure} : Accounted q (.error err) :=
  fun _ _ _ ho => absurd ho (by simp)

/-- A token that passes has been verified and was not revoked. -/
theorem obeys_authenticate {invalid mismatch : RequestFailure} :
    authenticating.Obeys { token := some t } (Identity.authenticate t a invalid mismatch)
      fun q r => q.token = some t ∧ (r = none → q.verified = true ∧ q.cleared = true) := by
  unfold Identity.authenticate
  refine Discipline.obeys_perform_bind.2 ⟨fun t' ht => ⟨Option.some.inj ht, rfl⟩, fun b _ => ?_⟩
  cases b with
  | false => exact ⟨rfl, by simp⟩
  | true =>
    refine Discipline.obeys_perform_bind.2 ⟨fun t' ht => ?_, fun b _ => ?_⟩
    · exact ⟨by rw [Option.some.inj ht], rfl⟩
    · cases b with
      | true => exact ⟨rfl, by simp⟩
      | false =>
        by_cases ha : t.agentId ≠ a
        · simp [ha, authenticating]
        · simp [ha, authenticating]

theorem letIn_accounted {r : Option AgentRecord}
    (hf : q.found = r.any fun r => r.status = .active) : Accounted q (Identity.letIn t r) := by
  intro _ _ o ho
  cases r with
  | none => exact absurd ho (by simp [Identity.letIn])
  | some r =>
    rw [Identity.letIn] at ho
    split_ifs at ho with hact
    rw [hf, Option.any_some, hact, decide_eq_true rfl]

theorem obeys_handshake (changed : Bool) :
    authenticating.Obeys { token := some t } (Identity.handshake t a changed) Accounted := by
  refine Discipline.obeys_bind.2 (obeys_authenticate.mono fun q r ⟨hq, hr⟩ => ?_)
  cases r with
  | some err => exact accounted_error
  | none =>
    have hok : authenticating.ok q (.getAgent t.agentId) := fun t' ht =>
      ⟨by rw [Option.some.inj (hq.symm.trans ht)], hr rfl⟩
    refine Discipline.obeys_perform_bind.2 ⟨hok, fun r _ => ?_⟩
    split_ifs
    · exact ⟨hok, fun r' _ => letIn_accounted rfl⟩
    · exact letIn_accounted rfl

theorem obeys_refreshAgentToken :
    authenticating.Obeys { token := some t } (Identity.refreshAgentToken t a) Accounted := by
  refine Discipline.obeys_bind.2 (obeys_authenticate.mono fun q r ⟨hq, hr⟩ => ?_)
  cases r with
  | some err => exact accounted_error
  | none =>
    refine Discipline.obeys_perform_bind.2 ⟨fun t' ht => ?_, fun r _ => ?_⟩
    · exact ⟨by rw [Option.some.inj (hq.symm.trans ht)], hr rfl⟩
    · split_ifs with hact
      · exact ⟨fun _ _ => trivial, fun t' _ => ⟨fun _ _ => trivial, fun _ _ _ _ _ _ => hact⟩⟩
      · exact accounted_error

/-- **A request that presents a token is accepted only if its agent was active when last looked
up.** -/
theorem obeys_body (c : DirCall) : authenticating.Obeys { token := c.presents } c.body Accounted := by
  cases c with
  | handshake t a changed => exact obeys_handshake changed
  | refreshAgentToken t a => exact obeys_refreshAgentToken
  | _ => exact obeys_unpresented rfl

end

/-! ### Agents that become active -/

/-- There is an active agent of this id. -/
def Directory.active (s : Directory) (a : AgentId) : Bool :=
  (s.agents.lookup a).any fun r => r.status = .active

/-- The transaction makes the agent of this id active. -/
def Change.activates (s : Directory) (a : AgentId) (c : Change) : Bool :=
  match s.agents.lookup a with
  | some r => decide (r.status ≠ .active) && decide (c.restatus a r.status = .active)
  | none => match c with
    | onboard a' _ => a' = a
    | _ => false

section

variable {cfg : IdentitySettings} {e : DirEnv} {s s' : Directory} {out : Outcome} {c : Change}
  {a : AgentId} {t : AgentToken} {β : Type} {x : DirAct β} {b : β}

theorem active_iff : s.active a = true ↔ ∃ r, s.agents.lookup a = some r ∧ r.status = .active := by
  simp [Directory.active, Option.any_eq_true]

theorem activates_of_active (hx : c.apply cfg e s = .ok (s', out)) (ha : s'.active a = true) :
    s.active a = true ∨ c.activates s a = true := by
  obtain ⟨r', hr', hst⟩ := active_iff.1 ha
  rcases Change.agents_ok hx with ⟨-, -, hl⟩ | ⟨a', i, rfl, hfree, -, hag⟩ |
      ⟨a', epoch, r, rfl, hr, hrem, -, -, hag⟩
  · rw [hl] at hr'
    obtain ⟨r, hr, rfl⟩ := Option.map_eq_some_iff.1 hr'
    by_cases hact : r.status = .active
    · exact .inl (active_iff.2 ⟨r, hr, hact⟩)
    · refine .inr ?_
      unfold Change.activates
      rw [hr]
      exact Bool.and_eq_true_iff.2 ⟨decide_eq_true hact, decide_eq_true hst⟩
  · rw [hag, Table.lookup_insert] at hr'
    split_ifs at hr' with h
    · subst h
      refine .inr ?_
      unfold Change.activates
      rw [hfree]
      exact decide_eq_true rfl
    · exact .inl (active_iff.2 ⟨r', hr', hst⟩)
  · rw [hag, Table.lookup_renamed] at hr'
    split_ifs at hr'
    · obtain rfl := Option.some.inj hr'
      exact absurd (hrem.symm.trans hst) (by simp)
    · exact .inl (active_iff.2 ⟨r', hr', hst⟩)

/-- An agent that has just been evicted is not active. -/
theorem exec_evicts (he : x.exec cfg e s = some (s', b)) (hev : Event.evicts a ⟨x, b⟩ = true) :
    s'.active a = false := by
  rw [Event.evicts] at hev
  split at hev
  · rename_i a' o htx
    obtain rfl : a' = a := of_decide_eq_true hev
    rcases DirAct.exec_cases he with ⟨hnone, -⟩ | ⟨c, out, hsome, -, -, hx⟩
    · exact absurd (hnone.symm.trans htx) (by simp)
    · obtain ⟨rfl, -⟩ := Prod.mk.inj (Option.some.inj (hsome.symm.trans htx))
      refine Bool.eq_false_iff.2 fun ha => ?_
      obtain ⟨r', hr', hst⟩ := active_iff.1 ha
      obtain ⟨rfl, -⟩ := Prod.mk.inj (Except.ok.inj hx)
      rw [Directory.evictAgent, Directory.lookup_setStatus] at hr'
      obtain ⟨r, -, rfl⟩ := Option.map_eq_some_iff.1 hr'
      simp at hst
  · exact absurd hev (by simp)

/-- The clock does not run backwards, what is revoked stays so, and what is signed is in the log. -/
theorem exec_credentials (he : x.exec cfg e s = some (s', b)) :
    s.clock ≤ e.now ∧ s'.clock = e.now ∧ s.revokedJtis ⊆ s'.revokedJtis ∧
      ∀ t ∈ s'.signed, Event.signs t ⟨x, b⟩ = false → t ∈ s.signed := by
  obtain ⟨hnow, hp⟩ := DirAct.exec_eq he
  refine ⟨hnow, ?_⟩
  cases x with
  | revokeJti jti =>
    obtain ⟨rfl, -⟩ := Prod.mk.inj hp
    exact ⟨rfl, fun _ h => List.mem_cons_of_mem _ h, fun t ht _ => ht⟩
  | issueAgentToken a =>
    obtain ⟨rfl, rfl⟩ := Prod.mk.inj hp
    refine ⟨rfl, List.Subset.refl _, fun t ht hno => ?_⟩
    rcases List.mem_cons.1 ht with rfl | ht
    · exact absurd hno (by simp [Event.signs])
    · exact ht
  | commit c =>
    rcases Directory.committed_eq hp with ⟨err, rfl, rfl⟩ | ⟨o, rfl, -, hx⟩
    · exact ⟨rfl, List.Subset.refl _, fun t ht _ => ht⟩
    · rw [(Change.frame hx).clock, (Change.frame hx).revokedJtis, (Change.frame hx).signed]
      exact ⟨rfl, List.Subset.refl _, fun t ht _ => ht⟩
  | _ =>
    obtain ⟨rfl, -⟩ := Prod.mk.inj hp
    exact ⟨rfl, List.Subset.refl _, fun t ht _ => ht⟩

theorem dead_mono (hd : t.dead cfg s = true) (hc : s.clock ≤ s'.clock)
    (hr : s.revokedJtis ⊆ s'.revokedJtis) (hs : t ∈ s'.signed → t ∈ s.signed) :
    t.dead cfg s' = true := by
  simp only [AgentToken.dead, Bool.or_eq_true, decide_eq_true_eq, Bool.and_eq_true] at hd ⊢
  rcases hd with (hd | hd) | ⟨hredis, hd⟩
  · exact .inl (.inl fun h => hd (hs h))
  · exact .inl (.inr (hd.trans hc))
  · exact .inr ⟨hredis, hr hd⟩

end

/-! ### No stale token of an active agent is good -/

/-- The request has not verified its token yet, or it is revoked and the request has not passed that
check. -/
def Auth.harmless (cfg : IdentitySettings) (s : Directory) (t : AgentToken) (q : Auth) : Bool :=
  !q.verified || cfg.redis && decide (t.jti ∈ s.revokedJtis) && !q.cleared

/-- The token is stale, and the transaction makes its agent active. -/
def AgentToken.revived (log : Log DirAct) (s : Directory) (c : Change) (t : AgentToken) : Bool :=
  stale log t.agentId (Event.signs t) && c.activates s t.agentId

/-- No stale token of an agent that this transaction makes active is good, and no request is about to
accept one. -/
def spent (cfg : IdentitySettings) (P : Pool DirAct Directory DirCall Reply) (s : Directory)
    (c : Change) : Bool :=
  (s.signed.all fun t => !t.revived P.log s c || t.dead cfg s) &&
    P.threads.zipIdx.all fun (th, j) => th.call.presents.all fun t =>
      !t.revived P.log s c || th.prog.finished || (authOf P.log j th.call).harmless cfg s t

/-- No stale token of an active agent is good, and no request is about to accept one. -/
structure Fresh (cfg : IdentitySettings) (P : Pool DirAct Directory DirCall Reply) : Prop where
  dead : ∀ t, stale P.log t.agentId (Event.signs t) = true → P.shared.active t.agentId = true →
    t.dead cfg P.shared = true
  waiting : ∀ j th t, P.threads[j]? = some th → th.call.presents = some t → th.prog.finished = false →
    stale P.log t.agentId (Event.signs t) = true → P.shared.active t.agentId = true →
    (authOf P.log j th.call).harmless cfg P.shared t = true

section

variable {cfg : IdentitySettings} {boot : DirBoot} {P : Pool DirAct Directory DirCall Reply}
  {e : DirEnv} {s' : Directory} {c : Change} {call : DirCall} {t : AgentToken} {β : Type}
  {x : DirAct β} {b : β} {i : ℕ} {k : β → DirProg Reply}

theorem spent_dead {s : Directory} (h : spent cfg P s c = true) (hr : t.revived P.log s c = true) :
    t.dead cfg s = true := by
  by_cases ht : t ∈ s.signed
  · rw [spent, Bool.and_eq_true, List.all_eq_true] at h
    simpa [hr] using h.1 t ht
  · simp [AgentToken.dead, ht]

theorem spent_waiting {s : Directory} (h : spent cfg P s c = true) {j : ℕ}
    {th : Thread DirAct DirCall Reply} (hth : P.threads[j]? = some th)
    (hc : th.call.presents = some t) (hno : th.prog.finished = false)
    (hr : t.revived P.log s c = true) : (authOf P.log j th.call).harmless cfg s t = true := by
  rw [spent, Bool.and_eq_true, List.all_eq_true, List.all_eq_true] at h
  have hmem := h.2 (th, j) (List.mem_zipIdx_iff_getElem?.2 hth)
  simpa [hc, hno, hr] using hmem

theorem harmless_mono {s : Directory} {q : Auth} (h : q.harmless cfg s t = true)
    (hr : s.revokedJtis ⊆ s'.revokedJtis) : q.harmless cfg s' t = true := by
  simp only [Auth.harmless, Bool.or_eq_true, Bool.and_eq_true, decide_eq_true_eq] at h ⊢
  exact h.imp_right fun ⟨⟨hredis, hmem⟩, hc⟩ => ⟨⟨hredis, hr hmem⟩, hc⟩

/-- A token is stale after an event only if it was before, and its agent is active only if it was
before or has just been made so. -/
theorem stale_step (he : x.exec cfg e P.shared = some (s', b))
    (hs : stale (P.log ++ [(i, ⟨x, b⟩)]) t.agentId (Event.signs t) = true)
    (ha : s'.active t.agentId = true) :
    Event.signs t ⟨x, b⟩ = false ∧ stale P.log t.agentId (Event.signs t) = true ∧
      (P.shared.active t.agentId = true ∨ ∃ c, x.change = some c ∧ e.fault = false ∧
        c.activates { P.shared with clock := e.now } t.agentId = true) := by
  rw [stale_append] at hs
  split_ifs at hs with hev hsg
  · exact absurd (ha.symm.trans (exec_evicts he hev)) (by simp)
  · refine ⟨Bool.eq_false_iff.2 hsg, hs, ?_⟩
    rcases DirAct.exec_cases he with ⟨-, hs'⟩ | ⟨c, out, -, hc, hf, hx⟩
    · rw [hs'] at ha
      exact .inl ha
    · exact (activates_of_active hx ha).imp_right fun h => ⟨c, hc, hf, h⟩

theorem harmless_next {q : Auth} (he : x.exec cfg e P.shared = some (s', b))
    (ht : q.token = some t) (hok : authenticating.ok q x)
    (hdead : t.dead cfg P.shared = true) (hq : q.harmless cfg P.shared t = true) :
    (authenticating.next q x b).harmless cfg s' t = true := by
  have hr := (exec_credentials he).2.2.1
  have hp := (DirAct.exec_eq he).2
  have hnow := (DirAct.exec_eq he).1
  have hokt := hok t ht
  cases x with
  | verifyAgentToken t' =>
    obtain ⟨rfl, hc⟩ := hokt
    obtain ⟨rfl, rfl⟩ := Prod.mk.inj hp
    simp only [AgentToken.dead, Bool.or_eq_true, decide_eq_true_eq, Bool.and_eq_true] at hdead
    rcases hdead with (hsg | hexp) | ⟨hredis, hrev⟩
    · simp [Auth.harmless, authenticating, hsg]
    · have hlate : ¬ e.now < t'.expiresAt := not_lt.2 (hexp.trans hnow)
      simp [Auth.harmless, authenticating, hlate]
    · simp [Auth.harmless, authenticating, hredis, hrev, hc]
  | isJtiRevoked jti =>
    obtain ⟨rfl, hv⟩ := hokt
    obtain ⟨rfl, rfl⟩ := Prod.mk.inj hp
    simp only [Auth.harmless, hv, Bool.not_true, Bool.false_or, Bool.and_eq_true,
      decide_eq_true_eq] at hq
    simp [Auth.harmless, authenticating, hq.1.1, hq.1.2]
  | getAgent a =>
    simp [Auth.harmless, hokt.2.1, hokt.2.2] at hq
  | commit c => exact hokt.elim
  | _ => exact harmless_mono hq hr

/-- A request that presents a token tries no transaction. -/
theorem change_eq_none {q : Auth} (ht : q.token = some t) (hok : authenticating.ok q x) :
    x.change = none := by
  cases x with
  | commit c => exact (hok t ht).elim
  | _ => rfl

/-- **One step keeps stale tokens harmless.** -/
theorem Fresh.step (h : Fresh cfg P) (ht : P.threads[i]? = some ⟨call, .act x k⟩)
    (hg : ∀ c, x.change = some c → e.fault = false →
      spent cfg P { P.shared with clock := e.now } c = true)
    (he : x.exec cfg e P.shared = some (s', b))
    (hob : authenticating.Obeys (authOf P.log i call) (.act x k) Accounted) :
    Fresh cfg (P.fired i call x k s' b) := by
  obtain ⟨hnow, hclock, hrev, hsigned⟩ := exec_credentials he
  constructor
  · intro t hs ha
    obtain ⟨hsg, hs, ha | ⟨c, hc, hf, ha⟩⟩ := stale_step he hs ha
    · exact dead_mono (h.dead t hs ha) (hnow.trans hclock.ge) hrev fun hmem => hsigned t hmem hsg
    · have hr : t.revived P.log { P.shared with clock := e.now } c = true :=
        Bool.and_eq_true_iff.2 ⟨hs, ha⟩
      exact dead_mono (spent_dead (hg c hc hf) hr) hclock.ge hrev fun hmem => hsigned t hmem hsg
  · intro j th t hth hpres hfin hs ha
    obtain ⟨-, hs', hact⟩ := stale_step he hs ha
    by_cases hj : j = i
    · subst hj
      have hlt : j < P.threads.length := (List.getElem?_eq_some_iff.1 ht).1
      obtain rfl : ⟨call, k b⟩ = th := by simpa [Pool.fired, hlt] using hth
      have htok : (authOf P.log j call).token = some t := token_after.trans hpres
      have hnext : authOf (P.fired j call x k s' b).log j call =
          authenticating.next (authOf P.log j call) x b := by
        simp [authOf, Pool.fired, Discipline.after]
      rw [hnext]
      rcases hact with hact | ⟨c, hc, -, -⟩
      · exact harmless_next he htok hob.1 (h.dead t hs' hact)
          (h.waiting j _ t ht hpres rfl hs' hact)
      · exact absurd (hc.symm.trans (change_eq_none htok hob.1)) (by simp)
    · rw [Pool.fired, List.getElem?_set_ne (Ne.symm hj)] at hth
      have hsame : authOf (P.fired i call x k s' b).log j th.call = authOf P.log j th.call := by
        rw [authOf, authOf, Pool.fired, Log.past_append_ne hj]
      rw [hsame]
      rcases hact with hact | ⟨c, hc, hf, hact⟩
      · exact harmless_mono (h.waiting j th t hth hpres hfin hs' hact) hrev
      · have hr : t.revived P.log { P.shared with clock := e.now } c = true :=
          Bool.and_eq_true_iff.2 ⟨hs', hact⟩
        exact harmless_mono (spent_waiting (hg c hc hf) hth hpres hfin hr) hrev

/-- **Stale tokens are harmless in every run that makes an agent active only when they are spent.** -/
theorem fresh_of_run {g : Guard DirAct DirEnv Directory DirCall Reply}
    (hg : ∀ {β : Type} (P : Pool DirAct Directory DirCall Reply) i c (x : DirAct β) e,
      g.fire P i c x e → ∀ ch, x.change = some ch → e.fault = false →
        spent cfg P { P.shared with clock := e.now } ch = true)
    (h : Run (identity cfg) g (.init boot.directory) P) : Fresh cfg P := by
  induction h with
  | refl =>
    constructor
    · intro t hs
      exact absurd hs (by simp [Pool.init, stale])
    · intro j th t hth
      exact absurd hth (by simp [Pool.init])
  | @start Q call hrun _ ih =>
    refine ⟨ih.dead, fun j th t hth hpres hfin hs ha => ?_⟩
    by_cases hj : j < Q.threads.length
    · rw [Pool.spawn, List.getElem?_append_left hj] at hth
      exact ih.waiting j th t hth hpres hfin hs ha
    · -- it has not moved yet, so it has verified nothing
      have hpast : (Q.spawn (identity cfg) call).log.past j = [] := hrun.past_eq_nil (not_lt.1 hj)
      simp [authOf, hpast, Discipline.after, Auth.harmless]
  | @step Q i call β x k e s b hrun ht hfire he ih =>
    have hob := hrun.obeys obeys_body (fun _ _ => trivial) ht
    exact ih.step ht (hg Q i call x e hfire) he hob

/-- **A request that presents a stale token does not find its agent active.** -/
theorem Fresh.rejects (h : Fresh cfg P) (ht : P.threads[i]? = some ⟨call, .act x k⟩)
    (hpres : call.presents = some t) (hs : stale P.log t.agentId (Event.signs t) = true)
    (he : x.exec cfg e P.shared = some (s', b))
    (hob : authenticating.Obeys (authOf P.log i call) (.act x k) Accounted) :
    Event.finds ⟨x, b⟩ ≠ some true := by
  have hp := (DirAct.exec_eq he).2
  have hok := hob.1 t (token_after.trans hpres)
  cases x with
  | getAgent a =>
    obtain ⟨rfl, rfl⟩ := Prod.mk.inj hp
    obtain ⟨rfl, hv, hc⟩ := hok
    intro hact
    have hactive : P.shared.active t.agentId = true := Option.some.inj hact
    have hsafe := h.waiting i _ t ht hpres rfl hs hactive
    rw [Auth.harmless, hv, hc] at hsafe
    simp at hsafe
  | _ => exact fun hact => absurd hact (by simp [Event.finds])

end

end Backplane
