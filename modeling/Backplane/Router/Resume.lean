import Backplane.Router.Reachable

/-!
# The resume window

A socket that goes away is parked; when the window elapses and it is still parked, the agent's tasks
are failed, one transaction at a time.

* `Act.exec_registry`, `Act.exec_attach`, `Act.exec_detach`, `Act.exec_expireResume` : what happens
  to the registry.
* `Expiry`, `expiry` : an expiry fails tasks only after it has unparked the socket, and only tasks
  that were admitted for its agent.
* `offline_of_run` : an agent with a parked socket, or whose tasks are being failed, is not live, as
  long as it reconnects with its token and not in the middle of an expiry.
* `expiry_safe` : then no expiry fails a task of an agent with a live socket.
-/

namespace Backplane

open Concur Prog

/-! ### The registry -/

section

variable {cfg : Config} {s s' : Router} {β : Type} {a : Act β} {e : Env} {b : β} {x : AgentId}
  {k : SocketId}

/-- The actions that change the registry. -/
def registryTags : List Tag := [.attach, .detach, .expireResume]

theorem Router.registry_sessionLevel (now ttl : ℕ) (u : UserId) :
    (s.sessionLevel now ttl u).1.registry = s.registry := by
  unfold sessionLevel
  split_ifs
  · rfl
  · split
    · rfl
    · split
      · rfl
      · split_ifs <;> rfl

/-- Every other action leaves the registry alone. -/
theorem Act.exec_registry (h : exec cfg a e s = some (s', b)) (ha : a.tag ∉ registryTags) :
    s'.registry = s.registry := by
  by_cases ht : a.transmits = true
  · exact (exec_transmits h ht).registry
  cases a with
  | attach | detach | expireResume => exact absurd (by simp [Act.tag, registryTags]) ha
  | deliver | deliverAwait | awaitAck | put | settle | reap | sendNext => exact absurd rfl ht
  | createTask f c d =>
    simp only [exec, Option.ite_none_left_eq_some] at h
    obtain rfl : _ = s' := congrArg Prod.fst (Option.some.inj h.2)
    rfl
  | openSession u =>
    simp only [exec, Option.ite_none_left_eq_some] at h
    obtain rfl : _ = s' := congrArg Prod.fst (Option.some.inj h.2)
    rfl
  | delegationPhaseC f t c =>
    simp only [exec] at h
    split at h <;>
    · obtain rfl : _ = s' := congrArg Prod.fst (Option.some.inj h)
      rfl
  | _ =>
    obtain rfl : _ = s' := congrArg Prod.fst (Option.some.inj h)
    first
      | exact Router.registry_sessionLevel _ _ _
      | rfl

theorem Act.exec_attach {tok : Option String} {out : SocketId × Option SocketId}
    (h : exec cfg (.attach x tok) e s = some (s', out)) :
    s'.registry.live = s.registry.live.insert x out.1 ∧
      s'.registry.resume =
        if (s.consumable x tok).isSome then s.registry.resume.erase x else s.registry.resume := by
  obtain ⟨rfl, rfl⟩ := Prod.mk.inj (Option.some.inj h)
  exact ⟨rfl, rfl⟩

theorem Act.exec_detach {out : Bool} (h : exec cfg (.detach k) e s = some (s', out)) :
    s'.registry = s.registry ∨ ∃ x,
      s'.registry = ⟨s.registry.live.erase x, s.registry.resume.insert x k⟩ := by
  obtain rfl : _ = s' := congrArg Prod.fst (Option.some.inj h)
  unfold Router.detach
  split
  · exact .inl rfl
  · dsimp only
    split_ifs
    · exact .inr ⟨_, rfl⟩
    · exact .inl rfl

theorem Act.exec_expireResume {out : Bool} (h : exec cfg (.expireResume x k) e s = some (s', out)) :
    (out = false ∧ s'.registry = s.registry) ∨
    (out = true ∧ s.registry.resume.lookup x = some k ∧
      s'.registry = { s.registry with resume := s.registry.resume.erase x }) := by
  have hexp : s.expireResume x k = (s', out) := Option.some.inj h
  unfold Router.expireResume at hexp
  split_ifs at hexp with hp
  · obtain ⟨rfl, rfl⟩ := Prod.mk.inj hexp
    exact .inr ⟨rfl, hp, rfl⟩
  · obtain ⟨rfl, rfl⟩ := Prod.mk.inj hexp
    exact .inl ⟨rfl, rfl⟩

end

/-! ### What an expiry does -/

/-- Where the coroutine of an expiry stands. -/
inductive Phase
  | waiting | failing | finished
  deriving DecidableEq, Repr

/-- What the coroutine of an expiry knows. -/
structure Expiry where
  /-- The agent whose window has elapsed; `none` in any other coroutine. -/
  agent : Option AgentId
  phase : Phase
  /-- Tasks that were admitted for the agent. -/
  listed : TaskId → Prop

namespace Expiry

/-- What a call starts with. -/
def start : Call → Expiry
  | .resumeWindowExpiry _ a => ⟨some a, .waiting, fun _ => False⟩
  | _ => ⟨none, .waiting, fun _ => False⟩

/-- An expiry unparks the socket first, and then fails the tasks it has listed. -/
def ok : {β : Type} → Expiry → Act β → Prop
  | _, q, .expireResume a _ => ∀ x, q.agent = some x → a = x ∧ q.phase = .waiting
  | _, q, .transition t .failed _ => ∀ x, q.agent = some x → q.phase = .failing ∧ q.listed t
  | _, _, _ => True

/-- What an answer teaches. -/
def next : {β : Type} → Expiry → Act β → β → Expiry
  | _, q, .expireResume _ _, true => { q with phase := .failing }
  | _, q, .finalised _, _ => { q with phase := .finished }
  | _, q, .inflightOf a, ts =>
    { q with listed := fun t => q.listed t ∨ (q.agent = some a ∧ t ∈ ts) }
  | _, q, _, _ => q

end Expiry

/-- The discipline of an expiry. -/
def expiry : Discipline Act Expiry := ⟨Expiry.ok, fun _ _ => True, Expiry.next⟩

section

variable {cfg : Config} {q : Expiry} {α : Type} {a : AgentId} {ts : List TaskId} {t : TaskId}

/-- In the middle of failing the tasks `ts` of `a`. -/
def Failing (a : AgentId) (ts : List TaskId) (q : Expiry) : Prop :=
  q.agent = some a ∧ q.phase = .failing ∧ ∀ t ∈ ts, q.listed t

/-- What `fail_task` does besides the transition of the task itself. -/
def aroundFailTags : List Tag := [.userOf, .agentOf] ++ cancelTags

theorem Uses.failing {p : Coroutine α} (h : Uses p aroundFailTags) :
    expiry.Keeps (Failing a ts) p := by
  refine h.keeps fun x hx q hq => ?_
  cases x with
  | transition t new c =>
    cases new with
    | failed => exact absurd hx (by simp [Act.tag, aroundFailTags, cancelTags, fanOutTags])
    | _ => exact ⟨trivial, fun _ _ => hq⟩
  | expireResume | finalised | inflightOf =>
    exact absurd hx (by simp [Act.tag, aroundFailTags, cancelTags, fanOutTags])
  | _ => exact ⟨trivial, fun _ _ => hq⟩

theorem failing_failOwned (ht : t ∈ ts) (u : UserId) (reason : String) :
    expiry.Keeps (Failing a ts) (failOwned t u (inflightFailure a reason)) := by
  intro q hq
  refine Discipline.obeys_perform_bind.2 ⟨fun _ _ => ⟨hq.2.1, hq.2.2 t ht⟩, fun out _ => ?_⟩
  cases out with
  | done prev row =>
    have hrest : Uses (do
        perform (.notifyTaskTerminal t)
        cancelSubtree t u "parent_failed"
        notifyParentOwner row (inflightFailure a reason)) aroundFailTags :=
      (uses_perform rfl).bind fun _ => ((uses_cancelSubtree _ _ _).mono (by decide)).bind fun _ =>
        (uses_notifyParentOwner _ _).mono (by decide)
    exact hrest.failing q hq
  | _ => exact hq

theorem failing_failInflight (hq : Failing a [] q) (reason : String) :
    expiry.Obeys q (failInflightForAgent a reason) fun q' _ => Failing a [] q' := by
  refine Discipline.obeys_perform_bind.2 ⟨trivial, fun rows _ => ?_⟩
  have hlisted : Failing a rows (q.next (.inflightOf a) rows) :=
    ⟨hq.1, hq.2.1, fun t ht => .inr ⟨hq.1, ht⟩⟩
  -- the listed tasks stay listed while the loop goes through them
  have hloop : ∀ ts ⊆ rows, expiry.Keeps (Failing a rows)
      (each (fun t => failTask t none (inflightFailure a reason)) ts) := by
    intro ts
    induction ts with
    | nil => exact fun _ _ hq => hq
    | cons t ts ih =>
      intro hsub
      have ht : t ∈ rows := hsub List.mem_cons_self
      have hfail : expiry.Keeps (Failing a rows)
          (failTask t none (inflightFailure a reason)) := by
        refine fun q hq => Discipline.obeys_perform_bind.2 ⟨trivial, fun u _ => ?_⟩
        cases u with
        | none => exact hq
        | some u => exact failing_failOwned ht u reason q hq
      exact hfail.bind fun _ => ih fun x hx => hsub (List.mem_cons_of_mem _ hx)
  refine Discipline.obeys_bind.2 ((hloop rows (List.Subset.refl _) _ hlisted).mono ?_)
  exact fun q' _ hq' => ⟨hq'.1, hq'.2.1, by simp⟩

/-- A coroutine that is no expiry stays none. -/
theorem other_body (c : Call) (hq : q.agent = none) :
    expiry.Obeys q (c.body cfg) fun _ _ => True := by
  have hkeeps : expiry.Keeps (fun q => q.agent = none) (c.body cfg) := by
    refine .of_only (Only.of_forall (fun x q hq => ?_) _)
    have hno : ∀ y, q.agent = some y → False := fun y hy => by rw [hq] at hy; exact absurd hy (by simp)
    cases x with
    | expireResume a k => exact ⟨fun y hy => (hno y hy).elim, fun out _ => by cases out <;> exact hq⟩
    | transition t new c =>
      cases new with
      | failed => exact ⟨fun y hy => (hno y hy).elim, fun _ _ => hq⟩
      | _ => exact ⟨trivial, fun _ _ => hq⟩
    | finalised | inflightOf => exact ⟨trivial, fun _ _ => hq⟩
    | _ => exact ⟨trivial, fun _ _ => hq⟩
  exact (hkeeps q hq).mono fun _ _ _ => trivial

/-- **Every expiry keeps to the discipline.** -/
theorem expiry_body (c : Call) : expiry.Obeys (.start c) (c.body cfg) fun _ _ => True := by
  cases c with
  | resumeWindowExpiry k a =>
    have hexpiry : expiry.Obeys (.start (.resumeWindowExpiry k a)) (resumeWindowExpiry k a)
        fun _ _ => True := by
      refine Discipline.obeys_perform_bind.2 ⟨?_, fun popped _ => ?_⟩
      · rintro x ⟨⟩
        exact ⟨rfl, rfl⟩
      · cases popped with
        | false => trivial
        | true =>
          have hstart : Failing a [] ⟨some a, .failing, fun _ => False⟩ := ⟨rfl, rfl, by simp⟩
          exact Discipline.obeys_bind.2 ((failing_failInflight hstart _).mono fun _ _ _ =>
            ⟨trivial, fun _ _ => trivial⟩)
    exact Discipline.obeys_bind.2 (hexpiry.mono fun _ _ _ => trivial)
  | _ => exact other_body _ rfl

end

/-! ### Who is offline -/

/-- The event is an expiry that has unparked a socket of the agent. -/
def unparks (a : AgentId) : Event Act → Bool
  | ⟨.expireResume x _, true⟩ => decide (x = a)
  | _ => false

/-- The event is the end of an expiry. -/
def endsExpiry : Event Act → Bool
  | ⟨.finalised _, _⟩ => true
  | _ => false

/-- An expiry of the agent is failing its tasks. -/
def expiring (log : Log Act) (a : AgentId) : Bool :=
  log.any fun x => unparks a x.2 && log.all fun y => decide (y.1 ≠ x.1) || !endsExpiry y.2

/-- An agent connects with the token of its parked socket, if there is one, and not while an expiry
is failing its tasks. -/
def resumes (P : Pool Act Router Call Ret) : {β : Type} → Act β → Bool
  | _, .attach a tok => ((P.shared.registry.resume.lookup a).isNone ||
      (P.shared.consumable a tok).isSome) && !expiring P.log a
  | _, _ => true

/-- Agents resume. -/
def resumesOnly : Guard Act Env Router Call Ret :=
  ⟨fun _ _ => True, fun P _ _ a _ => resumes P a = true⟩

section

variable {cfg : Config} {d : Deployment} {P : Pool Act Router Call Ret} {a : AgentId}

theorem expiring_append {log : Log Act} {i : ℕ} {x : Event Act}
    (h : expiring (log ++ [(i, x)]) a = true) : expiring log a = true ∨ unparks a x = true := by
  simp only [expiring, List.any_append, List.all_append, List.any_cons, List.any_nil,
    Bool.or_false, Bool.or_eq_true, Bool.and_eq_true] at h
  rcases h with h | h
  · refine .inl (List.any_eq_true.2 ?_)
    obtain ⟨y, hy, h⟩ := List.any_eq_true.1 h
    simp only [Bool.and_eq_true] at h
    exact ⟨y, hy, by simp only [h.1, h.2.1, Bool.and_self]⟩
  · exact .inr h.1

/-- **An agent with a parked socket, or whose tasks are being failed, has no live socket.** -/
theorem offline_of_run (h : Run (router cfg) resumesOnly (.init d.boot) P) (a : AgentId)
    (hoff : (P.shared.registry.resume.lookup a).isSome ∨ expiring P.log a = true) :
    P.shared.registry.live.lookup a = none := by
  induction h with
  | refl => exact rfl
  | start _ _ _ ih => exact ih hoff
  | @step Q i c β act k e s b _ _ hg he ih =>
    have hlog : expiring (Q.log ++ [(i, ⟨act, b⟩)]) a = true →
        expiring Q.log a = true ∨ unparks a ⟨act, b⟩ = true := expiring_append
    have hexec : Act.exec cfg act e Q.shared = some (s, b) := he
    change s.registry.live.lookup a = none
    change (s.registry.resume.lookup a).isSome ∨ expiring (Q.log ++ [(i, ⟨act, b⟩)]) a = true at hoff
    cases act with
    | attach x tok =>
      obtain ⟨hlive, hresume⟩ := Act.exec_attach hexec
      simp only [resumesOnly, resumes, Bool.and_eq_true, Bool.or_eq_true, Bool.not_eq_true',
        Option.isNone_iff_eq_none] at hg
      obtain ⟨htok, hidle⟩ := hg
      by_cases hx : a = x
      · -- the connecting agent has nothing parked any more, and no expiry is under way
        subst hx
        exfalso
        rcases hoff with hoff | hoff
        · rw [hresume] at hoff
          split_ifs at hoff with hc
          · rw [AList.lookup_erase] at hoff
            exact absurd hoff (by simp)
          · rcases htok with hnone | hsome
            · rw [hnone] at hoff
              exact absurd hoff (by simp)
            · exact hc hsome
        · rcases hlog hoff with hexp | hpop
          · rw [hidle] at hexp
            exact absurd hexp (by simp)
          · exact absurd hpop (by simp [unparks])
      · rw [hlive, AList.lookup_insert_ne hx]
        refine ih ?_
        rcases hoff with hoff | hoff
        · rw [hresume] at hoff
          split_ifs at hoff
          · exact .inl (by rwa [AList.lookup_erase_ne hx] at hoff)
          · exact .inl hoff
        · exact .inr ((hlog hoff).resolve_right (by simp [unparks]))
    | detach k =>
      have hlog' := fun h => (hlog h).resolve_right (by simp [unparks])
      rcases Act.exec_detach hexec with hreg | ⟨x, hreg⟩
      · rw [hreg] at hoff ⊢
        exact ih (hoff.imp_right hlog')
      · rw [hreg] at hoff ⊢
        by_cases hx : a = x
        · subst hx
          exact AList.lookup_erase _ _
        · rw [AList.lookup_erase_ne hx]
          rw [AList.lookup_insert_ne hx] at hoff
          exact ih (hoff.imp_right hlog')
    | expireResume x k =>
      rcases Act.exec_expireResume hexec with ⟨rfl, hreg⟩ | ⟨rfl, hp, hreg⟩
      · rw [hreg] at hoff ⊢
        exact ih (hoff.imp_right fun h => (hlog h).resolve_right (by simp [unparks]))
      · rw [hreg] at hoff ⊢
        by_cases hx : a = x
        · subst hx
          exact ih (.inl (by rw [hp]; rfl))
        · rw [AList.lookup_erase_ne hx] at hoff
          refine ih (hoff.imp_right fun h => (hlog h).resolve_right ?_)
          simp [unparks, Ne.symm hx]
    | _ =>
      have hreg := Act.exec_registry hexec (by simp [Act.tag, registryTags])
      rw [hreg] at hoff ⊢
      exact ih (hoff.imp_right fun h => (hlog h).resolve_right (by simp [unparks]))

end

/-! ### Every run -/

/-- What the coroutine of an expiry knows is true. -/
structure Expiry.Holds (i : ℕ) (c : Call) (q : Expiry) (s : Router) (log : Log Act) : Prop where
  agent : ∀ {k a}, c = .resumeWindowExpiry k a → q.agent = some a
  /-- It has unparked a socket of the agent. -/
  failing : ∀ {a}, q.agent = some a → q.phase = .failing →
    ∃ k, (i, ⟨.expireResume a k, true⟩) ∈ log
  /-- It is not done. -/
  unfinished : ∀ {a}, q.agent = some a → q.phase ≠ .finished → ∀ b, (i, ⟨.finalised b, ()⟩) ∉ log
  /-- The listed tasks were admitted for the agent. -/
  listed : ∀ {a}, q.agent = some a → ∀ t, q.listed t →
    ∃ r, s.db.tasks.lookup t = some r ∧ r.agentId = a

section

variable {cfg : Config} {s s' : Router} {β : Type} {act : Act β} {e : Env} {b : β} {q : Expiry}
  {i j : ℕ} {c : Call} {log : Log Act}

theorem Expiry.Holds.exec (hq : q.Holds i c s log) (he : Act.exec cfg act e s = some (s', b))
    {x : Event Act} (hx : j = i → endsExpiry x = false) : q.Holds i c s' (log ++ [(j, x)]) where
  agent := hq.agent
  failing ha hp := by
    obtain ⟨k, hk⟩ := hq.failing ha hp
    exact ⟨k, List.mem_append_left _ hk⟩
  unfinished ha hp y hm := by
    rcases List.mem_append.1 hm with hm | hm
    · exact hq.unfinished ha hp y hm
    · obtain ⟨rfl, rfl⟩ := Prod.mk.inj (List.mem_singleton.1 hm)
      exact absurd (hx rfl) (by simp [endsExpiry])
  listed ha t ht := by
    obtain ⟨r, hr, hra⟩ := hq.listed ha t ht
    obtain ⟨r', hr', hl⟩ := (Act.exec_effect he).1.later hr
    exact ⟨r', hr', hl.agentId.trans hra⟩

theorem Expiry.Holds.next (hw : Wf cfg s.db) (hq : q.Holds i c s log) (hok : q.ok act)
    (he : Act.exec cfg act e s = some (s', b)) :
    (q.next act b).Holds i c s' (log ++ [(i, ⟨act, b⟩)]) := by
  cases act with
  | expireResume x k =>
    have hq' : q.Holds i c s' (log ++ [(i, ⟨.expireResume x k, b⟩)]) := hq.exec he fun _ => rfl
    cases b with
    | false => exact hq'
    | true =>
      refine ⟨hq'.agent, fun ha _ => ?_, fun ha _ => ?_, hq'.listed⟩
      · obtain ⟨rfl, -⟩ := hok _ ha
        exact ⟨k, by simp⟩
      · obtain ⟨-, hwait⟩ := hok _ ha
        exact hq'.unfinished ha (by rw [hwait]; decide)
  | finalised x =>
    refine ⟨hq.agent, fun _ hp => absurd hp (by simp [Expiry.next]),
      fun _ hp => absurd rfl hp, fun ha t ht => ?_⟩
    obtain ⟨r, hr, hra⟩ := hq.listed ha t ht
    obtain ⟨r', hr', hl⟩ := (Act.exec_effect he).1.later hr
    exact ⟨r', hr', hl.agentId.trans hra⟩
  | inflightOf x =>
    have hq' : q.Holds i c s' (log ++ [(i, ⟨.inflightOf x, b⟩)]) := hq.exec he fun _ => rfl
    refine ⟨hq'.agent, hq'.failing, hq'.unfinished, fun ha t ht => ?_⟩
    rcases ht with ht | ⟨hx, ht⟩
    · exact hq'.listed ha t ht
    · obtain ⟨rfl, rfl⟩ := Prod.mk.inj (Option.some.inj he)
      obtain ⟨r, hr, hra, -⟩ := hw.mem_open.1 ht
      obtain rfl := Option.some.inj (ha.symm.trans hx)
      exact ⟨r, hr, of_decide_eq_true hra⟩
  | _ => exact hq.exec he fun _ => rfl

variable {g : Guard Act Env Router Call Ret} {d : Deployment} {P : Pool Act Router Call Ret}

theorem sound_expiry (cfg : Config) (g : Guard Act Env Router Call Ret) (d : Deployment) :
    Sound (router cfg) g expiry Expiry.start d.boot (fun _ _ => True) Expiry.Holds where
  init := trivial
  start {P c} hrun _ _ := by
    have hidle : (Expiry.start c).phase = .waiting := by cases c <;> rfl
    refine ⟨?_, fun _ hp => ?_, fun _ _ b hm => ?_, fun _ t ht => ?_⟩
    · rintro k a rfl
      rfl
    · rw [hidle] at hp
      exact absurd hp (by decide)
    · exact absurd (hrun.log_lt _ hm) (Nat.lt_irrefl _)
    · have hnone : ¬ (Expiry.start c).listed t := by cases c <;> exact id
      exact (hnone ht).elim
  step hrun _ _ he _ hq hok := ⟨trivial, trivial, hq.next (wf_of_run hrun) hok he⟩
  frame _ _ _ he _ _ _ _ _ _ hj hq' := hq'.exec he fun hji => (hj hji.symm).elim

/-- **No expiry fails a task of an agent with a live socket**, as long as every agent with a parked
socket connects with its token, and none connects while an expiry is failing its tasks. -/
theorem expiry_safe (h : Run (router cfg) resumesOnly (.init d.boot) P) {k : SocketId}
    {a : AgentId} {t : TaskId} {cause : Cause} {next : Transitioned → Coroutine Ret}
    (ht : P.threads[i]? = some ⟨.resumeWindowExpiry k a, .act (.transition t .failed cause) next⟩) :
    ∃ r, P.shared.db.tasks.lookup t = some r ∧ r.agentId = a ∧
      P.shared.registry.live.lookup a = none := by
  obtain ⟨q, hq, hok, -⟩ := ((sound_expiry cfg resumesOnly d).of_run expiry_body h).2 i _ ht
  have hagent := hq.agent rfl
  obtain ⟨hphase, hlisted⟩ := hok a hagent
  obtain ⟨r, hr, hra⟩ := hq.listed hagent t hlisted
  refine ⟨r, hr, hra, offline_of_run h a (.inr ?_)⟩
  -- the coroutine itself is the expiry under way
  obtain ⟨k', hk'⟩ := hq.failing hagent hphase
  refine List.any_eq_true.2 ⟨_, hk', ?_⟩
  simp only [unparks, decide_true, Bool.true_and, List.all_eq_true, Bool.or_eq_true,
    decide_eq_true_eq, Bool.not_eq_true']
  rintro ⟨j, y⟩ hy
  by_cases hj : j = i
  · subst hj
    refine .inr ?_
    by_contra hend
    obtain ⟨act, ans⟩ := y
    cases act with
    | finalised x => exact hq.unfinished hagent (by rw [hphase]; decide) x hy
    | _ => exact hend rfl
  · exact .inl hj

end

/-- The task that a coroutine is about to fail. -/
def aboutToFail : Coroutine Ret → Option TaskId
  | .act (.transition t .failed _) _ => some t
  | _ => none

theorem aboutToFail_eq_some {p : Coroutine Ret} {t : TaskId} (h : aboutToFail p = some t) :
    ∃ c next, p = .act (.transition t .failed c) next := by
  unfold aboutToFail at h
  split at h
  · obtain rfl := Option.some.inj h
    exact ⟨_, _, rfl⟩
  · exact absurd h (by simp)

/-- `b`, which executes `t`, loses its socket. -/
def Sample.lost : List (Move Env Call) :=
  Sample.dispatched ++ [.start (.disconnect 1)] ++ Sample.steps 5 2

/-- Nobody connects, the window elapses, and the expiry (coroutine `6`) fails `t`. -/
theorem expiry_safe_lost : ∃ P r, Sample.play (fun P _ _ a _ => resumes P a)
      (Sample.lost ++ [.start (.resumeWindowExpiry 1 "b")] ++ Sample.steps 6 3) = some P ∧
    P.shared.db.tasks.lookup "t" = some r ∧ r.agentId = "b" ∧
      P.shared.registry.live.lookup "b" = none := by
  have hplay : ((Sample.play (fun P _ _ a _ => resumes P a)
      (Sample.lost ++ [.start (.resumeWindowExpiry 1 "b")] ++ Sample.steps 6 3)).bind fun P =>
        P.threads[6]?.map fun th => (th.call, aboutToFail th.prog)) =
      some (.resumeWindowExpiry 1 "b", some "t") := by
    decide +kernel
  obtain ⟨P, hP, h⟩ := Option.bind_eq_some_iff.1 hplay
  obtain ⟨⟨c, p⟩, hth, h⟩ := Option.map_eq_some_iff.1 h
  obtain ⟨rfl, habout⟩ := Prod.mk.inj h
  obtain ⟨cause, next, rfl⟩ := aboutToFail_eq_some habout
  obtain ⟨r, hr, hra, hlive⟩ :=
    expiry_safe (Sample.run_of_play (fun _ _ => trivial) (fun _ _ _ _ _ hc => hc) hP) hth
  exact ⟨P, r, hP, hr, hra, hlive⟩

/-- `b` connects again without a token, and then the expiry of its old socket (coroutine `7`) fails
`t`. -/
theorem expiry_fails_live : ¬ ∀ (cfg : Config) (d : Deployment) (P : Pool Act Router Call Ret)
    (i : ℕ) (k : SocketId) (a : AgentId) (t : TaskId) (cause : Cause)
    (next : Transitioned → Coroutine Ret),
    Run (router cfg) .free (.init d.boot) P →
    P.threads[i]? = some ⟨.resumeWindowExpiry k a, .act (.transition t .failed cause) next⟩ →
    ∃ r, P.shared.db.tasks.lookup t = some r ∧ r.agentId = a ∧
      P.shared.registry.live.lookup a = none := by
  intro hall
  have hplay : ((Sample.play Sample.anything (Sample.lost ++ [.start (.connect "b" none),
      Sample.step 6, Sample.step 6 "tb'", .start (.resumeWindowExpiry 1 "b")] ++
        Sample.steps 7 3)).bind fun P => P.threads[7]?.map fun th =>
          (th.call, aboutToFail th.prog, (P.shared.registry.live.lookup "b").isSome)) =
      some (.resumeWindowExpiry 1 "b", some "t", true) := by
    decide +kernel
  obtain ⟨P, hP, h⟩ := Option.bind_eq_some_iff.1 hplay
  obtain ⟨⟨c, p⟩, hth, h⟩ := Option.map_eq_some_iff.1 h
  obtain ⟨rfl, h⟩ := Prod.mk.inj h
  obtain ⟨habout, hlive⟩ := Prod.mk.inj h
  obtain ⟨cause, next, rfl⟩ := aboutToFail_eq_some habout
  obtain ⟨r, -, -, hoff⟩ :=
    hall {} Sample.deployment P 7 1 "b" "t" cause next (Sample.free_of_play hP) hth
  rw [hoff] at hlive
  exact absurd hlive (by simp)

end Backplane
