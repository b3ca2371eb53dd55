import Backplane.Identity.Effects

/-!
# The life of an agent

An agent is told from others by its number: its id changes, and may be another agent's later.

* `Directory.Numbered` : no two agents have the same number.
* `Change.restatus`, `Change.reid` : what a transaction makes of an agent.
* `row_follows` : that is what becomes of it.
* `agent_lifecycle` : eviction is terminal, a suspended agent comes back only when it is let, and an
  id is released.
-/

namespace Backplane

open Concur Directory

/-- No two agents have the same number. -/
structure Directory.Numbered (s : Directory) : Prop where
  /-- Each number has been given out. -/
  lt : ∀ a r, s.agents.lookup a = some r → r.born < s.registered
  /-- To one agent. -/
  inj : ∀ a a' r r', s.agents.lookup a = some r → s.agents.lookup a' = some r' → r.born = r'.born →
    a = a'

/-- The agent of this number has this id and this status. -/
def Directory.RowAt (s : Directory) (n : ℕ) (a : AgentId) (st : AgentStatus) : Prop :=
  ∃ r, s.agents.lookup a = some r ∧ r.born = n ∧ r.status = st

/-- The id the agent of this id and status has after a transaction. -/
def Change.reid (a : AgentId) (st : AgentStatus) : Change → AgentId
  | release a' epoch => if a = a' ∧ st = .removed then tombstoneAgentId a epoch else a
  | _ => a

section

variable {cfg : IdentitySettings} {e : DirEnv} {s s' : Directory} {out : Outcome} {c : Change}
  {a : AgentId} {st : AgentStatus} {n : ℕ}

theorem Change.reid_eq (h : ∀ epoch, c = release a epoch → st ≠ .removed) : c.reid a st = a := by
  unfold reid
  split
  · rename_i a' epoch
    rw [if_neg]
    rintro ⟨rfl, hst⟩
    exact h epoch rfl hst
  · rfl

theorem RowAt.unique (hs : s.Numbered) (h : s.RowAt n a st) {a' : AgentId} {r : AgentRecord}
    (hr : s.agents.lookup a' = some r) (hn : r.born = n) : a' = a ∧ r.status = st := by
  obtain ⟨r', hr', rfl, rfl⟩ := h
  obtain rfl := hs.inj a' a r r' hr hr' hn
  obtain rfl := Option.some.inj (hr.symm.trans hr')
  exact ⟨rfl, rfl⟩

/-! ### One transaction -/

theorem Directory.Numbered.apply (hs : s.Numbered) (hx : c.apply cfg e s = .ok (s', out)) :
    s'.Numbered := by
  rcases Change.agents_ok hx with ⟨-, hreg, hl⟩ | ⟨a, i, -, hfree, hreg, hag⟩ |
      ⟨a, epoch, r, -, hr, -, hcol, hreg, hag⟩
  · constructor
    · intro x r hr
      rw [hl] at hr
      obtain ⟨r₀, hr₀, rfl⟩ := Option.map_eq_some_iff.1 hr
      rw [hreg]
      exact hs.lt x r₀ hr₀
    · intro x y r r' hr hr' hn
      rw [hl] at hr hr'
      obtain ⟨r₀, hr₀, rfl⟩ := Option.map_eq_some_iff.1 hr
      obtain ⟨r₁, hr₁, rfl⟩ := Option.map_eq_some_iff.1 hr'
      exact hs.inj x y r₀ r₁ hr₀ hr₁ hn
  · constructor
    · intro x r hr
      rw [hag, Table.lookup_insert] at hr
      rw [hreg]
      split_ifs at hr
      · obtain rfl := Option.some.inj hr
        exact Nat.lt_succ_self _
      · exact Nat.lt_succ_of_lt (hs.lt x r hr)
    · intro x y r r' hr hr' hn
      rw [hag, Table.lookup_insert] at hr hr'
      split_ifs at hr hr' with hxa hya hya
      · exact hxa.trans hya.symm
      · obtain rfl := Option.some.inj hr
        exact absurd hn (hs.lt y r' hr').ne'
      · obtain rfl := Option.some.inj hr'
        exact absurd hn (hs.lt x r hr).ne
      · exact hs.inj x y r r' hr hr' hn
  · constructor
    · intro x r' hr'
      rw [hag, Table.lookup_renamed] at hr'
      rw [hreg]
      split_ifs at hr'
      · obtain rfl := Option.some.inj hr'
        exact hs.lt a r hr
      · exact hs.lt x r' hr'
    · intro x y r₀ r₁ hx hy hn
      rw [hag, Table.lookup_renamed] at hx hy
      split_ifs at hx hy with hxa hya hya' hya hya'
      · exact hxa.trans hya.symm
      · obtain rfl := Option.some.inj hx
        exact absurd (hs.inj a y r r₁ hr hy hn).symm hya'
      · obtain rfl := Option.some.inj hy
        exact absurd (hs.inj x a r₀ r hx hr hn) ‹_›
      · exact hs.inj x y r₀ r₁ hx hy hn

/-- **What becomes of an agent in a transaction.** -/
theorem row_follows (h : s.RowAt n a st) (hx : c.apply cfg e s = .ok (s', out)) :
    s'.RowAt n (c.reid a st) (c.restatus a st) := by
  obtain ⟨r, hr, rfl, rfl⟩ := h
  rcases Change.agents_ok hx with ⟨hno, -, hl⟩ | ⟨a', i, rfl, hfree, -, hag⟩ |
      ⟨a', epoch, r', rfl, hr', hrem, hcol, -, hag⟩
  · refine ⟨{ r with status := c.restatus a r.status }, ?_, rfl, rfl⟩
    rw [Change.reid_eq, hl, hr, Option.map_some]
    rintro epoch rfl
    exact hno a epoch r rfl hr
  · have ha : a ≠ a' := by
      rintro rfl
      exact absurd (hr.symm.trans hfree) (by simp)
    refine ⟨r, ?_, rfl, ?_⟩
    · rw [hag, Change.reid_eq (by simp), AList.lookup_insert_ne ha, hr]
    · rw [Change.restatus, if_neg fun h => ha h.1]
  · by_cases ha : a = a'
    · subst ha
      obtain rfl := Option.some.inj (hr.symm.trans hr')
      have hid : (Change.release a epoch).reid a r.status = tombstoneAgentId a epoch :=
        if_pos ⟨rfl, hrem⟩
      refine ⟨{ r with agentId := tombstoneAgentId a epoch }, ?_, rfl, rfl⟩
      rw [hid, hag, Table.lookup_renamed, if_pos rfl]
    · have hid : (Change.release a' epoch).reid a r.status = a := if_neg fun h => ha h.1
      refine ⟨r, ?_, rfl, rfl⟩
      rw [hid, hag, Table.lookup_renamed, if_neg, if_neg ha, hr]
      rintro rfl
      rcases collides_eq_false.1 hcol with h | h
      · exact ha h
      · exact absurd (hr.symm.trans h) (by simp)

end

/-! ### Runs -/

/-- The agent of this number is there, and this is so of its status. -/
def Directory.AgentIs (s : Directory) (n : ℕ) (p : AgentStatus → Prop) : Prop :=
  (∃ a st, s.RowAt n a st) ∧ ∀ a st, s.RowAt n a st → p st

/-- The agent is to be suspended. -/
def Change.suspends (_ : Directory) (a : AgentId) : Change → Bool
  | suspend a' => a' = a
  | _ => false

/-- The agent is to be active again: an admin unsuspends it, or it onboards with an invitation that
is good. -/
def Change.revives (s : Directory) (a : AgentId) : Change → Bool
  | unsuspend a' => a' = a
  | onboard a' i => a' = a && (s.invitations.lookup i).any fun i => i.live s.clock
  | _ => false

/-- An admin unsuspends, resets or reprovisions the agent. -/
def Change.recovers (_ : Directory) (a : AgentId) : Change → Bool
  | unsuspend a' | reset a' | reprovision a' _ _ => a' = a
  | _ => false

/-- The transaction is not one of these, for the agent of this number. -/
def DirAct.spares {β : Type} (n : ℕ) (f : Directory → AgentId → Change → Bool) (e : DirEnv)
    (s : Directory) (a : DirAct β) : Bool :=
  e.fault || a.change.all fun c =>
    (s.agents.select fun _ r => decide (r.born = n)).all fun x => !f { s with clock := e.now } x.1 c

/-- No such transaction commits. -/
def sparing (n : ℕ) (f : Directory → AgentId → Change → Bool) :
    Guard DirAct DirEnv Directory DirCall Reply :=
  ⟨fun _ _ => True, fun P _ _ a e => a.spares n f e P.shared = true⟩

section

variable {cfg : IdentitySettings} {boot : DirBoot} {P Q : Pool DirAct Directory DirCall Reply}
  {n : ℕ} {a : AgentId} {st : AgentStatus} {r : AgentRecord}
  {f : Directory → AgentId → Change → Bool} {p : AgentStatus → Prop}

theorem numbered_exec {β : Type} {x : DirAct β} {e : DirEnv} {s s' : Directory} {b : β}
    (hs : s.Numbered) (he : x.exec cfg e s = some (s', b)) : s'.Numbered := by
  rcases DirAct.exec_cases he with ⟨-, hs'⟩ | ⟨c, out, -, -, -, hx⟩
  · rw [hs']
    exact ⟨hs.lt, hs.inj⟩
  · exact Numbered.apply (s := { s with clock := e.now }) ⟨hs.lt, hs.inj⟩ hx

theorem numbered_of_run {g : Guard DirAct DirEnv Directory DirCall Reply}
    (h : Run (identity cfg) g (.init boot.directory) P) : P.shared.Numbered :=
  h.invariant (I := Directory.Numbered) ⟨boot.numbered, boot.distinct⟩ fun hs he => numbered_exec hs he

/-- **What the transactions that are let through keep of an agent's status, a run keeps.** -/
theorem agent_kept (h : Run (identity cfg) (sparing n f) P Q) (hP : P.shared.Numbered)
    (hf : ∀ {c : Change} {e : DirEnv} {s s' : Directory} {out : Outcome} {a : AgentId}
      {st : AgentStatus}, p st → f s a c = false → c.apply cfg e s = .ok (s', out) →
      p (c.restatus a st))
    (hr : P.shared.RowAt n a st) (hst : p st) : Q.shared.AgentIs n p := by
  have hQ : Q.shared.Numbered ∧ ∃ a st, Q.shared.RowAt n a st ∧ p st := by
    refine h.guarded (I := fun s _ => s.Numbered ∧ ∃ a st, s.RowAt n a st ∧ p st) ⟨hP, a, st, hr, hst⟩ ?_
    rintro Q i c β x e s b ⟨hs, a, st, hr, hst⟩ hg he
    refine ⟨numbered_exec hs he, ?_⟩
    rcases DirAct.exec_cases he with ⟨-, hs'⟩ | ⟨c, out, -, hc, hfault, hx⟩
    · rw [hs']
      exact ⟨a, st, hr, hst⟩
    · refine ⟨_, _, row_follows (s := { Q.shared with clock := e.now }) hr hx, hf hst ?_ hx⟩
      have hspare : x.spares n f e Q.shared = true := hg
      rw [DirAct.spares, hfault, hc, Bool.false_or, Option.all_some, List.all_eq_true] at hspare
      obtain ⟨r, hr, hn, -⟩ := hr
      simpa using hspare (a, r) (Table.mem_select.2 ⟨hr, by simpa using hn⟩)
  obtain ⟨hs, a, st, hr, hst⟩ := hQ
  refine ⟨⟨a, st, hr⟩, fun a' st' hr' => ?_⟩
  obtain ⟨r', hr', hn', rfl⟩ := hr'
  rwa [(RowAt.unique hs hr hr' hn').2]

theorem restatus_removed {c : Change} {s : Directory} (hst : st = .removed)
    (hc : c.suspends s a = false) : c.restatus a st = .removed := by
  subst hst
  cases c with
  | suspend a' =>
    have ha : a ≠ a' := fun h => by simp [Change.suspends, h] at hc
    exact if_neg ha
  | _ => simp [Change.restatus]

theorem restatus_inactive {c : Change} {e : DirEnv} {s s' : Directory} {out : Outcome}
    (hst : st ≠ .active) (hc : c.revives s a = false) (hx : c.apply cfg e s = .ok (s', out)) :
    c.restatus a st ≠ .active := by
  cases c with
  | onboard a' i =>
    obtain ⟨-, ⟨inv, hinv, hlive, -⟩, -⟩ := onboard_ok hx
    have ha : a ≠ a' := fun h => by simp [Change.revives, h, hinv, hlive] at hc
    rwa [Change.restatus, if_neg fun h => ha h.1]
  | unsuspend a' =>
    have ha : a ≠ a' := fun h => by simp [Change.revives, h] at hc
    rwa [Change.restatus, if_neg fun h => ha h.1]
  | _ =>
    simp only [Change.restatus]
    first
      | exact hst
      | split_ifs <;> first | exact hst | simp

/-- **An agent that has been removed stays so** unless it is suspended; **one that is suspended is
active again only once an admin has unsuspended it or it has onboarded with an invitation that is
good**; and **the second transaction of its eviction takes its id from an agent that has been
removed**, unless the id is what it would get instead. -/
theorem agent_lifecycle (hP : Run (identity cfg) .free (.init boot.directory) P)
    (hr : P.shared.agents.lookup a = some r) :
    (r.status = .removed → ∀ Q, Run (identity cfg) (sparing r.born Change.suspends) P Q →
      Q.shared.AgentIs r.born (· = .removed)) ∧
    (r.status = .suspended → ∀ Q, Run (identity cfg) (sparing r.born Change.revives) P Q →
      Q.shared.AgentIs r.born (· ≠ .active)) ∧
    (r.status = .removed → ∀ Q epoch e s out,
      Run (identity cfg) (sparing r.born Change.suspends) P Q →
      DirAct.exec cfg (.commit (.release a epoch)) e Q.shared = some (s, .ok out) →
      tombstoneAgentId a epoch ≠ a → ∀ st, ¬ s.RowAt r.born a st) := by
  have hnum : P.shared.Numbered := numbered_of_run hP
  have hrow : P.shared.RowAt r.born a r.status := ⟨r, hr, rfl, rfl⟩
  have hstays : r.status = .removed → ∀ Q, Run (identity cfg) (sparing r.born Change.suspends) P Q →
      Q.shared.AgentIs r.born (· = .removed) := fun hst Q hQ =>
    agent_kept hQ hnum (fun hst hc _ => restatus_removed hst hc) hrow hst
  refine ⟨hstays, fun hst Q hQ => ?_, fun hst Q epoch e s out hQ he hid st hat => ?_⟩
  · exact agent_kept hQ hnum (fun hst hc hx => restatus_inactive hst hc hx) hrow (by simp [hst])
  · obtain ⟨⟨x, st', hx⟩, hrem⟩ := hstays hst Q hQ
    obtain rfl : st' = .removed := hrem x st' hx
    obtain ⟨-, hcom⟩ := DirAct.exec_eq he
    rcases committed_eq hcom with ⟨err, h, -⟩ | ⟨o, -, -, happly⟩
    · exact absurd h (by simp)
    · have hnew := row_follows (s := { Q.shared with clock := e.now }) hx happly
      obtain ⟨r', hr', hn, -⟩ := hat
      have hs : s.Numbered := numbered_exec (numbered_of_run (hP.trans hQ.free)) he
      have ha := (RowAt.unique hs hnew hr' hn).1
      by_cases hxa : x = a
      · rw [Change.reid, if_pos ⟨hxa, rfl⟩, hxa] at ha
        exact hid ha.symm
      · rw [Change.reid, if_neg fun h => hxa h.1] at ha
        exact hxa ha.symm

end

/-! ### A directory to run -/

/-- An agent is evicted, up to its end, and another is suspended. -/
theorem agent_lifecycle_evicted :
    (∃ P Q s out, (identity {}).run (fun _ _ _ _ _ => true) (.init Sample.inviteBoot.directory)
        (Sample.onboarded ++ .start (.evict "bot") :: List.replicate 2 (.step 1 {})) = some P ∧
      (identity {}).run (fun P _ _ a e => a.spares 0 Change.suspends e P.shared) P
        (List.replicate 2 (.step 1 {})) = some Q ∧
      DirAct.exec {} (.commit (.release "bot" 0)) {} Q.shared = some (s, .ok out) ∧
      Q.shared.AgentIs 0 (· = .removed) ∧ ∀ st, ¬ s.RowAt 0 "bot" st) ∧
    ∃ P Q, (identity {}).run (fun _ _ _ _ _ => true) (.init Sample.inviteBoot.directory)
        (Sample.onboarded ++ .start (.suspend "bot") :: List.replicate 2 (.step 1 {})) = some P ∧
      (identity {}).run (fun P _ _ a e => a.spares 0 Change.revives e P.shared) P
        (.start (.reset "bot") :: List.replicate 2 (.step 2 {})) = some Q ∧
      Q.shared.AgentIs 0 (· ≠ .active) := by
  constructor
  · have hplay : (((identity {}).run (fun _ _ _ _ _ => true) (.init Sample.inviteBoot.directory)
        (Sample.onboarded ++ .start (.evict "bot") :: List.replicate 2 (.step 1 {}))).bind fun P =>
      ((identity {}).run (fun P _ _ a e => a.spares 0 Change.suspends e P.shared) P
        (List.replicate 2 (.step 1 {}))).bind fun Q =>
      (DirAct.exec {} (.commit (.release "bot" 0)) {} Q.shared).map fun x =>
        (P.shared.agents.lookup "bot", x.2)) =
        some (some ⟨"bot", .removed, 0⟩,
          .ok (.released "deleted_bot_0" (some "deleted_usr_service_bot_0"))) := by
      decide +kernel
    obtain ⟨P, hP, h⟩ := Option.bind_eq_some_iff.1 hplay
    obtain ⟨Q, hQ, h⟩ := Option.bind_eq_some_iff.1 h
    obtain ⟨⟨s, _⟩, he, h⟩ := Option.map_eq_some_iff.1 h
    obtain ⟨hr, rfl⟩ := Prod.mk.inj h
    have hrun : Run (identity {}) .free (.init Sample.inviteBoot.directory) P :=
      Run.of_run (fun _ _ => trivial) (fun _ _ _ _ _ _ => trivial) hP
    have hrun' : Run (identity {}) (sparing 0 Change.suspends) P Q :=
      Run.of_run (fun _ _ => trivial) (fun _ _ _ _ _ hc => hc) hQ
    obtain ⟨hstays, -, hfrees⟩ := agent_lifecycle hrun hr
    exact ⟨P, Q, s, _, hP, hQ, he, hstays rfl Q hrun',
      hfrees rfl Q 0 {} s _ hrun' he (by decide +kernel)⟩
  · have hplay : (((identity {}).run (fun _ _ _ _ _ => true) (.init Sample.inviteBoot.directory)
        (Sample.onboarded ++ .start (.suspend "bot") :: List.replicate 2 (.step 1 {}))).bind fun P =>
      ((identity {}).run (fun P _ _ a e => a.spares 0 Change.revives e P.shared) P
        (.start (.reset "bot") :: List.replicate 2 (.step 2 {}))).map fun _ =>
          P.shared.agents.lookup "bot") = some (some ⟨"bot", .suspended, 0⟩) := by
      decide +kernel
    obtain ⟨P, hP, h⟩ := Option.bind_eq_some_iff.1 hplay
    obtain ⟨Q, hQ, hr⟩ := Option.map_eq_some_iff.1 h
    have hrun : Run (identity {}) .free (.init Sample.inviteBoot.directory) P :=
      Run.of_run (fun _ _ => trivial) (fun _ _ _ _ _ _ => trivial) hP
    exact ⟨P, Q, hP, hQ, (agent_lifecycle hrun hr).2.1 rfl Q
      (Run.of_run (fun _ _ => trivial) (fun _ _ _ _ _ hc => hc) hQ)⟩

/-- A suspended agent onboards with an invitation and is active, though no admin has unsuspended,
reset or reprovisioned it. -/
theorem suspended_agent_returns : ¬ ∀ (cfg : IdentitySettings) (boot : DirBoot)
    (P Q : Pool DirAct Directory DirCall Reply) (a : AgentId) (r : AgentRecord),
    Run (identity cfg) .free (.init boot.directory) P → P.shared.agents.lookup a = some r →
    r.status = .suspended →
    Run (identity cfg) (sparing r.born Change.recovers) P Q →
    Q.shared.AgentIs r.born (· ≠ .active) := by
  intro hall
  have hplay : (((identity {}).run (fun _ _ _ _ _ => true) (.init Sample.inviteBoot.directory)
      (Sample.onboarded ++ .start (.suspend "bot") :: List.replicate 2 (.step 1 {}))).bind fun P =>
    ((identity {}).run (fun P _ _ a e => a.spares 0 Change.recovers e P.shared) P
      [.start (.onboard "bot" "i2"), .step 2 { secret := "t" }]).map fun Q =>
      (P.shared.agents.lookup "bot", Q.shared.agents.lookup "bot")) =
      some (some ⟨"bot", .suspended, 0⟩, some ⟨"bot", .active, 0⟩) := by
    decide +kernel
  obtain ⟨P, hP, h⟩ := Option.bind_eq_some_iff.1 hplay
  obtain ⟨Q, hQ, h⟩ := Option.map_eq_some_iff.1 h
  obtain ⟨hr, hr'⟩ := Prod.mk.inj h
  have hout := hall {} Sample.inviteBoot P Q "bot" _
    (Run.of_run (fun _ _ => trivial) (fun _ _ _ _ _ _ => trivial) hP) hr rfl
    (Run.of_run (fun _ _ => trivial) (fun _ _ _ _ _ hc => hc) hQ)
  exact hout.2 "bot" .active ⟨_, hr', rfl, rfl⟩ rfl

end Backplane
