import Backplane.Acl.Store
import Backplane.Concur.Discipline

/-!
# Changing the rules and reloading them

The rule endpoints of one worker.  A request commits its change in a transaction and then, under the
worker's lock, reads the table and replaces the rules in memory.

* `AclAct`, `AclAct.exec` : the atomic actions; `ruleRequest` : the program of an endpoint.
* `aclWorker` : the machine, whose runs are the interleavings of any number of requests.
* `Coherent` : the rules in memory are those of the table.
* `calm` : no request is struck between its commit and its replacement of the rules, and none
  reorders to a negative `ord`.
* `rules_coherent` : in such runs the rules are coherent whenever no request is in progress.
-/

namespace Backplane

open Concur Prog

/-! ### The worker -/

/-- The table, and what one worker keeps of it. -/
structure AclWorker where
  table : RuleTable := ∅
  rules : List AclRule := []
  /-- Whether `_apply_rule_change_lock` is held. -/
  locked : Bool := false

/-- What a step learns from outside. -/
structure AclEnv where
  /-- The await raises or is cancelled, or the transaction fails. -/
  fault : Bool := false
  ids : List String := []

/-- The atomic actions of the rule endpoints, by the type of their answer. -/
inductive AclAct : Type → Type 1
  /-- Does an exception or a cancellation strike here? -/
  | fault : AclAct Bool
  /-- `get_acl_rule` -/
  | getRule (id : String) : AclAct (Option AclRuleRow)
  | commit (c : RuleChange) : AclAct (Except RuleError Unit)
  /-- Acquire `_apply_rule_change_lock`. -/
  | lock : AclAct Unit
  | unlock : AclAct Unit
  /-- `list_acl_rules` -/
  | listRules : AclAct (List AclRuleRow)
  | replace (rules : List AclRule) : AclAct Unit
  /-- `push_catalog_update_to_all` -/
  | push : AclAct Unit

/-- `RuleSet`: the rules in evaluation order. -/
def ruleSet (rules : List AclRule) : List AclRule := rules.insertionSort fun r r' => r.ord ≤ r'.ord

/-- What an action does; `none` when it has to wait. -/
def AclAct.exec : {β : Type} → AclAct β → AclEnv → AclWorker → Option (AclWorker × β)
  | _, fault, e, s => some (s, e.fault)
  | _, getRule id, _, s => some (s, s.table.lookup id)
  | _, commit c, e, s =>
    -- generated ids are new
    if e.ids.length = c.fresh ∧ e.ids.Nodup ∧ ∀ id ∈ e.ids, s.table.lookup id = none then
      if e.fault then some (s, .error .raised)
      else match c.tx s.table e.ids with
        | .ok table => some ({ s with table }, .ok ())
        | .error err => some (s, .error err)
    else none
  | _, lock, _, s => if s.locked then none else some ({ s with locked := true }, ())
  | _, unlock, _, s => some ({ s with locked := false }, ())
  | _, listRules, _, s => some (s, s.table.listAclRules)
  | _, replace rules, _, s => some ({ s with rules := ruleSet rules }, ())
  | _, push, _, s => some (s, ())

/-- A program of the rule endpoints. -/
abbrev RuleProg := Prog AclAct

/-- Load these rows and replace the rules in memory; `none`: an exception. -/
def install (rows : List AclRuleRow) : RuleProg (Option ℕ) :=
  match rows.mapM rowToRule with
  | none => pure none
  | some rules => do
    perform (.replace rules)
    perform .push
    pure (some rows.length)

/-- What `_apply_rule_change` does under the lock. -/
def reload : RuleProg (Option ℕ) := do
  let rows ← perform .listRules
  install rows

/-- `_apply_rule_change`; the lock is released however the reload ends. -/
def applyRuleChange : RuleProg (Option ℕ) := do
  if ← perform .fault then pure none
  else do
    perform .lock
    let r ← reload.interruptible .fault
    perform .unlock
    pure r.join

/-- Commit a change and apply it. -/
def ruleRequest (c : RuleChange) : RuleProg (Except RuleError Unit) := do
  match ← perform (.commit c) with
  | .error e => pure (.error e)
  | .ok () =>
    match ← applyRuleChange with
    | some _ => pure (.ok ())
    | none => pure (.error .raised)

/-- `delete_rule`, which looks the rule up first. -/
def deleteRule (id : String) : RuleProg (Except RuleError Unit) := do
  match ← perform (.getRule id) with
  | none => pure (.error (.http 404 "rule not found"))
  | some _ => ruleRequest (.delete id)

/-- The program of an endpoint. -/
def RuleChange.body : RuleChange → RuleProg (Except RuleError Unit)
  | delete id => deleteRule id
  | c => ruleRequest c

/-- The rule endpoints of one worker. -/
def aclWorker : Machine AclAct AclEnv AclWorker RuleChange (Except RuleError Unit) where
  exec := AclAct.exec
  body := RuleChange.body

/-- A table with which the application starts: the boot sequence could load it. -/
structure AclBoot where
  table : RuleTable
  rules : List AclRule
  /-- The id is the primary key. -/
  keyed : ∀ k r, table.lookup k = some r → r.ruleId = k
  /-- Every row was loaded. -/
  loaded : table.listAclRules.mapM rowToRule = some rules

/-- The worker after the boot sequence. -/
def AclBoot.worker (b : AclBoot) : AclWorker := { table := b.table, rules := ruleSet b.rules }

/-- The rules in memory are those of the table, in `ord` order. -/
def Coherent (s : AclWorker) : Prop := s.table.listAclRules.mapM rowToRule = some s.rules

/-! ### Loading -/

section

variable {rows : List AclRuleRow} {rules : List AclRule} {t : RuleTable}

theorem mapM_rowToRule_isSome (h : ∀ r ∈ rows, 0 ≤ r.ord) : ∃ rules, rows.mapM rowToRule = some rules := by
  induction rows with
  | nil => exact ⟨[], rfl⟩
  | cons r rows ih =>
    obtain ⟨rules, hrules⟩ := ih fun x hx => h x (List.mem_cons_of_mem _ hx)
    obtain ⟨rule, hrule⟩ := Option.isSome_iff_exists.1
      ((rowToRule_isSome r).2 (h r List.mem_cons_self))
    exact ⟨rule :: rules, by simp [List.mapM_cons, hrule, hrules]⟩

theorem map_ord_of_mapM (h : rows.mapM rowToRule = some rules) :
    rules.map (fun r => (r.ord : ℤ)) = rows.map AclRuleRow.ord := by
  induction rows generalizing rules with
  | nil =>
    obtain rfl : rules = [] := by simpa using h.symm
    rfl
  | cons row rows ih =>
    rw [List.mapM_cons] at h
    obtain ⟨r, hr, h⟩ := Option.bind_eq_some_iff.1 h
    obtain ⟨rs, hrs, h⟩ := Option.bind_eq_some_iff.1 h
    obtain rfl := Option.some.inj h
    rw [List.map_cons, List.map_cons, ord_rowToRule hr, ih hrs]

/-- Loading keeps the order, so sorting what was read from the table changes nothing. -/
theorem ruleSet_of_listed (h : t.listAclRules.mapM rowToRule = some rules) :
    ruleSet rules = rules := by
  have hsorted : (t.listAclRules.map AclRuleRow.ord).Pairwise (· ≤ ·) :=
    List.pairwise_map.2 (List.pairwise_insertionSort _ _)
  rw [← map_ord_of_mapM h, List.pairwise_map] at hsorted
  exact List.Pairwise.insertionSort_eq (hsorted.imp fun hle => by simpa using hle)

end

/-! ### What a request does -/

/-- How far a request has got. -/
inductive RulePhase
  | fresh
  /-- Committed; the rules in memory have not been replaced. -/
  | owing
  | locked
  /-- Holds the lock and has read these rows. -/
  | holding (rows : List AclRuleRow)
  /-- Has replaced the rules and still holds the lock. -/
  | updated
  | released
  /-- Was struck between its commit and its replacement. -/
  | dropped

namespace RulePhase

/-- The lock is taken after the commit, the rows are read under it, and the rules are replaced by
these rows before it is released. -/
def ok : {β : Type} → RulePhase → AclAct β → Prop
  | _, q, .commit _ => q = fresh
  | _, q, .lock => q = owing
  | _, q, .unlock => q = updated ∨ q = dropped
  | _, q, .listRules => q = locked
  | _, q, .replace rules => ∃ rows, q = holding rows ∧ rows.mapM rowToRule = some rules
  | _, _, _ => True

/-- What is read can be loaded. -/
def ans : {β : Type} → AclAct β → β → Prop
  | _, .listRules, rows => ∀ r ∈ rows, 0 ≤ r.ord
  | _, _, _ => True

/-- The phase after an answer. -/
def next : {β : Type} → RulePhase → AclAct β → β → RulePhase
  | _, _, .commit _, .ok () => owing
  | _, _, .lock, _ => locked
  | _, _, .listRules, rows => holding rows
  | _, _, .replace _, _ => updated
  | _, updated, .unlock, _ => released
  | _, owing, .fault, true => dropped
  | _, locked, .fault, true => dropped
  | _, holding _, .fault, true => dropped
  | _, q, _, _ => q

/-- Nothing is left to do. -/
def Quiet (q : RulePhase) : Prop := q = fresh ∨ q = released ∨ q = dropped

end RulePhase

/-- The discipline of a request. -/
def ruleWork : Discipline AclAct RulePhase := ⟨RulePhase.ok, RulePhase.ans, RulePhase.next⟩

section

variable {c : RuleChange}

theorem ruleWork_install {rows : List AclRuleRow} (h : ∀ r ∈ rows, 0 ≤ r.ord) :
    ruleWork.Obeys (.holding rows) ((install rows).interruptible .fault) fun q _ =>
      q = .updated ∨ q = .dropped := by
  -- what was read can be loaded, so the load does not raise
  obtain ⟨rules, hrules⟩ := mapM_rowToRule_isSome h
  rw [install, hrules]
  refine ⟨trivial, fun hit _ => ?_⟩
  cases hit with
  | true => exact .inr rfl
  | false =>
    refine ⟨⟨rows, rfl, hrules⟩, fun _ _ => ⟨trivial, fun hit _ => ?_⟩⟩
    cases hit with
    | true => exact .inl rfl
    | false => exact ⟨trivial, fun _ _ => .inl rfl⟩

theorem ruleWork_reload : ruleWork.Obeys .locked (reload.interruptible .fault) fun q _ =>
    q = .updated ∨ q = .dropped := by
  refine ⟨trivial, fun hit _ => ?_⟩
  cases hit with
  | true => exact .inr rfl
  | false => exact ⟨rfl, fun rows hrows => ruleWork_install hrows⟩

theorem ruleWork_applyRuleChange :
    ruleWork.Obeys .owing applyRuleChange fun q _ => q.Quiet := by
  refine Discipline.obeys_perform_bind.2 ⟨trivial, fun hit _ => ?_⟩
  cases hit with
  | true => exact .inr (.inr rfl)
  | false =>
    refine Discipline.obeys_perform_bind.2 ⟨rfl, fun _ _ => ?_⟩
    refine Discipline.obeys_bind.2 (ruleWork_reload.mono fun q r hq => ?_)
    refine Discipline.obeys_perform_bind.2 ⟨hq, fun _ _ => ?_⟩
    rcases hq with rfl | rfl
    · exact .inr (.inl rfl)
    · exact .inr (.inr rfl)

theorem ruleWork_ruleRequest : ruleWork.Obeys .fresh (ruleRequest c) fun q _ => q.Quiet := by
  refine Discipline.obeys_perform_bind.2 ⟨rfl, fun out _ => ?_⟩
  cases out with
  | error e => exact .inl rfl
  | ok u =>
    refine Discipline.obeys_bind.2 (ruleWork_applyRuleChange.mono fun q r hq => ?_)
    cases r with
    | none => exact hq
    | some n => exact hq

/-- **Every request reloads under the lock what it has committed**, unless it is struck on the way. -/
theorem ruleWork_body (c : RuleChange) : ruleWork.Obeys .fresh c.body fun q _ => q.Quiet := by
  cases c with
  | delete id =>
    refine ⟨trivial, fun row _ => ?_⟩
    cases row with
    | none => exact .inl rfl
    | some r => exact ruleWork_ruleRequest
  | _ => exact ruleWork_ruleRequest

end

/-! ### Every run -/

/-- A change was committed. -/
def commits : Event AclAct → Bool
  | ⟨.commit _, .ok ()⟩ => true
  | _ => false

/-- The rules in memory were replaced. -/
def replaces : Event AclAct → Bool
  | ⟨.replace _, _⟩ => true
  | _ => false

/-- The request has committed a change and has not replaced the rules. -/
def owes (past : List (Event AclAct)) : Bool := past.any commits && !past.any replaces

/-- Who holds the lock after this action. -/
def holds : Option ℕ → ℕ × Event AclAct → Option ℕ
  | _, (i, ⟨.lock, _⟩) => some i
  | _, (_, ⟨.unlock, _⟩) => none
  | h, _ => h

/-- Who holds the lock. -/
def holder (log : Log AclAct) : Option ℕ := log.foldl holds none

/-- No row is asked to get a negative `ord`. -/
def RuleChange.nonneg : RuleChange → Bool
  | reorder newOrds => (newOrds.select fun _ _ => true).all fun p => decide (0 ≤ p.2)
  | _ => true

/-- The request is not struck between its commit and its replacement of the rules, and does not
reorder to a negative `ord`. -/
def calmly (log : Log AclAct) (i : ℕ) : {β : Type} → AclAct β → AclEnv → Bool
  | _, .fault, e => !(e.fault && owes (log.past i))
  | _, .commit c, _ => c.nonneg
  | _, _, _ => true

/-- Every request proceeds calmly. -/
def calm : Guard AclAct AclEnv AclWorker RuleChange (Except RuleError Unit) :=
  ⟨fun _ _ => True, fun P i _ a e => calmly P.log i a e = true⟩

/-- What a phase says about the request and the lock. -/
structure RulePhase.Holds (i : ℕ) (q : RulePhase) (s : AclWorker) (log : Log AclAct) : Prop where
  /-- No request is struck on the way. -/
  alive : q ≠ .dropped
  /-- A request that has begun nothing has committed nothing. -/
  fresh : q = .fresh → (log.past i).any replaces = false
  /-- Between commit and replacement a request owes. -/
  owing : owes (log.past i) = true ↔ q = .owing ∨ q = .locked ∨ ∃ rows, q = .holding rows
  lock : q = .locked ∨ (∃ rows, q = .holding rows) ∨ q = .updated → holder log = some i
  /-- What was read is still in the table, unless somebody else owes. -/
  read : ∀ rows, q = .holding rows → rows = s.table.listAclRules ∨
    ∃ j ≠ i, owes (log.past j) = true

/-- The table can be loaded, the lock is held by one request, and the rules are those of the table
unless a request owes. -/
structure WorkerInv (s : AclWorker) (log : Log AclAct) : Prop where
  /-- The rows can be loaded. -/
  loadable : s.table.Loadable
  lock : s.locked = (holder log).isSome
  rules : Coherent s ∨ ∃ i, owes (log.past i) = true

section

variable {P : Pool AclAct AclWorker RuleChange (Except RuleError Unit)} {s s' : AclWorker}
  {log : Log AclAct} {i j : ℕ} {q : RulePhase} {β : Type} {a : AclAct β} {e : AclEnv} {b : β}
  {y : Event AclAct} {past : List (Event AclAct)} {boot : AclBoot}

theorem owes_append : owes (past ++ [y]) =
    ((past.any commits || commits y) && !(past.any replaces || replaces y)) := by
  simp [owes]

theorem holder_append : holder (log ++ [(j, y)]) = holds (holder log) (j, y) := by
  simp [holder]

theorem nonneg_iff {c : RuleChange} : c.nonneg = true ↔
    ∀ newOrds, c = .reorder newOrds → ∀ id ord, newOrds.lookup id = some ord → 0 ≤ ord := by
  cases c with
  | reorder newOrds =>
    simp only [RuleChange.nonneg, List.all_eq_true, decide_eq_true_eq]
    constructor
    · rintro h _ ⟨⟩ id ord ho
      exact h (id, ord) (Table.mem_select.2 ⟨ho, rfl⟩)
    · rintro h ⟨id, ord⟩ hp
      exact h newOrds rfl id ord (Table.mem_select.1 hp).1
  | _ => exact iff_of_true rfl fun _ h => absurd h (by simp)

/-- What happened to the table, the rules and the lock. -/
theorem AclAct.exec_commit {c : RuleChange} {out : Except RuleError Unit}
    (he : (AclAct.commit c).exec e s = some (s', out)) :
    (∃ err, out = .error err ∧ s' = s) ∨
      ∃ t, out = .ok () ∧ c.tx s.table e.ids = .ok t ∧ s' = { s with table := t } := by
  simp only [exec] at he
  split_ifs at he
  · obtain ⟨rfl, rfl⟩ := Prod.mk.inj (Option.some.inj he)
    exact .inl ⟨_, rfl, rfl⟩
  · cases ht : c.tx s.table e.ids with
    | error err =>
      rw [ht] at he
      obtain ⟨rfl, rfl⟩ := Prod.mk.inj (Option.some.inj he)
      exact .inl ⟨err, rfl, rfl⟩
    | ok t =>
      rw [ht] at he
      obtain ⟨rfl, rfl⟩ := Prod.mk.inj (Option.some.inj he)
      exact .inr ⟨t, rfl, rfl, rfl⟩

/-- What is known by those who wait stays true. -/
theorem RulePhase.Holds.frame {q' : RulePhase} (hj : j ≠ i) (hinv : WorkerInv s log)
    (hq : q.Holds i s log) (hok : q.ok a) (he : a.exec e s = some (s', b))
    (hq' : q'.Holds j s log) : q'.Holds j s' (log ++ [(i, ⟨a, b⟩)]) := by
  have hpast : Log.past (log ++ [(i, ⟨a, b⟩)]) j = log.past j := Log.past_append_ne hj
  refine ⟨hq'.alive, by rw [hpast]; exact hq'.fresh, by rw [hpast]; exact hq'.owing, ?_, ?_⟩
  · intro hl
    have hold := hq'.lock hl
    rw [holder_append]
    cases a with
    | lock =>
      -- the lock is taken, so nobody can take it
      simp only [AclAct.exec, Option.ite_none_left_eq_some] at he
      rw [hinv.lock, hold] at he
      exact absurd rfl he.1
    | unlock =>
      have hmine : holder log = some i := hq.lock (.inr (.inr (hok.resolve_right hq.alive)))
      rw [hold] at hmine
      exact absurd (Option.some.inj hmine) hj
    | _ => exact hold
  · intro rows hr
    have howes : ∀ k, k ≠ i → owes (Log.past (log ++ [(i, ⟨a, b⟩)]) k) = owes (log.past k) :=
      fun k hk => by rw [Log.past_append_ne hk]
    rcases hq'.read rows hr with hrows | ⟨k, hk, hko⟩
    · cases a with
      | commit c =>
        rcases AclAct.exec_commit he with ⟨err, rfl, rfl⟩ | ⟨t, rfl, -, rfl⟩
        · exact .inl hrows
        · -- a fresh commit: its request owes now
          obtain rfl : q = .fresh := hok
          refine .inr ⟨i, Ne.symm hj, ?_⟩
          rw [Log.past_append_self, owes_append, hq.fresh rfl]
          simp [commits, replaces]
      | _ =>
        simp only [AclAct.exec, Option.ite_none_left_eq_some, Option.some.injEq,
          Prod.mk.injEq] at he
        first
          | obtain ⟨rfl, -⟩ := he
            exact .inl hrows
          | obtain ⟨-, rfl, -⟩ := he
            exact .inl hrows
    · by_cases hki : k = i
      · subst hki
        refine .inr ⟨k, hk, ?_⟩
        rw [Log.past_append_self, owes_append]
        have hko' := hko
        simp only [owes, Bool.and_eq_true, Bool.not_eq_true'] at hko
        cases a with
        | replace rules =>
          -- whoever replaces holds the lock, which is taken
          obtain ⟨rows', hph, -⟩ := hok
          have hmine : holder log = some k := hq.lock (.inr (.inl ⟨rows', hph⟩))
          rw [hq'.lock (.inr (.inl ⟨rows, hr⟩))] at hmine
          exact absurd (Option.some.inj hmine) hj
        | _ => simp [hko.1, hko.2, replaces]
      · exact .inr ⟨k, hk, (howes k hki).trans hko⟩

/-- The rules stay coherent, or somebody owes. -/
theorem WorkerInv.exec (hinv : WorkerInv s log) (hq : q.Holds i s log) (hok : q.ok a)
    (hg : calmly log i a e = true) (he : a.exec e s = some (s', b)) :
    WorkerInv s' (log ++ [(i, ⟨a, b⟩)]) := by
  -- an action that neither commits nor replaces leaves everybody's debts as they are
  have hkeep : commits ⟨a, b⟩ = false → replaces ⟨a, b⟩ = false →
      ∀ k, owes (Log.past (log ++ [(i, ⟨a, b⟩)]) k) = owes (log.past k) := by
    intro hcm hrp k
    by_cases hk : k = i
    · subst hk
      rw [Log.past_append_self, owes_append, hcm, hrp, Bool.or_false, Bool.or_false]
      rfl
    · rw [Log.past_append_ne hk]
  cases a with
  | commit c =>
    rcases AclAct.exec_commit he with ⟨err, rfl, rfl⟩ | ⟨t, rfl, ht, rfl⟩
    · refine ⟨hinv.loadable, by rw [holder_append]; exact hinv.lock, ?_⟩
      exact hinv.rules.imp_right fun ⟨k, hk⟩ => ⟨k, (hkeep rfl rfl k).trans hk⟩
    · refine ⟨hinv.loadable.tx (nonneg_iff.1 hg) ht,
        by rw [holder_append]; exact hinv.lock, .inr ⟨i, ?_⟩⟩
      obtain rfl : q = .fresh := hok
      rw [Log.past_append_self, owes_append, hq.fresh rfl]
      simp [commits, replaces]
  | replace rules =>
    obtain ⟨rfl, -⟩ := Prod.mk.inj (Option.some.inj he)
    refine ⟨hinv.loadable, by rw [holder_append]; exact hinv.lock, ?_⟩
    obtain ⟨rows, rfl, hload⟩ := hok
    rcases hq.read rows rfl with rfl | ⟨k, hk, hko⟩
    · refine .inl ?_
      rw [Coherent, hload, ruleSet_of_listed hload]
    · refine .inr ⟨k, ?_⟩
      rwa [Log.past_append_ne hk]
  | lock =>
    simp only [AclAct.exec, Option.ite_none_left_eq_some, Option.some.injEq, Prod.mk.injEq] at he
    obtain ⟨-, rfl, -⟩ := he
    exact ⟨hinv.loadable, by rw [holder_append]; rfl,
      hinv.rules.imp_right fun ⟨k, hk⟩ => ⟨k, (hkeep rfl rfl k).trans hk⟩⟩
  | unlock =>
    obtain ⟨rfl, -⟩ := Prod.mk.inj (Option.some.inj he)
    exact ⟨hinv.loadable, by rw [holder_append]; rfl,
      hinv.rules.imp_right fun ⟨k, hk⟩ => ⟨k, (hkeep rfl rfl k).trans hk⟩⟩
  | _ =>
    obtain ⟨rfl, -⟩ := Prod.mk.inj (Option.some.inj he)
    exact ⟨hinv.loadable, by rw [holder_append]; exact hinv.lock,
      hinv.rules.imp_right fun ⟨k, hk⟩ => ⟨k, (hkeep rfl rfl k).trans hk⟩⟩

/-- What a request learns is true. -/
theorem RulePhase.Holds.next (hinv : WorkerInv s log) (hq : q.Holds i s log) (hok : q.ok a)
    (hg : calmly log i a e = true) (he : a.exec e s = some (s', b)) :
    RulePhase.ans a b ∧ (q.next a b).Holds i s' (log ++ [(i, ⟨a, b⟩)]) := by
  -- what an action says that changes neither the phase nor the table
  have hstay : s'.table = s.table → commits ⟨a, b⟩ = false → replaces ⟨a, b⟩ = false →
      holds (holder log) (i, ⟨a, b⟩) = holder log → q.Holds i s' (log ++ [(i, ⟨a, b⟩)]) := by
    intro ht hcm hrp hh
    have hpast : Log.past (log ++ [(i, ⟨a, b⟩)]) i = log.past i ++ [⟨a, b⟩] :=
      Log.past_append_self
    have howes : owes (log.past i ++ [⟨a, b⟩]) = owes (log.past i) := by
      rw [owes_append, hcm, hrp, Bool.or_false, Bool.or_false]
      rfl
    refine ⟨hq.alive, fun hf => ?_, ?_, fun hl => ?_, fun rows hr => ?_⟩
    · rw [hpast, List.any_append, hq.fresh hf]
      simp [hrp]
    · rw [hpast, howes]
      exact hq.owing
    · rw [holder_append, hh]
      exact hq.lock hl
    · rw [ht]
      refine (hq.read rows hr).imp_right fun ⟨k, hk, hko⟩ => ⟨k, hk, ?_⟩
      rwa [Log.past_append_ne hk]
  have hquiet : commits ⟨a, b⟩ = false → replaces ⟨a, b⟩ = false →
      owes (Log.past (log ++ [(i, ⟨a, b⟩)]) i) = owes (log.past i) := by
    intro hcm hrp
    rw [Log.past_append_self, owes_append, hcm, hrp, Bool.or_false, Bool.or_false]
    rfl
  cases a with
  | fault =>
    obtain ⟨rfl, rfl⟩ := Prod.mk.inj (Option.some.inj he)
    refine ⟨trivial, ?_⟩
    cases hf : e.fault with
    | false =>
      rw [hf] at hstay
      have hsame : q.next AclAct.fault false = q := by cases q <;> rfl
      rw [hsame]
      exact hstay rfl rfl rfl rfl
    | true =>
      rw [hf] at hstay
      have hclear : ¬ owes (log.past i) = true := by simpa [calmly, hf] using hg
      have hno := hq.owing.not.1 hclear
      have hsame : q.next AclAct.fault true = q := by
        cases q with
        | owing => exact absurd (.inl rfl) hno
        | locked => exact absurd (.inr (.inl rfl)) hno
        | holding rows => exact absurd (.inr (.inr ⟨rows, rfl⟩)) hno
        | _ => rfl
      rw [hsame]
      exact hstay rfl rfl rfl rfl
  | getRule id =>
    obtain ⟨rfl, -⟩ := Prod.mk.inj (Option.some.inj he)
    exact ⟨trivial, hstay rfl rfl rfl rfl⟩
  | commit c =>
    refine ⟨trivial, ?_⟩
    rcases AclAct.exec_commit he with ⟨err, rfl, rfl⟩ | ⟨t, rfl, ht, rfl⟩
    · exact hstay rfl rfl rfl rfl
    · obtain rfl : q = .fresh := hok
      refine ⟨by simp [RulePhase.next], by simp [RulePhase.next], ?_, by simp [RulePhase.next],
        by simp [RulePhase.next]⟩
      rw [Log.past_append_self, owes_append, hq.fresh rfl]
      simp [commits, replaces, RulePhase.next]
  | lock =>
    refine ⟨trivial, by simp [RulePhase.next], by simp [RulePhase.next], ?_, fun _ => ?_,
      by simp [RulePhase.next]⟩
    · rw [hquiet rfl rfl, hq.owing]
      obtain rfl : q = .owing := hok
      simp [RulePhase.next]
    · rw [holder_append]
      rfl
  | unlock =>
    obtain rfl : q = .updated := hok.resolve_right hq.alive
    refine ⟨trivial, by simp [RulePhase.next], by simp [RulePhase.next], ?_, by simp [RulePhase.next],
      by simp [RulePhase.next]⟩
    rw [hquiet rfl rfl, hq.owing]
    simp [RulePhase.next]
  | listRules =>
    obtain ⟨rfl, rfl⟩ := Prod.mk.inj (Option.some.inj he)
    obtain rfl : q = .locked := hok
    refine ⟨fun r hr => ?_, by simp [RulePhase.next], by simp [RulePhase.next], ?_, fun _ => ?_, ?_⟩
    · obtain ⟨k, hk⟩ := RuleTable.mem_listAclRules.1 hr
      exact (hinv.loadable k r hk).2.resolve_right not_false
    · rw [hquiet rfl rfl, hq.owing]
      simp [RulePhase.next]
    · rw [holder_append]
      exact hq.lock (.inl rfl)
    · rintro rows ⟨⟩
      exact .inl rfl
  | replace rules =>
    obtain ⟨rows, rfl, hload⟩ := hok
    refine ⟨trivial, by simp [RulePhase.next], by simp [RulePhase.next], ?_, fun _ => ?_,
      by simp [RulePhase.next]⟩
    · rw [Log.past_append_self, owes_append]
      simp [replaces, RulePhase.next]
    · rw [holder_append]
      exact hq.lock (.inr (.inl ⟨rows, rfl⟩))
  | push =>
    obtain ⟨rfl, -⟩ := Prod.mk.inj (Option.some.inj he)
    exact ⟨trivial, hstay rfl rfl rfl rfl⟩

theorem sound_ruleWork (boot : AclBoot) :
    Sound aclWorker calm ruleWork (fun _ => .fresh) boot.worker WorkerInv
      (fun i _ q s log => q.Holds i s log) where
  init := by
    refine ⟨fun k r hr => ⟨boot.keyed k r hr, .inl ?_⟩, rfl, .inl ?_⟩
    · have hmem : r ∈ boot.table.listAclRules := RuleTable.mem_listAclRules.2 ⟨k, hr⟩
      have hord : r.ord ∈ boot.table.listAclRules.map AclRuleRow.ord := List.mem_map_of_mem hmem
      rw [← map_ord_of_mapM boot.loaded] at hord
      obtain ⟨rule, -, hr⟩ := List.mem_map.1 hord
      exact hr ▸ Int.natCast_nonneg _
    · rw [Coherent]
      exact boot.loaded.trans (congrArg some (ruleSet_of_listed boot.loaded).symm)
  start {P c} hrun _ _ := by
    have hpast : Log.past P.log P.threads.length = [] := hrun.past_eq_nil le_rfl
    refine ⟨by simp, fun _ => by rw [hpast]; rfl, ?_, by simp, by simp⟩
    rw [hpast]
    simp [owes]
  step _ _ hg he hinv hq hok := by
    obtain ⟨hans, hnext⟩ := hq.next hinv hok hg he
    exact ⟨hans, hinv.exec hq hok hg he, hnext⟩
  frame _ _ _ he hinv hq hok _ _ _ hj hq' := RulePhase.Holds.frame hj hinv hq hok he hq'

/-- **The rules in memory are those of the table whenever no request is in progress**, as long as no
request is struck between its commit and its replacement of the rules, and none reorders to a
negative `ord`. -/
theorem rules_coherent (h : Run aclWorker calm (.init boot.worker) P)
    (hquiet : ∀ th ∈ P.threads, th.prog.Finished) :
    P.shared.table.listAclRules.mapM rowToRule = some P.shared.rules := by
  obtain ⟨hinv, hthreads⟩ := (sound_ruleWork boot).of_run ruleWork_body h
  refine hinv.rules.resolve_right ?_
  rintro ⟨i, hi⟩
  rcases Nat.lt_or_ge i P.threads.length with hlt | hge
  · obtain ⟨q, hq, hfin⟩ := hthreads i _ (List.getElem?_eq_getElem hlt)
    have hdone := hquiet _ (List.getElem_mem hlt)
    cases hp : P.threads[i].prog with
    | act a k =>
      rw [hp] at hdone
      exact hdone
    | ret r =>
      rw [hp] at hfin
      rcases hq.owing.1 hi with rfl | rfl | ⟨rows, rfl⟩
      all_goals exact absurd hfin (by simp [RulePhase.Quiet])
  · rw [show Log.past P.log i = [] from h.past_eq_nil hge] at hi
    exact absurd hi (by simp [owes])

end

/-! ### A worker to run -/

namespace Sample

/-- The rule of a fresh installation: everybody may call everybody. -/
def bootstrapRow : AclRuleRow where
  ruleId := "rule_bootstrap_default"
  ord := 2
  name := some "bootstrap"
  description := none
  allow := true
  userLevel := "*"
  callerPattern := "*/*"
  calleePattern := "*/*"
  checked := by decide +kernel

/-- The rule, loaded. -/
def bootstrapRule : AclRule where
  ruleId := some "rule_bootstrap_default"
  ord := 2
  name := some "bootstrap"
  description := none
  allow := true
  userLevel := ⟨"*", by decide +kernel⟩
  callerPattern := ⟨"*/*", by decide +kernel⟩
  calleePattern := ⟨"*/*", by decide +kernel⟩

/-- A table with this rule alone. -/
def aclBoot : AclBoot where
  table := AList.insert "rule_bootstrap_default" bootstrapRow ∅
  rules := [bootstrapRule]
  keyed k r hr := by
    rw [Table.lookup_insert] at hr
    split_ifs at hr with hk
    · obtain rfl := Option.some.inj hr
      exact hk.symm
    · exact absurd hr (by simp)
  loaded := by decide +kernel

/-- A rule that denies everything to everybody. -/
def denyAll : CreateRule where
  ord := 0
  allow := false
  userLevel := ⟨"*", by decide +kernel⟩
  callerPattern := ⟨"*/*", by decide +kernel⟩
  calleePattern := ⟨"*/*", by decide +kernel⟩

/-- The request to add it is started and commits. -/
def denied : List (Move AclEnv RuleChange) := [.start (.add denyAll), .step 0 { ids := ["r"] }]

end Sample

/-- A request that adds a rule, up to its end. -/
theorem rules_coherent_added : ∃ P, aclWorker.run (fun P i _ a e => calmly P.log i a e)
      (.init Sample.aclBoot.worker) (Sample.denied ++ List.replicate 9 (.step 0 {})) = some P ∧
    P.shared.table.listAclRules.mapM rowToRule = some P.shared.rules := by
  have hplay : ((aclWorker.run (fun P i _ a e => calmly P.log i a e)
      (.init Sample.aclBoot.worker) (Sample.denied ++ List.replicate 9 (.step 0 {}))).map
        fun P => P.threads.all fun th => th.prog.finished) = some true := by
    decide +kernel
  obtain ⟨P, hP, hquiet⟩ := Option.map_eq_some_iff.1 hplay
  have hrun : Run aclWorker calm (.init Sample.aclBoot.worker) P :=
    Run.of_run (fun _ _ => trivial) (fun _ _ _ _ _ hc => hc) hP
  refine ⟨P, hP, rules_coherent hrun fun th hth => ?_⟩
  exact finished_iff.1 (List.all_eq_true.1 hquiet th hth)

/-- The request is struck right after its commit: the rule is in the table, and admission does not
know it. -/
theorem rules_incoherent : ¬ ∀ (boot : AclBoot)
    (P : Pool AclAct AclWorker RuleChange (Except RuleError Unit)),
    Run aclWorker .free (.init boot.worker) P → (∀ th ∈ P.threads, th.prog.Finished) →
    P.shared.table.listAclRules.mapM rowToRule = some P.shared.rules := by
  intro hall
  have hplay : ((aclWorker.run (fun _ _ _ _ _ => true) (.init Sample.aclBoot.worker)
      (Sample.denied ++ [.step 0 { fault := true }])).map fun P =>
        (P.threads.all fun th => th.prog.finished,
          decide (P.shared.table.listAclRules.mapM rowToRule = some P.shared.rules))) =
      some (true, false) := by
    decide +kernel
  obtain ⟨P, hP, h⟩ := Option.map_eq_some_iff.1 hplay
  obtain ⟨hquiet, hstale⟩ := Prod.mk.inj h
  refine of_decide_eq_false hstale (hall Sample.aclBoot P
    (Run.of_run (fun _ _ => trivial) (fun _ _ _ _ _ _ => trivial) hP) fun th hth => ?_)
  exact finished_iff.1 (List.all_eq_true.1 hquiet th hth)

end Backplane
