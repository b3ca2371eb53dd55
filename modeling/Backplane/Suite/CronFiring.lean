import Backplane.Suite.Cron

/-!
# When scheduled jobs fire

A claim sets `last_executed_at` to the scheduler's clock, which is past the instant claimed, and
succeeds for later instants only.  So no instant fires twice, whatever the clocks say.  Nothing
compares the instant with the time the job was created or last changed.

* `cronCheck` : a pass claims the instants that are due by what it has listed, and runs what it has
  won.
* `CronInv` : the claims that were won for a job ascend, up to its `last_executed_at`.
* `freshWindows` : when a claim is won the schedule listed is still the job's, and an instant of it
  lies between the last change and the clock.
* `cron_exact` : then every firing is for an instant after the last change.
-/

namespace Backplane.Cron

open Concur Prog

variable {cal : Croniter} {s s' : CronDb} {e : CronEnv} {β : Type}

/-! ### The property -/

/-- The claim of a job for an instant is won. -/
def wins (cronId : ℕ) (due : Instant) (x : Event CronAct) : Bool :=
  match x with
  | ⟨.claimCronJob cronId' due' _, some true⟩ => decide (cronId' = cronId ∧ due' = due)
  | _ => false

/-- The job fires for an instant. -/
def fires (cronId : ℕ) (due : Instant) (x : Event CronAct) : Bool :=
  match x with
  | ⟨.spawnRootForUser job _ due', _⟩ => decide (job.cronId = cronId ∧ due' = due)
  | _ => false

/-- The instant is one of the job's schedule, after its creation and its last change. -/
structure WonClaim.Timely (cal : Croniter) (w : WonClaim) : Prop where
  scheduled : cal.scheduled w.job.cronExpression (cal.tz w.job.timezone) w.due
  /-- After the creation. -/
  created : w.job.createdAt < w.due
  /-- After the last change. -/
  changed : w.job.changedAt < w.due

/-- The schedule is the one that was listed, and an instant of it lies between the last change and
`now`. -/
structure CronJob.Fresh (cal : Croniter) (r : CronJob) (past : List (Event CronAct))
    (now : Instant) : Prop where
  /-- The schedule has not changed since the listing. -/
  listed : ∀ jobs, ⟨.listActiveCronJobs, some jobs⟩ ∈ past → ∀ job ∈ jobs, job.cronId = r.cronId →
    job.cronExpression = r.cronExpression ∧ job.timezone = r.timezone
  /-- There is such an instant. -/
  window : ∃ t, cal.scheduled r.cronExpression (cal.tz r.timezone) t ∧ r.createdAt < t ∧
    r.changedAt < t ∧ t < now

/-- A claim that is about to be won finds such a row. -/
def CronAct.fresh (cal : Croniter) (s : CronDb) (past : List (Event CronAct)) : CronAct β → Prop
  | claimCronJob cronId due now => ∀ r, s.jobs.lookup cronId = some r → r.claimable due = true →
      r.Fresh cal past now
  | _ => True

/-- Jobs are claimed where an instant has come since the last change. -/
def freshWindows (cal : Croniter) : Guard CronAct CronEnv CronDb CronCall (Except Unit CronReply) :=
  ⟨fun _ _ => True, fun P i _ a _ => a.fresh cal P.shared (P.past i)⟩

/-! ### What a pass does -/

/-- What a pass knows. -/
structure CronFacts where
  jobs : List CronJob := []
  /-- The claim that was won and whose job is not yet running. -/
  won : Option (ℕ × Instant) := none

/-- Claims are for the instants that are due; what runs has been won. -/
def cronCheck (cal : Croniter) : Discipline CronAct CronFacts where
  ok q a := match a with
    | .claimCronJob cronId due now =>
      ∃ job ∈ q.jobs, job.cronId = cronId ∧ cal.due job now = some due
    | .spawnRootForUser job _ due => q.won = some (job.cronId, due)
    | _ => True
  ans _ _ := True
  next q a b := match a, b with
    | .listActiveCronJobs, some jobs => { q with jobs := jobs }
    | .claimCronJob cronId due _, some true => { q with won := some (cronId, due) }
    | .spawnRootForUser _ _ _, _ => { q with won := none }
    | _, _ => q

section Bodies

variable {q : CronFacts} {job : CronJob} {now due : Instant}

theorem resolveSession_obeys :
    (cronCheck cal).Obeys q (resolveSession job).run fun q' _ => q' = q := by
  refine Fallible.obeys_query trivial rfl fun session => ?_
  cases session with
  | true => exact rfl
  | false => exact Fallible.obeys_query trivial rfl fun _ => rfl

theorem runMessage_obeys {sessionId : String} (hq : q.won = some (job.cronId, due)) :
    (cronCheck cal).Obeys q (runMessage job sessionId due) fun q' _ => q'.jobs = q.jobs := by
  refine ⟨hq, fun spawned _ => ?_⟩
  cases spawned with
  | none => exact rfl
  | some _ =>
    refine ⟨trivial, fun out _ => ?_⟩
    cases out <;> exact rfl

theorem applyResult_obeys {sessionId : String}
    (result : Option (String × Option String × Bool × List String)) :
    (cronCheck cal).Obeys q (applyResult sessionId result).run fun q' _ => q' = q := by
  rcases result with _ | ⟨message, reason, reported, files⟩
  · exact rfl
  · simp only [applyResult]
    split
    · exact Fallible.obeys_queried trivial rfl fun _ => rfl
    · exact rfl

theorem execute_obeys (hq : q.won = some (job.cronId, due)) :
    (cronCheck cal).Obeys q (execute job now due).run fun q' _ => q'.jobs = q.jobs := by
  rw [execute, Discipline.obeys_except_bind]
  refine resolveSession_obeys.mono fun q₁ r h₁ => ?_
  subst h₁
  rcases r with _ | sessionId
  · exact rfl
  refine Discipline.obeys_lift_bind.2 ((runMessage_obeys hq).mono fun q₂ result h₂ => ?_)
  refine Discipline.obeys_except_bind.2 ((applyResult_obeys result).mono fun q₃ r h₃ => ?_)
  subst h₃
  rcases r with _ | _
  · exact h₂
  have hlog : (cronCheck cal).ok q₃ (logExecution job sessionId result) ∧
      ∀ b, (cronCheck cal).next q₃ (logExecution job sessionId result) b = q₃ := by
    rcases result with _ | ⟨message, reason, reported, files⟩ <;> exact ⟨trivial, fun _ => rfl⟩
  refine Fallible.obeys_query hlog.1 ((hlog.2 _).symm ▸ h₂) fun _ => ?_
  rw [hlog.2]
  split
  · exact h₂
  · exact Fallible.obeys_queried trivial h₂ fun _ => h₂

theorem maybeFire_obeys (hjob : job ∈ q.jobs) :
    (cronCheck cal).Obeys q (maybeFire cal job now).run fun q' _ => q'.jobs = q.jobs := by
  rw [maybeFire]
  split
  · exact rfl
  · rename_i due hdue
    split
    · exact rfl
    · refine Fallible.obeys_query ⟨job, hjob, rfl, hdue⟩ rfl fun won => ?_
      cases won with
      | false => exact rfl
      | true =>
        refine Discipline.obeys_except_bind.2 ((execute_obeys rfl).mono fun q' r hr => ?_)
        cases r <;> exact hr

theorem fireEach_obeys {jobs : List CronJob} (hjobs : ∀ job ∈ jobs, job ∈ q.jobs) (fired : ℕ) :
    (cronCheck cal).Obeys q (fireEach cal now jobs fired).run fun _ _ => True := by
  induction jobs generalizing q fired with
  | nil => trivial
  | cons job jobs ih =>
    refine Discipline.obeys_except_bind.2
      ((maybeFire_obeys (hjobs job List.mem_cons_self)).mono fun q' r hr => ?_)
    cases r with
    | error _ => trivial
    | ok b => exact ih (fun j hj => hr ▸ hjobs j (List.mem_cons_of_mem _ hj)) _

theorem tickAt_obeys : (cronCheck cal).Obeys q (tickAt cal now).run fun _ _ => True :=
  Fallible.obeys_query trivial trivial fun _ => fireEach_obeys (fun _ h => h) 0

theorem cronCheck_body (c : CronCall) :
    (cronCheck cal).Obeys {} (c.body cal).run fun _ _ => True := by
  cases c with
  | tick now =>
    have htick : (cronCheck cal).Obeys {} (tick cal now).run fun _ _ => True := by
      cases now with
      | some now => exact tickAt_obeys
      | none => exact Discipline.obeys_lift_bind.2 ⟨trivial, fun _ _ => tickAt_obeys⟩
    refine Discipline.obeys_except_bind.2 (htick.mono fun q' r _ => ?_)
    cases r <;> trivial
  | addCron c =>
    simp only [CronCall.body, addCron]
    split
    · exact Fallible.obeys_query trivial trivial fun _ => trivial
    · trivial
  | removeCron u id =>
    refine Fallible.obeys_query trivial trivial fun job => ?_
    cases job with
    | none => trivial
    | some job =>
      simp only
      split
      · exact Fallible.obeys_query trivial trivial fun _ => trivial
      · trivial
  | modify u id f =>
    refine Fallible.obeys_query trivial trivial fun job => ?_
    cases job with
    | none => trivial
    | some job =>
      simp only
      split
      · cases f.invalidExpression cal with
        | some x => trivial
        | none =>
          simp only [CronFields.update]
          split
          · trivial
          · refine Discipline.obeys_except_bind.2 (Fallible.obeys_queried trivial trivial ?_)
            exact fun _ => trivial
      · trivial
  | purgeSession sid => exact Fallible.obeys_query trivial trivial fun _ => trivial
  | purgeUser u => exact Fallible.obeys_query trivial trivial fun _ => trivial

end Bodies

/-! ### The claims of a job ascend -/

/-- The claims that were won for a job ascend, up to its `last_executed_at`. -/
structure CronInv (s : CronDb) : Prop where
  /-- A row has the id of its key, and that has been drawn. -/
  keyed : ∀ id r, s.jobs.lookup id = some r → r.cronId = id ∧ id < s.minted
  /-- So has the id of a claim. -/
  drawn : ∀ w ∈ s.won, w.job.cronId < s.minted
  /-- No claim is for later than its job was last executed. -/
  bounded : ∀ w ∈ s.won, ∀ r, s.jobs.lookup w.job.cronId = some r →
    ∃ l, r.lastExecutedAt = some l ∧ w.due ≤ l
  /-- A later claim is for a later instant. -/
  ascending : s.won.Pairwise fun w w' => w.job.cronId = w'.job.cronId → w.due < w'.due

/-- Rows have been changed or removed, but not when they were last executed. -/
structure CronDb.Revised (s s' : CronDb) : Prop where
  /-- No id was drawn. -/
  minted : s'.minted = s.minted
  /-- No claim was won. -/
  won : s'.won = s.won
  /-- A row that is there was there. -/
  rows : ∀ id r, s'.jobs.lookup id = some r → ∃ r₀, s.jobs.lookup id = some r₀ ∧
    r.cronId = r₀.cronId ∧ r.lastExecutedAt = r₀.lastExecutedAt

theorem CronDb.Revised.insert {id : ℕ} {r₀ r : CronJob} (h₀ : s.jobs.lookup id = some r₀)
    (hid : r.cronId = r₀.cronId) (hl : r.lastExecutedAt = r₀.lastExecutedAt) :
    s.Revised { s with jobs := s.jobs.insert id r } := by
  refine ⟨rfl, rfl, fun k r' hr' => ?_⟩
  rw [Table.lookup_insert] at hr'
  split_ifs at hr' with hk
  · subst hk
    obtain rfl := Option.some.inj hr'
    exact ⟨r₀, h₀, hid, hl⟩
  · exact ⟨r', hr', rfl, rfl⟩

theorem CronDb.Revised.delete (s : CronDb) (p : ℕ → CronJob → Bool) :
    s.Revised { s with jobs := s.jobs.deleteWhere p } :=
  ⟨rfl, rfl, fun _ r hr => ⟨r, (Table.lookup_deleteWhere.1 hr).1, rfl, rfl⟩⟩

theorem CronDb.Revised.deactivate (s : CronDb) (id : ℕ) :
    s.Revised { s with jobs := s.jobs.update id fun r => { r with status := .inactive } } := by
  refine ⟨rfl, rfl, fun k r hr => ?_⟩
  rw [Table.lookup_update] at hr
  split_ifs at hr with hk
  · subst hk
    obtain ⟨r₀, h₀, rfl⟩ := Option.map_eq_some_iff.1 hr
    exact ⟨r₀, h₀, rfl, rfl⟩
  · exact ⟨r, hr, rfl, rfl⟩

theorem CronFields.set_eq_some {f : CronFields} {dbNow : Instant} {r r' : CronJob}
    (h : f.set dbNow r = some r') :
    r'.cronId = r.cronId ∧ r'.lastExecutedAt = r.lastExecutedAt := by
  rw [CronFields.set] at h
  split at h
  · obtain rfl := Option.some.inj h
    exact ⟨rfl, rfl⟩
  · exact absurd h (by simp)

theorem CronInv.revised (h : CronInv s) (hs : s.Revised s') : CronInv s' where
  keyed id r hr := by
    obtain ⟨r₀, h₀, hid, -⟩ := hs.rows id r hr
    rw [hid, hs.minted]
    exact h.keyed id r₀ h₀
  drawn w hw := by
    rw [hs.won] at hw
    exact hs.minted ▸ h.drawn w hw
  bounded w hw r hr := by
    rw [hs.won] at hw
    obtain ⟨r₀, h₀, -, hl⟩ := hs.rows _ r hr
    exact hl ▸ h.bounded w hw r₀ h₀
  ascending := hs.won ▸ h.ascending

theorem CronInv.create (h : CronInv s) {r : CronJob} (hid : r.cronId = s.minted) :
    CronInv { s with jobs := s.jobs.insert s.minted r, minted := s.minted + 1 } where
  keyed id r' hr' := by
    rw [Table.lookup_insert] at hr'
    split_ifs at hr' with hk
    · subst hk
      obtain rfl := Option.some.inj hr'
      exact ⟨hid, Nat.lt_succ_self _⟩
    · exact ⟨(h.keyed id r' hr').1, Nat.lt_succ_of_lt (h.keyed id r' hr').2⟩
  drawn w hw := Nat.lt_succ_of_lt (h.drawn w hw)
  bounded w hw r' hr' := by
    -- The id is new, so nothing has been won under it.
    rw [Table.lookup_insert, if_neg (h.drawn w hw).ne] at hr'
    exact h.bounded w hw r' hr'
  ascending := h.ascending

theorem CronInv.claim (h : CronInv s) {id : ℕ} {due now : Instant} (hdue : due < now) :
    CronInv (s.claim id due now).1 := by
  rw [CronDb.claim]
  split
  · rename_i r hr
    obtain ⟨hid, hlt⟩ := h.keyed id r hr
    split
    · rename_i hclaim
      have hlast := (Bool.and_eq_true_iff.1 hclaim).2
      have hearlier : ∀ w ∈ s.won, w.job.cronId = id → w.due < due := by
        rintro w hw rfl
        obtain ⟨l, hl, hle⟩ := h.bounded w hw r hr
        rw [hl, Option.all_some, decide_eq_true_eq] at hlast
        exact hle.trans_lt hlast
      refine ⟨fun k r' hr' => ?_, fun w hw => ?_, fun w hw r' hr' => ?_, ?_⟩
      · rw [Table.lookup_insert] at hr'
        split_ifs at hr' with hk
        · subst hk
          obtain rfl := Option.some.inj hr'
          exact ⟨hid, hlt⟩
        · exact h.keyed k r' hr'
      · rcases List.mem_append.1 hw with hw | hw
        · exact h.drawn w hw
        · obtain rfl := List.mem_singleton.1 hw
          exact hid ▸ hlt
      · have hle : w.job.cronId = id → w.due ≤ now := by
          intro hw'
          rcases List.mem_append.1 hw with hw | hw
          · exact ((hearlier w hw hw').trans hdue).le
          · obtain rfl := List.mem_singleton.1 hw
            exact hdue.le
        rw [Table.lookup_insert] at hr'
        split_ifs at hr' with hk
        · obtain rfl := Option.some.inj hr'
          exact ⟨now, rfl, hle hk⟩
        · rcases List.mem_append.1 hw with hw | hw
          · exact h.bounded w hw r' hr'
          · obtain rfl := List.mem_singleton.1 hw
            exact absurd hid hk
      · refine List.pairwise_append.2 ⟨h.ascending, List.pairwise_singleton _ _, ?_⟩
        intro w hw w' hw' heq
        obtain rfl := List.mem_singleton.1 hw'
        exact hearlier w hw (heq.trans hid)
    · exact h
  · exact h

theorem CronEnv.answer_fst (e : CronEnv) (s s' : CronDb) (b : β) :
    (e.answer s s' b).1 = s ∨ (e.answer s s' b).1 = s' := by
  rw [CronEnv.answer]
  split
  · exact .inl rfl
  · exact .inr rfl

theorem CronInv.answer {b : β} (h : CronInv s) (h' : CronInv s') :
    CronInv (e.answer s s' b).1 := by
  rcases CronEnv.answer_fst e s s' b with hs | hs
  · rw [hs]
    exact h
  · rw [hs]
    exact h'

/-- The instant of a claim is past. -/
theorem cronCheck_due {q : CronFacts} {id : ℕ} {due now : Instant}
    (hok : (cronCheck cal).ok q (.claimCronJob id due now)) : due < now := by
  obtain ⟨job, -, -, hdue⟩ := hok
  exact (cal.getPrev_spec hdue).1.2

theorem CronInv.exec {q : CronFacts} {a : CronAct β} {b : β} (h : CronInv s)
    (hok : (cronCheck cal).ok q a) (he : a.exec e s = some (s', b)) : CronInv s' := by
  cases a with
  | clock => cases he; exact h
  | createCronJob c =>
    simp only [CronAct.exec] at he
    split at he
    · have hs := (Prod.mk.inj (Option.some.inj he)).1
      exact hs ▸ h.answer (h.create rfl)
    · cases he; exact h
  | updateCronJob id f =>
    simp only [CronAct.exec] at he
    split at he
    · rename_i r hr
      split at he
      · rename_i r' hset
        obtain ⟨hid, hl⟩ := CronFields.set_eq_some hset
        have hs := (Prod.mk.inj (Option.some.inj he)).1
        exact hs ▸ h.answer (h.revised (.insert hr hid hl))
      · cases he; exact h
    · have hs := (Prod.mk.inj (Option.some.inj he)).1
      exact hs ▸ h.answer h
  | claimCronJob id due now =>
    have hs := (Prod.mk.inj (Option.some.inj he)).1
    exact hs ▸ h.answer (h.claim (cronCheck_due hok))
  | removeCronJob id =>
    have hs := (Prod.mk.inj (Option.some.inj he)).1
    exact hs ▸ h.answer (h.revised (.delete s _))
  | purgeSession sid =>
    have hs := (Prod.mk.inj (Option.some.inj he)).1
    exact hs ▸ h.answer (h.revised (.delete s _))
  | purgeUser u =>
    have hs := (Prod.mk.inj (Option.some.inj he)).1
    exact hs ▸ h.answer (h.revised (.delete s _))
  | deactivateCronJob id =>
    have hs := (Prod.mk.inj (Option.some.inj he)).1
    exact hs ▸ h.answer (h.revised (.deactivate s id))
  | _ =>
    have hs := (Prod.mk.inj (Option.some.inj he)).1
    exact hs ▸ h.answer h

/-! ### What has been won and what has fired -/

/-- The claims that were won are those the log knows of, and perhaps some whose answer was lost. -/
def Counted (s : CronDb) (log : Log CronAct) : Prop :=
  ∀ id due, log.countP (fun x => wins id due x.2) ≤
    s.won.countP fun w => decide (w.job.cronId = id ∧ w.due = due)

theorem CronDb.claim_cases (id : ℕ) (due now : Instant) :
    s.claim id due now = (s, false) ∨ ∃ r, s.jobs.lookup id = some r ∧ r.claimable due = true ∧
      (s.claim id due now).1.won = s.won ++ [⟨r, due⟩] := by
  rw [CronDb.claim]
  split
  · rename_i r hr
    split
    · exact .inr ⟨r, hr, ‹_›, rfl⟩
    · exact .inl rfl
  · exact .inl rfl

theorem CronEnv.answer_won {b : β} (h : s'.won = s.won) : (e.answer s s' b).1.won = s.won := by
  rcases CronEnv.answer_fst e s s' b with hs | hs
  · rw [hs]
  · rw [hs, h]

/-- What a claim asks for. -/
def CronAct.claims : CronAct β → Option (ℕ × Instant × Instant)
  | claimCronJob id due now => some (id, due, now)
  | _ => none

/-- What a statement adds to the claims that were won. -/
theorem CronAct.exec_won {a : CronAct β} {b : β} (he : a.exec e s = some (s', b)) :
    (s'.won = s.won ∧ ∀ id due, wins id due ⟨a, b⟩ = false) ∨
      ∃ id due now r, a.claims = some (id, due, now) ∧ s.jobs.lookup id = some r ∧
        r.claimable due = true ∧ s'.won = s.won ++ [⟨r, due⟩] := by
  cases a with
  | claimCronJob id due now =>
    have hp : e.answer s (s.claim id due now).1 (s.claim id due now).2 = (s', b) :=
      Option.some.inj he
    rcases CronDb.claim_cases (s := s) id due now with hc | ⟨r, hr, hclaim, hw⟩
    · rw [hc] at hp
      refine .inl ⟨?_, fun _ _ => ?_⟩
      · rw [← show (e.answer s s false).1 = s' from congrArg Prod.fst hp]
        exact CronEnv.answer_won rfl
      rw [← show (e.answer s s false).2 = b from congrArg Prod.snd hp]
      simp only [CronEnv.answer]
      split
      · rfl
      · cases e.lost <;> rfl
    · simp only [CronEnv.answer] at hp
      split at hp
      · obtain ⟨rfl, rfl⟩ := Prod.mk.inj hp
        exact .inl ⟨rfl, fun _ _ => rfl⟩
      · obtain ⟨rfl, -⟩ := Prod.mk.inj hp
        exact .inr ⟨id, due, now, r, rfl, hr, hclaim, hw⟩
  | createCronJob c =>
    simp only [CronAct.exec] at he
    split at he
    · exact .inl ⟨(Prod.mk.inj (Option.some.inj he)).1 ▸ CronEnv.answer_won rfl, fun _ _ => rfl⟩
    · cases he
      exact .inl ⟨rfl, fun _ _ => rfl⟩
  | updateCronJob id f =>
    simp only [CronAct.exec] at he
    split at he
    · split at he
      · exact .inl ⟨(Prod.mk.inj (Option.some.inj he)).1 ▸ CronEnv.answer_won rfl, fun _ _ => rfl⟩
      · cases he
        exact .inl ⟨rfl, fun _ _ => rfl⟩
    · exact .inl ⟨(Prod.mk.inj (Option.some.inj he)).1 ▸ CronEnv.answer_won rfl, fun _ _ => rfl⟩
  | clock => cases he; exact .inl ⟨rfl, fun _ _ => rfl⟩
  | _ => exact .inl ⟨(Prod.mk.inj (Option.some.inj he)).1 ▸ CronEnv.answer_won rfl, fun _ _ => rfl⟩

/-- Only the claim that was won is in the log. -/
theorem wins_claims {a : CronAct β} {b : β} {id due now} (ha : a.claims = some (id, due, now))
    {id' : ℕ} {due' : Instant} (h : wins id' due' ⟨a, b⟩ = true) : id' = id ∧ due' = due := by
  cases a with
  | claimCronJob id₀ due₀ now₀ =>
    obtain ⟨rfl, rfl, rfl⟩ : id₀ = id ∧ due₀ = due ∧ now₀ = now := by
      simpa [CronAct.claims] using ha
    rcases b with _ | _ | _
    · exact absurd h (by simp [wins])
    · exact absurd h (by simp [wins])
    · obtain ⟨h₁, h₂⟩ := of_decide_eq_true h
      exact ⟨h₁.symm, h₂.symm⟩
  | _ => exact absurd ha (by simp [CronAct.claims])

theorem Counted.exec {log : Log CronAct} {a : CronAct β} {b : β} {i : ℕ} (h : Counted s log)
    (hs : CronInv s) (he : a.exec e s = some (s', b)) : Counted s' (log ++ [(i, ⟨a, b⟩)]) := by
  intro id due
  have hle := h id due
  rw [List.countP_append, List.countP_singleton]
  rcases CronAct.exec_won he with ⟨hw, hno⟩ | ⟨id', due', now, r, ha, hr, -, hw⟩
  · rw [hw, if_neg (by simp [hno])]
    omega
  · rw [hw, List.countP_append, List.countP_singleton]
    split_ifs with hwin hsame hsame
    · omega
    · obtain ⟨rfl, rfl⟩ := wins_claims ha hwin
      exact absurd (decide_eq_true ⟨(hs.keyed _ r hr).1, rfl⟩) hsame
    · omega
    · omega

/-- What a pass knows is what it has listed, and each run of a job follows a claim of its own. -/
structure CronFacts.Holds (q : CronFacts) (past : List (Event CronAct)) : Prop where
  jobs : ∀ job ∈ q.jobs, ∃ jobs, ⟨.listActiveCronJobs, some jobs⟩ ∈ past ∧ job ∈ jobs
  /-- As many claims were won as runs have begun or are about to. -/
  won : ∀ id due, past.countP (fires id due) + (if q.won = some (id, due) then 1 else 0) ≤
    past.countP (wins id due)

theorem CronFacts.Holds.next {q : CronFacts} {past : List (Event CronAct)} {a : CronAct β} (b : β)
    (h : q.Holds past) (hok : (cronCheck cal).ok q a) :
    ((cronCheck cal).next q a b).Holds (past ++ [⟨a, b⟩]) := by
  have hjobs : ∀ job ∈ q.jobs, ∃ jobs,
      (⟨.listActiveCronJobs, some jobs⟩ : Event CronAct) ∈ past ++ [⟨a, b⟩] ∧ job ∈ jobs := by
    intro job hj
    obtain ⟨jobs, hmem, hin⟩ := h.jobs job hj
    exact ⟨jobs, List.mem_append_left _ hmem, hin⟩
  have hquiet : (∀ id due, fires id due ⟨a, b⟩ = false) → (∀ id due, wins id due ⟨a, b⟩ = false) →
      ∀ id due, (past ++ [(⟨a, b⟩ : Event CronAct)]).countP (fires id due) +
        (if q.won = some (id, due) then 1 else 0) ≤
          (past ++ [(⟨a, b⟩ : Event CronAct)]).countP (wins id due) := by
    intro hf hw id due
    rw [List.countP_append, List.countP_append, List.countP_singleton, List.countP_singleton,
      hf, hw]
    exact h.won id due
  cases a with
  | listActiveCronJobs =>
    rcases b with _ | jobs
    · exact ⟨hjobs, hquiet (fun _ _ => rfl) fun _ _ => rfl⟩
    · refine ⟨fun job hj => ⟨jobs, ?_, hj⟩, hquiet (fun _ _ => rfl) fun _ _ => rfl⟩
      exact List.mem_append_right _ (List.mem_singleton.2 rfl)
  | claimCronJob id due now =>
    rcases b with _ | _ | _
    · exact ⟨hjobs, hquiet (fun _ _ => rfl) fun _ _ => rfl⟩
    · exact ⟨hjobs, hquiet (fun _ _ => rfl) fun _ _ => rfl⟩
    · refine ⟨hjobs, fun id' due' => ?_⟩
      have hle := h.won id' due'
      rw [List.countP_append, List.countP_append, List.countP_singleton, List.countP_singleton]
      change _ + (if some (id, due) = some (id', due') then 1 else 0) ≤ _
      simp only [fires, wins, Option.some.injEq, Prod.mk.injEq, decide_eq_true_eq,
        Bool.false_eq_true, if_false]
      omega
  | spawnRootForUser job sid due =>
    refine ⟨hjobs, fun id' due' => ?_⟩
    have hle := h.won id' due'
    rw [show q.won = some (job.cronId, due) from hok] at hle
    rw [List.countP_append, List.countP_append, List.countP_singleton, List.countP_singleton]
    change _ + (if none = some (id', due') then 1 else 0) ≤ _
    simp only [fires, wins, Option.some.injEq, Prod.mk.injEq, decide_eq_true_eq,
      Bool.false_eq_true, if_false, reduceCtorEq] at hle ⊢
    omega
  | _ => exact ⟨hjobs, hquiet (fun _ _ => rfl) fun _ _ => rfl⟩

/-! ### The instants that fire -/

/-- A claim that is won where the windows are fresh is timely. -/
theorem timely_of_fresh {q : CronFacts} {past : List (Event CronAct)} {a : CronAct β}
    {id : ℕ} {due now : Instant} {r : CronJob} (hs : CronInv s) (hq : q.Holds past)
    (hok : (cronCheck cal).ok q a) (hg : a.fresh cal s past)
    (ha : a.claims = some (id, due, now)) (hr : s.jobs.lookup id = some r)
    (hc : r.claimable due = true) : WonClaim.Timely cal ⟨r, due⟩ := by
  cases a with
  | claimCronJob id₀ due₀ now₀ =>
    obtain ⟨rfl, rfl, rfl⟩ : id₀ = id ∧ due₀ = due ∧ now₀ = now := by
      simpa [CronAct.claims] using ha
    obtain ⟨job, hjob, hid, hdue⟩ := hok
    obtain ⟨jobs, hlisted, hmem⟩ := hq.jobs job hjob
    obtain ⟨hfresh, t, hsched, hcreated, hchanged, hbefore⟩ := hg r hr hc
    obtain ⟨hexpr, hzone⟩ := hfresh jobs hlisted job hmem (hid.trans (hs.keyed _ r hr).1.symm)
    rw [Croniter.due, hexpr, hzone] at hdue
    obtain ⟨⟨hdue, -⟩, hlast⟩ := cal.getPrev_spec hdue
    have hle : t ≤ due₀ := hlast ⟨hsched, hbefore⟩
    exact ⟨hdue, hcreated.trans_le hle, hchanged.trans_le hle⟩
  | _ => exact absurd ha (by simp [CronAct.claims])

/-- Every claim that was won is timely, in runs that keep to fresh windows. -/
theorem cron_sound (cal : Croniter)
    (g : Guard CronAct CronEnv CronDb CronCall (Except Unit CronReply)) :
    Sound (cron cal) g (cronCheck cal) (fun _ => {}) {}
      (fun s log => CronInv s ∧ Counted s log ∧
        (g = freshWindows cal → ∀ w ∈ s.won, w.Timely cal))
      fun i _ q _ log => q.Holds (log.past i) where
  init := ⟨⟨fun _ _ hr => absurd hr (by simp), fun _ hw => absurd hw List.not_mem_nil,
    fun _ hw => absurd hw List.not_mem_nil, .nil⟩, fun _ _ => le_rfl,
    fun _ _ hw => absurd hw List.not_mem_nil⟩
  start := by
    intro P c hrun _ _
    rw [show P.log.past P.threads.length = [] from hrun.past_eq_nil le_rfl]
    exact ⟨fun _ hj => absurd hj List.not_mem_nil, fun _ _ => le_rfl⟩
  step := by
    rintro P i c β a k e s b q - - hg he ⟨hinv, hcount, htimely⟩ hq hok
    refine ⟨trivial, ⟨hinv.exec hok he, hcount.exec hinv he, ?_⟩, ?_⟩
    · rintro rfl w hw
      rcases CronAct.exec_won he with ⟨hwon, -⟩ | ⟨id, due, now, r, ha, hr, hc, hwon⟩
      · exact htimely rfl w (hwon ▸ hw)
      · rw [hwon] at hw
        rcases List.mem_append.1 hw with hw | hw
        · exact htimely rfl w hw
        · obtain rfl := List.mem_singleton.1 hw
          exact timely_of_fresh hinv hq hok hg ha hr hc
    · rw [Log.past_append_self]
      exact hq.next b hok
  frame _ _ _ _ _ _ _ _ _ _ hj hq := by
    rw [Log.past_append_ne hj]
    exact hq

/-- No two claims are for the same instant of a job. -/
theorem CronInv.countP_le_one (h : CronInv s) (id : ℕ) (due : Instant) :
    (s.won.countP fun w => decide (w.job.cronId = id ∧ w.due = due)) ≤ 1 := by
  rw [List.countP_eq_length_filter]
  have hasc := h.ascending.filter fun w => decide (w.job.cronId = id ∧ w.due = due)
  have hall : ∀ w ∈ s.won.filter fun w => decide (w.job.cronId = id ∧ w.due = due),
      w.job.cronId = id ∧ w.due = due := fun w hw => of_decide_eq_true (List.mem_filter.1 hw).2
  generalize s.won.filter (fun w => decide (w.job.cronId = id ∧ w.due = due)) = l at *
  match l with
  | [] => exact Nat.zero_le _
  | [_] => exact le_rfl
  | w :: w' :: ws =>
    obtain ⟨hid, hdue⟩ := hall w List.mem_cons_self
    obtain ⟨hid', hdue'⟩ := hall w' (List.mem_cons_of_mem _ List.mem_cons_self)
    have hlt := (List.pairwise_cons.1 hasc).1 w' List.mem_cons_self (hid.trans hid'.symm)
    rw [hdue, hdue'] at hlt
    exact absurd hlt (lt_irrefl _)

section Runs

variable {g : Guard CronAct CronEnv CronDb CronCall (Except Unit CronReply)}
  {P : Pool CronAct CronDb CronCall (Except Unit CronReply)}

/-- As many claims as runs of a job for an instant. -/
theorem countP_fires_le (h : Run (cron cal) g (.init {}) P) (id : ℕ) (due : Instant) :
    P.log.countP (fun x => fires id due x.2) ≤ P.log.countP fun x => wins id due x.2 := by
  obtain ⟨-, hthreads⟩ := (cron_sound cal g).of_run cronCheck_body h
  refine Log.countP_le fun i => ?_
  rcases lt_or_ge i P.threads.length with hi | hi
  · obtain ⟨q, hq, -⟩ := hthreads i _ (List.getElem?_eq_getElem hi)
    exact (Nat.le_add_right _ _).trans (hq.won id due)
  · rw [show P.log.past i = [] from h.past_eq_nil hi]
    exact le_rfl

/-- **No scheduled instant fires twice**, whatever the clocks of the schedulers say. -/
theorem fires_at_most_once (h : Run (cron cal) g (.init {}) P) (id : ℕ) (due : Instant) :
    P.log.countP (fun x => fires id due x.2) ≤ 1 := by
  obtain ⟨⟨hinv, hcount, -⟩, -⟩ := (cron_sound cal g).of_run cronCheck_body h
  calc P.log.countP (fun x => fires id due x.2)
      ≤ P.log.countP fun x => wins id due x.2 := countP_fires_le h id due
    _ ≤ P.shared.won.countP fun w => decide (w.job.cronId = id ∧ w.due = due) := hcount id due
    _ ≤ 1 := hinv.countP_le_one id due

/-- **Cron firing exactness while windows are fresh**: no scheduled instant fires twice, and a job
fires for instants of its schedule after its creation and its last change only. -/
theorem cron_exact (h : Run (cron cal) (freshWindows cal) (.init {}) P) (id : ℕ) (due : Instant) :
    P.log.countP (fun x => fires id due x.2) ≤ 1 ∧
      ∀ x ∈ P.log, fires id due x.2 = true →
        ∃ w ∈ P.shared.won, w.job.cronId = id ∧ w.due = due ∧ w.Timely cal := by
  obtain ⟨⟨-, hcount, htimely⟩, -⟩ := (cron_sound cal _).of_run cronCheck_body h
  refine ⟨fires_at_most_once h id due, fun x hx hfire => ?_⟩
  have hpos : 0 < P.log.countP fun x => fires id due x.2 := List.countP_pos_iff.2 ⟨x, hx, hfire⟩
  have hwon := List.countP_pos_iff.1
    (hpos.trans_le ((countP_fires_le h id due).trans (hcount id due)))
  obtain ⟨w, hw, hkey⟩ := hwon
  obtain ⟨hid, hdue⟩ := of_decide_eq_true hkey
  exact ⟨w, hw, hid, hdue, htimely rfl w hw⟩

end Runs

/-! ### A job that is added late -/

/-- The jobs that a pass has listed. -/
def listedJobs (x : Event CronAct) : Option (List CronJob) :=
  match x with
  | ⟨.listActiveCronJobs, some jobs⟩ => some jobs
  | _ => none

/-- Checks that a row is fresh. -/
def CronJob.isFresh (cal : Croniter) (r : CronJob) (past : List (Event CronAct)) (now : Instant) :
    Bool :=
  ((past.filterMap listedJobs).all fun jobs => jobs.all fun job => decide (job.cronId = r.cronId →
    job.cronExpression = r.cronExpression ∧ job.timezone = r.timezone)) &&
  (cal.due r now).any fun t => decide (r.createdAt < t) && decide (r.changedAt < t)

/-- Checks that a claim is fresh. -/
def CronAct.isFresh (cal : Croniter) (s : CronDb) (past : List (Event CronAct)) : CronAct β → Bool
  | claimCronJob cronId due now => (s.jobs.lookup cronId).all fun r =>
      !r.claimable due || r.isFresh cal past now
  | _ => true

theorem CronJob.fresh_of_isFresh {r : CronJob} {past : List (Event CronAct)} {now : Instant}
    (h : r.isFresh cal past now = true) : r.Fresh cal past now := by
  obtain ⟨hall, hany⟩ := Bool.and_eq_true_iff.1 h
  refine ⟨fun jobs hmem job hjob hid => ?_, ?_⟩
  · have hjobs := List.all_eq_true.1 hall jobs (List.mem_filterMap.2 ⟨_, hmem, rfl⟩)
    exact of_decide_eq_true (List.all_eq_true.1 hjobs job hjob) hid
  · cases hdue : cal.due r now with
    | none => exact absurd hany (by simp [hdue])
    | some t =>
      rw [hdue, Option.any_some, Bool.and_eq_true_iff] at hany
      obtain ⟨⟨hsched, hbefore⟩, -⟩ := cal.getPrev_spec hdue
      exact ⟨t, hsched, of_decide_eq_true hany.1, of_decide_eq_true hany.2, hbefore⟩

theorem CronAct.fresh_of_isFresh {a : CronAct β} {past : List (Event CronAct)}
    (h : a.isFresh cal s past = true) : a.fresh cal s past := by
  cases a with
  | claimCronJob id due now =>
    intro r hr hc
    simp only [isFresh, hr, Option.all_some, hc, Bool.not_true, Bool.false_or] at h
    exact CronJob.fresh_of_isFresh h
  | _ => trivial

namespace Sample

theorem last_sixty (now : ℤ) : IsGreatest {t | t % 60 = 0 ∧ t < now} ((now - 1) / 60 * 60) := by
  refine ⟨⟨?_, ?_⟩, fun t ⟨ht, hlt⟩ => ?_⟩ <;> omega

/-- Every expression means every sixty. -/
def sixties : Croniter where
  isValid _ := true
  isZone _ := true
  scheduled _ _ t := t % 60 = 0
  getPrev _ _ now := some ((now - 1) / 60 * 60)
  getPrev_spec := by
    rintro - - now d ⟨⟩
    exact last_sixty now

def digest : NewCron where
  userId := "ada"
  sessionId := "main"
  cronExpression := "* * * * *"
  cronMessage := "digest"

/-- The job is added at 70; passes at 130, 150 and 190. -/
def afterTheHour : List (Move CronEnv CronCall) :=
  [.start (.addCron digest), .step 0 { dbNow := 70 },
    .start (.tick none), .step 1 { clock := 130 }, .step 1 {}, .step 1 {}, .step 1 {}, .step 1 {},
    .step 1 {}, .step 1 {},
    .start (.tick (some 150)), .step 2 {},
    .start (.tick (some 190)), .step 3 {}, .step 3 {}, .step 3 {}, .step 3 {}]

/-- The job is added at 70; a pass at 80. -/
def atOnce : List (Move CronEnv CronCall) :=
  [.start (.addCron digest), .step 0 { dbNow := 70 },
    .start (.tick (some 80)), .step 1 {}, .step 1 {}, .step 1 {}, .step 1 {}]

end Sample

/-- The instants for which jobs have fired. -/
def firings (log : Log CronAct) : List (ℕ × Instant) :=
  log.filterMap fun x => match x.2 with
    | ⟨.spawnRootForUser job _ due, _⟩ => some (job.cronId, due)
    | _ => none

theorem exists_of_mem_firings {log : Log CronAct} {id : ℕ} {due : Instant}
    (h : (id, due) ∈ firings log) : ∃ x ∈ log, fires id due x.2 = true := by
  obtain ⟨⟨i, ⟨a, b⟩⟩, hx, hsome⟩ := List.mem_filterMap.1 h
  refine ⟨_, hx, ?_⟩
  cases a with
  | spawnRootForUser job sid due' =>
    obtain ⟨rfl, rfl⟩ := Prod.mk.inj (Option.some.inj hsome)
    exact decide_eq_true ⟨rfl, rfl⟩
  | _ => exact absurd hsome (by simp)

/-- Passes after the first instant of a new job: it fires for that instant and for the next. -/
theorem cron_exact_after_the_hour : ∃ P,
    Run (cron Sample.sixties) (freshWindows Sample.sixties) (.init {}) P ∧
      firings P.log = [(0, 120), (0, 180)] ∧
      P.log.countP (fun x => fires 0 120 x.2) ≤ 1 ∧
      ∃ w ∈ P.shared.won, w.job.cronId = 0 ∧ w.due = 120 ∧ w.Timely Sample.sixties := by
  have hplay : (((cron Sample.sixties).run
      (fun P i _ a _ => a.isFresh Sample.sixties P.shared (P.past i)) (.init {})
      Sample.afterTheHour).map fun P => firings P.log) = some [(0, 120), (0, 180)] := by
    decide +kernel
  obtain ⟨P, hP, hfirings⟩ := Option.map_eq_some_iff.1 hplay
  have hrun : Run (cron Sample.sixties) (freshWindows Sample.sixties) (.init {}) P :=
    Run.of_run (fun _ _ => trivial) (fun _ _ _ _ _ hc => CronAct.fresh_of_isFresh hc) hP
  have hfirst : ((0, 120) : ℕ × Instant) ∈ firings P.log := hfirings ▸ List.mem_cons_self
  obtain ⟨x, hx, hfire⟩ := exists_of_mem_firings hfirst
  obtain ⟨hone, htimely⟩ := cron_exact hrun 0 120
  exact ⟨P, hrun, hfirings, hone, htimely x hx hfire⟩

/-- A job added at 70 fires at once, for 60. -/
theorem cron_fires_before_creation : ∃ P,
    Run (cron Sample.sixties) .free (.init {}) P ∧ (∃ x ∈ P.log, fires 0 60 x.2 = true) ∧
      ¬ ∃ w ∈ P.shared.won, w.job.cronId = 0 ∧ w.due = 60 ∧ w.Timely Sample.sixties := by
  have hplay : (((cron Sample.sixties).run (fun _ _ _ _ _ => true) (.init {})
      Sample.atOnce).map fun P => (firings P.log, P.shared.won.map fun w =>
        (w.due, w.job.createdAt))) = some ([(0, 60)], [(60, 70)]) := by
    decide +kernel
  obtain ⟨P, hP, hend⟩ := Option.map_eq_some_iff.1 hplay
  obtain ⟨hfirings, hwon⟩ := Prod.mk.inj hend
  refine ⟨P, Run.of_run (fun _ _ => trivial) (fun _ _ _ _ _ _ => trivial) hP,
    exists_of_mem_firings (hfirings ▸ List.mem_singleton.2 rfl), ?_⟩
  rintro ⟨w, hw, -, -, htimely⟩
  have hmem := List.mem_map_of_mem (f := fun w : WonClaim => (w.due, w.job.createdAt)) hw
  rw [hwon] at hmem
  obtain ⟨hdue, hcreated⟩ := Prod.mk.inj (List.mem_singleton.1 hmem)
  have hlt := htimely.created
  rw [hdue, hcreated] at hlt
  exact absurd hlt (by decide)

end Backplane.Cron
