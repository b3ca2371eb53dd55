import Backplane.Router.Reachable

/-!
# Every NewTask is acknowledged

The handler of a NewTask frame runs an admission and answers with one Ack.  The Ack carries the text
of a refusal, and an Ack with a long text does not validate.

* `AdmissionEnded` : how the admission that a coroutine ran has ended.
* `ackOf` : the Acks a coroutine puts into an outbox.
* `acks_answerNewTask` : what the answer consists of.
* `newTask_acked` : there is exactly one Ack, with the right verdict, just when the text fits.
-/

namespace Backplane

open Concur Prog

/-- The Ack an event puts into an outbox: the frame it refers to and the verdict. -/
def ackOf : Event Act → Option (CorrelationId × Bool)
  | ⟨.put _ (.ack ack), _⟩ => some (ack.refCorrelationId, ack.accepted)
  | _ => none

/-- The actions performed start with those of the admission, and it ended with `r`. -/
def AdmissionEnded (cfg : Config) (f : NewTaskFrame) (a : AgentId) (past : List (Event Act))
    (r : Except Exn AdmitResult) : Prop :=
  ∃ tr tr', past = tr ++ tr' ∧ After (admitTask cfg f a).run tr (.ret r)

/-- An admission of the router's own that has returned has ended so. -/
theorem admissionEnded_of_returned {cfg : Config} {g : Guard Act Env Router Call Ret} {s : Router}
    {P : Pool Act Router Call Ret} {i : ℕ} {f : NewTaskFrame} {a : AgentId}
    {r : Except Exn AdmitResult} (h : Run (router cfg) g (.init s) P)
    (hth : P.threads[i]? = some ⟨.admission f a, .ret (.admitted r)⟩) :
    AdmissionEnded cfg f a (P.past i) r := by
  obtain ⟨tr, r', tr', hpast, hadmit, hdone⟩ := (h.after hth).bind_ret
  obtain ⟨-, hr⟩ := After.ret_iff.1 hdone
  obtain rfl : r' = r := Ret.admitted.inj hr
  exact ⟨tr, tr', hpast, hadmit⟩

/-- The admission succeeded. -/
def isAdmitted : Except Exn AdmitResult → Bool
  | .ok _ => true
  | .error _ => false

/-- The text of the refusal is within the bound of an Ack. -/
def TextFits : Except Exn AdmitResult → Prop
  | .error (.admitError e) => e.message.length ≤ ackReasonMax
  | _ => True

section

variable {k : SocketId} {a : AgentId} {cid : CorrelationId} {h : Header} {acc : Bool}
  {reason : Option String} {t : Option TaskId} {b : Bool} {tr : List (Event Act)} {cfg : Config}
  {f : NewTaskFrame}

/-- An Ack that validates is put into the outbox; one that does not is not. -/
theorem acks_putAck (hp : After (putAck k h cid acc reason t) tr (.ret b)) :
    (b = true ∧ (∀ s ∈ reason, s.length ≤ ackReasonMax) ∧ tr.filterMap ackOf = [(cid, acc)]) ∨
    (b = false ∧ (∃ s ∈ reason, ackReasonMax < s.length) ∧ tr.filterMap ackOf = []) := by
  unfold putAck at hp
  cases hack : AckFrame.build h.fromRouter cid acc reason t with
  | none =>
    rw [hack] at hp
    obtain ⟨rfl, rfl⟩ := After.ret_iff.1 hp
    exact .inr ⟨rfl, AckFrame.build_eq_none.1 hack, rfl⟩
  | some ack =>
    rw [hack] at hp
    obtain ⟨-, tr', rfl, hret⟩ := After.perform_bind hp
    obtain ⟨rfl, rfl⟩ := After.ret_iff.1 hret
    obtain ⟨-, href, hacc, -, -⟩ := AckFrame.build_eq_some hack
    refine .inl ⟨rfl, ?_, ?_⟩
    · intro s hs
      by_contra hlong
      have hnone : AckFrame.build h.fromRouter cid acc reason t = none :=
        AckFrame.build_eq_none.2 ⟨s, hs, Nat.lt_of_not_le hlong⟩
      exact absurd (hack.symm.trans hnone) (by simp)
    · simp only [List.filterMap_cons, ackOf, href, hacc, List.filterMap_nil]

/-- The answer to an admission is one Ack with the verdict, unless the text does not fit. -/
theorem acks_answerNewTask {r : Except Exn AdmitResult} {u : Unit}
    (hp : After (answerNewTask k cid f r) tr (.ret u)) :
    (TextFits r ∧ tr.filterMap ackOf = [(cid, isAdmitted r)]) ∨
    (¬ TextFits r ∧ tr.filterMap ackOf = []) := by
  cases r with
  | error e =>
    have hfixed : (∃ s ∈ some "internal_error", ackReasonMax < s.length) → False := by
      rintro ⟨s, ⟨⟩, hlong⟩
      exact absurd hlong (by decide)
    -- a refusal is answered with its own text, any other exception with a fixed one
    cases e with
    | admitError e =>
      obtain ⟨tr₁, b, tr₂, rfl, h₁, h₂⟩ := After.bind_ret hp
      obtain ⟨rfl, -⟩ := After.ret_iff.1 h₂
      rw [List.append_nil]
      rcases acks_putAck h₁ with ⟨-, hfits, hacks⟩ | ⟨-, ⟨s, hs, hlong⟩, hacks⟩
      · exact .inl ⟨hfits e.message rfl, hacks⟩
      · cases hs
        exact .inr ⟨Nat.not_le_of_lt hlong, hacks⟩
    | _ =>
      obtain ⟨tr₁, b, tr₂, rfl, h₁, h₂⟩ := After.bind_ret hp
      obtain ⟨rfl, -⟩ := After.ret_iff.1 h₂
      rw [List.append_nil]
      rcases acks_putAck h₁ with ⟨-, -, hacks⟩ | ⟨-, hlong, -⟩
      · exact .inl ⟨trivial, hacks⟩
      · exact (hfixed hlong).elim
  | ok res =>
    obtain ⟨tr₁, b, tr₂, rfl, h₁, h₂⟩ := After.bind_ret hp
    rcases acks_putAck h₁ with ⟨rfl, -, hacks⟩ | ⟨-, ⟨s, hs, -⟩, -⟩
    · refine .inl ⟨trivial, ?_⟩
      -- the replayed Result that may follow is no Ack
      have hrest : tr₂.filterMap ackOf = [] := by
        cases hreplay : res.replayResult with
        | none =>
          simp only [hreplay, if_true] at h₂
          obtain ⟨rfl, -⟩ := After.ret_iff.1 h₂
          rfl
        | some replay =>
          simp only [hreplay, if_true] at h₂
          cases h₂ with
          | cons hret =>
            obtain ⟨rfl, -⟩ := After.ret_iff.1 hret
            rfl
      rw [List.filterMap_append, hacks, hrest]
      rfl
    · exact absurd hs (by simp)

/-- An admission itself puts no frame into an outbox of the requesting socket. -/
theorem acks_admitTask {p : Coroutine (Except Exn AdmitResult)}
    (hp : After (admitTask cfg f a).run tr p) : tr.filterMap ackOf = [] := by
  refine List.filterMap_eq_nil_iff.2 fun x hx => ?_
  have htag := (hp.only uses_admitTask).1 x hx
  obtain ⟨act, ans⟩ := x
  cases act with
  | put k m => exact absurd htag (by simp [Act.tag, admitTags, delegateTags, spawnTags, checkTags,
      handoverTags, safeFailTags, failTags, cancelTags, fanOutTags])
  | _ => rfl

end

/-- **A handler of a NewTask that has returned has put exactly one Ack for it into the outbox,
accepting just when the admission succeeded, if and only if the text of the refusal fits.** -/
theorem newTask_acked {cfg : Config} {d : Deployment} {P : Pool Act Router Call Ret} {i : ℕ}
    {k : SocketId} {a : AgentId} {cid : CorrelationId} {f : NewTaskFrame} {out : Ret}
    (h : Run (router cfg) .free (.init d.boot) P)
    (hth : P.threads[i]? = some ⟨.frame k a ⟨cid, .newTask f⟩, .ret out⟩) :
    (∃ r, AdmissionEnded cfg f a (P.past i) r) ∧
    ∀ r, AdmissionEnded cfg f a (P.past i) r →
      ((P.past i).filterMap ackOf = [(cid, isAdmitted r)] ↔ TextFits r) := by
  have hbody : After (handleNewTask cfg k a cid f >>= fun _ => pure Ret.done) (P.past i)
    (.ret out) := h.after hth
  obtain ⟨tr, u, tr₀, hpast, hhandler, hdone⟩ := After.bind_ret hbody
  obtain ⟨rfl, -⟩ := After.ret_iff.1 hdone
  obtain ⟨tr₁, r, tr₂, rfl, hadmit, hanswer⟩ := After.bind_ret hhandler
  rw [List.append_nil] at hpast
  refine ⟨⟨r, tr₁, tr₂, hpast, hadmit⟩, fun r' hr' => ?_⟩
  obtain ⟨tr₁', tr₂', hpast', hadmit'⟩ := hr'
  -- what was performed determines how the admission ended
  obtain ⟨rfl, -⟩ := hadmit.unique hadmit' (hpast.symm.trans hpast')
  have hacks : (P.past i).filterMap ackOf = tr₂.filterMap ackOf := by
    rw [hpast, List.filterMap_append, acks_admitTask hadmit, List.nil_append]
  rw [hacks]
  rcases acks_answerNewTask hanswer with ⟨hfits, hone⟩ | ⟨hfits, hnone⟩
  · exact ⟨fun _ => hfits, fun _ => hone⟩
  · rw [hnone]
    exact ⟨fun he => absurd he (by simp), fun hf => absurd hf hfits⟩

/-- The admission of `t` is acknowledged. -/
theorem newTask_acked_dispatched : ∃ P r, Sample.play Sample.anything Sample.dispatched = some P ∧
    AdmissionEnded {} (Sample.spawn "a" "b") "a" (P.past 3) r ∧
    (P.past 3).filterMap ackOf = [("m", true)] ∧
    ((P.past 3).filterMap ackOf = [("m", isAdmitted r)] ↔ TextFits r) := by
  have hplay : ((Sample.play Sample.anything Sample.dispatched).bind fun P =>
      P.threads[3]?.map fun th => (th.call, th.prog.finished, (P.past 3).filterMap ackOf)) =
        some (.frame 0 "a" ⟨"m", .newTask (Sample.spawn "a" "b")⟩, true, [("m", true)]) := by
    decide +kernel
  obtain ⟨P, hP, h⟩ := Option.bind_eq_some_iff.1 hplay
  obtain ⟨⟨c, p⟩, hth, h⟩ := Option.map_eq_some_iff.1 h
  obtain ⟨rfl, h⟩ := Prod.mk.inj h
  obtain ⟨hfin, hacks⟩ := Prod.mk.inj h
  cases p with
  | act a k => exact (Prog.finished_iff.1 hfin).elim
  | ret out =>
    obtain ⟨⟨r, hr⟩, hiff⟩ := newTask_acked (Sample.free_of_play hP) hth
    exact ⟨P, r, hP, hr, hacks, hiff r hr⟩

/-- The name of an agent that does not exist, longer than an Ack can carry. -/
def Sample.longName : AgentId := String.ofList (List.replicate 240 'x')

/-- A request for an agent with a long name is not acknowledged. -/
theorem newTask_unanswered : ¬ ∀ (cfg : Config) (d : Deployment) (P : Pool Act Router Call Ret)
    (i : ℕ) (k : SocketId) (a : AgentId) (cid : CorrelationId) (f : NewTaskFrame) (out : Ret),
    Run (router cfg) .free (.init d.boot) P →
    P.threads[i]? = some ⟨.frame k a ⟨cid, .newTask f⟩, .ret out⟩ →
    ∃ r, AdmissionEnded cfg f a (P.past i) r ∧
      (P.past i).filterMap ackOf = [(cid, isAdmitted r)] := by
  intro hall
  have hplay : ((Sample.play Sample.anything (Sample.connected ++
      [Sample.receive 0 "a" (.newTask (Sample.spawn "a" Sample.longName)), Sample.step 3])).bind
        fun P => P.threads[3]?.map fun th =>
          (th.call, th.prog.finished, (P.past 3).filterMap ackOf)) =
      some (.frame 0 "a" ⟨"m", .newTask (Sample.spawn "a" Sample.longName)⟩, true, []) := by
    decide +kernel
  obtain ⟨P, hP, h⟩ := Option.bind_eq_some_iff.1 hplay
  obtain ⟨⟨c, p⟩, hth, h⟩ := Option.map_eq_some_iff.1 h
  obtain ⟨rfl, h⟩ := Prod.mk.inj h
  obtain ⟨hfin, hacks⟩ := Prod.mk.inj h
  cases p with
  | act a k => exact (Prog.finished_iff.1 hfin).elim
  | ret out =>
    obtain ⟨r, -, hone⟩ := hall {} Sample.deployment P 3 0 "a" "m" _ out
      (Sample.free_of_play hP) hth
    rw [hacks] at hone
    exact absurd hone (by simp)

end Backplane
