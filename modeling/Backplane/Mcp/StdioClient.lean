import Backplane.Data.EventSystem
import Backplane.Mcp.Calls

/-!
# Calls over a subprocess's stdio

One task reads the lines that the subprocess writes, and completes the future of a call when its
response is read.  When the reader stops, nobody completes a future any more.

* `stdio` : the calls, the reader and the subprocess, event by event.
* `Settling` : a response is what settles its call, and no call is left waiting when the reader has
  stopped.
* `harmless`, `allowed` : the lines that leave the reader alive, and the events that may happen.
* `stdio_settles` : the calls are settled so, in every run whose events are allowed.
-/

namespace Backplane.Mcp.Stdio

/-! ### The client -/

/-- Why a call fails. -/
inductive Failure
  /-- `stdio subprocess closed` -/
  | closed
  /-- Its future was cancelled, when the client was closed. -/
  | cancelled
  | timedOut
  | brokenPipe
  deriving DecidableEq

/-- The reader task. -/
inductive Reader
  | running
  /-- It has been cancelled, and its calls are to be cancelled next. -/
  | closing
  | stopped
  deriving DecidableEq

/-- `StdioMcpClient` -/
structure State where
  /-- The calls, with `_pending` and `_request_id`. -/
  calls : Calls Fields Failure := {}
  reader : Reader := .running
  /-- `_proc` is there. -/
  hasProc : Bool := true

/-- A line of the subprocess. -/
inductive Line
  /-- It is longer than the reader's limit. -/
  | overlong
  /-- It is not JSON, or not text. -/
  | noise
  /-- It is nested more deeply than the parser goes. -/
  | deep
  | json (v : Json)

/-- How the writing of a request goes. -/
inductive Drain
  | raises
  | blocks
  | passes
  deriving DecidableEq

/-- What happens. -/
inductive Event
  /-- `_call`, up to its first wait. -/
  | call (drain : Drain)
  /-- A write that waited is done, or raises. -/
  | drained (rid : ℕ) (isDone : Bool)
  | line (l : Line)
  /-- The reader reads the end of the stream. -/
  | eof
  /-- The coroutine of a call goes on with what its future holds. -/
  | wake (rid : ℕ)
  | timeout (rid : ℕ)
  /-- `aclose`: the reader is cancelled. -/
  | closeReader
  /-- `aclose`: the futures are cancelled. -/
  | closePending
  /-- `aclose`: the subprocess is gone. -/
  | closeProc

/-- A new call, once its request is given to the writer. -/
def Drain.call : Drain → Call Fields Failure
  | raises => ({} : Call Fields Failure).settle (.error .brokenPipe)
  | blocks => {}
  | passes => ({} : Call Fields Failure).send

/-- `_call`, up to its first wait; without a subprocess it raises at once. -/
def State.call (s : State) (drain : Drain) : State :=
  if s.hasProc then { s with calls := s.calls.issue drain.call } else s

/-- A message, in the body of `_read_loop`; `none`: the reader raises. -/
def State.receive (s : State) (msg : Fields) : Option State :=
  match messageId msg with
  | none => some s
  | some v =>
    if isReply msg then
      match v.key with
      | .unhashable => none
      | .other => some s
      | .number n =>
        if n < 0 then some s
        else some { s with calls := s.calls.modify n.toNat fun call =>
          if call.registered then call.complete (.ok msg) else call }
    else some s

/-- A line, in the body of `_read_loop`. -/
def State.readLine (s : State) : Line → State
  | .noise => s
  | .json (.dict msg) => (s.receive msg).getD { s with reader := .stopped }
  | _ => { s with reader := .stopped }

/-- The call goes on as the function says; it must be there and not be settled. -/
def State.proceed (s : State) (rid : ℕ) (f : Call Fields Failure → Option (Call Fields Failure)) :
    Option State :=
  (s.calls.get rid).bind fun call =>
    if call.outcome.isNone then (f call).map fun call' =>
      { s with calls := s.calls.modify rid fun _ => call' }
    else none

/-- An event. -/
def step (s : State) : Event → Option State
  | .call drain => some (s.call drain)
  | .drained rid isDone => s.proceed rid fun call =>
    if call.sent then none
    else some (if isDone then call.send else call.settle (.error .brokenPipe))
  | .line l => if s.reader = .running then some (s.readLine l) else none
  | .eof =>
    if s.reader = .running then
      some { s with reader := .stopped, calls := s.calls.mapAll (Call.fail .closed) }
    else none
  | .wake rid => s.proceed rid fun call =>
    if call.sent then call.future.map fun x => call.settle x else none
  | .timeout rid => s.proceed rid fun call =>
    if call.sent then some (call.settle (.error .timedOut)) else none
  | .closeReader => some { s with reader := .closing }
  | .closePending =>
    if s.reader = .closing then
      some { s with reader := .stopped, calls := s.calls.mapAll (Call.fail .cancelled) }
    else none
  | .closeProc => if s.reader = .stopped then some { s with hasProc := false } else none

/-- The client, from the start of its subprocess. -/
def stdio : EventSystem State Event := ⟨{}, step⟩

/-! ### How calls are settled -/

/-- The message is a response to the call with this id. -/
def IsResponse (msg : Fields) (rid : ℕ) : Prop :=
  isReply msg = true ∧
    ∃ v, messageId msg = some v ∧ (v = .int rid ∨ v = .float (some (rid : ℤ)))

/-- What holds of the calls at any time. -/
structure Settling (s : State) : Prop where
  /-- A future holds a response to its own call. -/
  own : s.calls.All fun rid call => ∀ msg, call.future = some (.ok msg) → IsResponse msg rid
  /-- A call whose response was read is settled with it, or will be when it goes on. -/
  answered : s.calls.All fun _ call => ∀ msg, call.future = some (.ok msg) →
    call.outcome = none ∨ call.outcome = some (.ok msg)
  /-- When the reader has stopped, no call is left without an answer. -/
  stopped : s.reader = .stopped →
    s.calls.All fun _ call => call.outcome = none → call.future ≠ none

/-- What holds of a line that is read. -/
structure LineSettles (s : State) (l : Line) (s' : State) : Prop where
  /-- It completes the call that waits for it. -/
  responds : ∀ msg rid, l = .json (.dict msg) → IsResponse msg rid → s.calls.Waits rid →
    ∃ call, s'.calls.get rid = some call ∧ call.future = some (.ok msg)
  /-- It is ignored, if no call waits for it. -/
  ignored : (∀ msg rid, l = .json (.dict msg) → IsResponse msg rid → ¬ s.calls.Waits rid) →
    s'.reader = s.reader ∧ ∀ rid, s'.calls.get rid = s.calls.get rid

/-! ### What may happen -/

/-- The line leaves the reader alive, and is not taken for a response to the first call. -/
def Line.harmless : Line → Bool
  | overlong => false
  | noise => true
  | deep => false
  | json (.dict msg) => !isReply msg || (messageId msg).all fun v => match v with
    | .list _ => false
    | .dict _ => false
    | .bool true => false
    | _ => true
  | json _ => false

/-- The response of the call was read. -/
def State.replied (s : State) (rid : ℕ) : Bool :=
  (s.calls.get rid).any fun call => match call.future with
    | some (.ok _) => true
    | _ => false

/-- The event may happen: lines are harmless, a call that comes after the reader has stopped cannot
write its request, and a call whose response was read neither times out nor fails to write. -/
def allowed (s : State) : Event → Bool
  | .line l => l.harmless
  | .call drain => s.reader ≠ .stopped || !s.hasProc || drain = .raises
  | .timeout rid => !s.replied rid
  | .drained rid isDone => isDone || !s.replied rid
  | _ => true

/-! ### What each event keeps -/

/-- What holds of a call at any time. -/
structure CallOk (rid : ℕ) (call : Call Fields Failure) : Prop where
  /-- Its future holds a response to it. -/
  own : ∀ msg, call.future = some (.ok msg) → IsResponse msg rid
  /-- It is settled with the response. -/
  answered : ∀ msg, call.future = some (.ok msg) →
    call.outcome = none ∨ call.outcome = some (.ok msg)
  /-- Only a call that is not settled is in `_pending`. -/
  entry : call.registered = true → call.outcome = none
  /-- A call without an answer is in `_pending`. -/
  held : call.outcome = none → call.future = none → call.registered = true

/-- The invariant. -/
structure Inv (s : State) : Prop where
  /-- Ids start with one. -/
  zero : s.calls.get 0 = none
  calls : s.calls.All CallOk
  /-- When the reader has stopped, each call has an answer. -/
  stopped : s.reader = .stopped →
    s.calls.All fun _ call => call.outcome = none → call.future ≠ none

variable {s s' : State} {call : Call Fields Failure} {rid : ℕ} {msg : Fields} {l : Line}
  {x : Except Failure Fields} {e : Failure}

theorem Inv.settling (h : Inv s) : Settling s :=
  ⟨h.calls.imp fun _ _ hcall => hcall.own, h.calls.imp fun _ _ hcall => hcall.answered, h.stopped⟩

theorem proceed_eq_some {f : Call Fields Failure → Option (Call Fields Failure)}
    (h : s.proceed rid f = some s') : ∃ call call', s.calls.get rid = some call ∧
      call.outcome = none ∧ f call = some call' ∧
      s' = { s with calls := s.calls.modify rid fun _ => call' } := by
  obtain ⟨call, hget, h⟩ := Option.bind_eq_some_iff.1 h
  split_ifs at h with houtcome
  obtain ⟨call', hf, rfl⟩ := Option.map_eq_some_iff.1 h
  exact ⟨call, call', hget, Option.isNone_iff_eq_none.1 houtcome, hf, rfl⟩

namespace CallOk

theorem new : CallOk rid {} :=
  ⟨fun _ h => (by cases h), fun _ h => (by cases h), fun _ => rfl, fun _ _ => rfl⟩

theorem send (h : CallOk rid call) : CallOk rid call.send := ⟨h.own, h.answered, h.entry, h.held⟩

/-- A call is settled with what its future holds, or with an error if there is no response. -/
theorem settle (h : CallOk rid call) (hnone : call.outcome = none)
    (hx : ∀ msg, call.future = some (.ok msg) → x = .ok msg) : CallOk rid (call.settle x) := by
  have hsome : (call.settle x).outcome = some x := Call.outcome_settle hnone
  refine ⟨h.own, fun msg hmsg => .inr ?_, fun hfalse => absurd hfalse Bool.false_ne_true,
    fun hnone' => absurd (hsome.symm.trans hnone') (by simp)⟩
  rw [hsome, hx msg hmsg]

theorem complete (h : CallOk rid call) (hregistered : call.registered = true)
    (hmsg : IsResponse msg rid) : CallOk rid (call.complete (.ok msg)) := by
  refine ⟨fun msg' h' => ?_, fun msg' _ => .inl (h.entry hregistered), h.entry,
    fun _ _ => hregistered⟩
  change call.future.or (some (.ok msg)) = some (.ok msg') at h'
  cases hfuture : call.future with
  | none =>
    rw [hfuture] at h'
    cases h'
    exact hmsg
  | some y =>
    rw [hfuture] at h'
    exact h.own msg' (hfuture.trans h')

theorem fail (h : CallOk rid call) : CallOk rid (call.fail e) := by
  have hok : ∀ msg, (call.fail e).future = some (.ok msg) → call.future = some (.ok msg) := by
    intro msg hmsg
    rw [Call.future_fail] at hmsg
    split_ifs at hmsg with hregistered
    · cases hfuture : call.future with
      | none =>
        rw [hfuture] at hmsg
        cases hmsg
      | some y =>
        rw [hfuture] at hmsg
        exact hmsg
    · exact hmsg
  refine ⟨fun msg hmsg => h.own msg (hok msg hmsg), fun msg hmsg => ?_, fun hregistered => ?_,
    fun hnone hfuture => ?_⟩
  · rw [Call.outcome_fail]
    exact h.answered msg (hok msg hmsg)
  · rw [Call.registered_fail] at hregistered
    exact absurd hregistered Bool.false_ne_true
  · -- A call that was in `_pending` has the error now, and another had an answer before.
    rw [Call.outcome_fail] at hnone
    rw [Call.future_fail] at hfuture
    split_ifs at hfuture with hregistered
    · cases hold : call.future <;> rw [hold] at hfuture <;> cases hfuture
    · exact absurd (h.held hnone hfuture) hregistered

end CallOk

/-- When all that is in `_pending` fails, each call has an answer. -/
theorem all_fail_answered (h : s.calls.All CallOk) : (s.calls.mapAll (Call.fail e)).All
    fun _ call => call.outcome = none → call.future ≠ none := by
  refine Calls.All.mapAll fun rid call hget hnone hfuture => ?_
  have hcall := h rid call hget
  have hheld := hcall.fail (e := e) |>.held hnone hfuture
  rw [Call.registered_fail] at hheld
  exact absurd hheld Bool.false_ne_true

theorem Inv.modify (h : Inv s) {f : Call Fields Failure → Call Fields Failure}
    (hf : ∀ call, s.calls.get rid = some call → CallOk rid (f call))
    (hanswered : ∀ call, s.calls.get rid = some call →
      (call.outcome = none → call.future ≠ none) → (f call).outcome = none →
        (f call).future ≠ none) :
    Inv { s with calls := s.calls.modify rid f } := by
  refine ⟨?_, h.calls.modify hf, fun hstopped => ?_⟩
  · rw [Calls.get_modify, h.zero]
    split_ifs with hrid
    · rw [← hrid, h.zero]
      rfl
    · rfl
  exact (h.stopped hstopped).modify fun call hget =>
    hanswered call hget (h.stopped hstopped rid call hget)

/-- The message, given to the call with this id if it is in `_pending`. -/
def State.deliver (s : State) (msg : Fields) (rid : ℕ) : State :=
  { s with calls := s.calls.modify rid fun call =>
    if call.registered then call.complete (.ok msg) else call }

theorem receive_number {v : Json} {n : ℤ} (hid : messageId msg = some v)
    (hreply : isReply msg = true)
    (hkey : v.key = .number n) :
    s.receive msg = if n < 0 then some s else some (s.deliver msg n.toNat) := by
  rw [State.receive, hid]
  change (if isReply msg = true then _ else _) = _
  rw [if_pos hreply, hkey]
  rfl

/-- A line that is harmless leaves the reader alive, and is given at most to the call it is for. -/
theorem readLine_of_harmless (h : l.harmless = true) (hzero : s.calls.get 0 = none) :
    s.readLine l = s ∨ ∃ msg rid, l = .json (.dict msg) ∧ IsResponse msg rid ∧
      s.readLine l = s.deliver msg rid := by
  cases l with
  | overlong => exact absurd h Bool.false_ne_true
  | deep => exact absurd h Bool.false_ne_true
  | noise => exact .inl rfl
  | json value =>
    cases value with
    | dict msg =>
      cases hid : messageId msg with
      | none =>
        refine .inl ?_
        rw [State.readLine, State.receive, hid]
        rfl
      | some v =>
        cases hreply : isReply msg with
        | false =>
          refine .inl ?_
          rw [State.readLine, State.receive, hid, hreply]
          rfl
        | true =>
          -- A number that is no id of a call is ignored; an id is a number of the message.
          have hnumber : ∀ n : ℤ, v.key = .number n → (0 ≤ n → IsResponse msg n.toNat) →
              s.readLine (.json (.dict msg)) = s ∨ ∃ msg' rid,
                Line.json (.dict msg) = .json (.dict msg') ∧ IsResponse msg' rid ∧
                  s.readLine (.json (.dict msg)) = s.deliver msg' rid := by
            intro n hkey hresponse
            rw [State.readLine, receive_number hid hreply hkey]
            split_ifs with hn
            · exact .inl rfl
            · exact .inr ⟨msg, n.toNat, rfl, hresponse (by omega), rfl⟩
          have hother : v.key = .other → s.readLine (.json (.dict msg)) = s := by
            intro hkey
            rw [State.readLine, State.receive, hid]
            change Option.getD (if isReply msg = true then _ else _) _ = _
            rw [if_pos hreply, hkey]
            rfl
          have hsafe : (messageId msg).all (fun v => match v with
              | .list _ => false
              | .dict _ => false
              | .bool true => false
              | _ => true) = true := by
            simpa [Line.harmless, hreply] using h
          rw [hid] at hsafe
          cases v with
          | null => exact .inl (hother rfl)
          | str s' => exact .inl (hother rfl)
          | list xs => exact absurd hsafe Bool.false_ne_true
          | dict fields => exact absurd hsafe Bool.false_ne_true
          | bool b =>
            cases b with
            | true => exact absurd hsafe Bool.false_ne_true
            | false =>
              -- No call has the id zero.
              refine .inl ?_
              rw [State.readLine, receive_number hid hreply (n := 0) rfl]
              change { s with calls := s.calls.modify 0 _ } = s
              rw [Calls.modify_of_none hzero]
          | int n =>
            refine hnumber n rfl fun hn => ⟨hreply, _, hid, .inl ?_⟩
            rw [Int.toNat_of_nonneg hn]
          | float whole =>
            cases whole with
            | none => exact .inl (hother rfl)
            | some n =>
              refine hnumber n rfl fun hn => ⟨hreply, _, hid, .inr ?_⟩
              rw [Int.toNat_of_nonneg hn]
    | _ => exact absurd h Bool.false_ne_true

/-- A response is given to its call. -/
theorem readLine_of_response (h : IsResponse msg rid) :
    s.readLine (.json (.dict msg)) = s.deliver msg rid := by
  obtain ⟨hreply, v, hid, hv⟩ := h
  have hkey : v.key = .number rid := by
    rcases hv with rfl | rfl <;> rfl
  rw [State.readLine, receive_number hid hreply hkey, if_neg (by omega), Option.getD_some,
    Int.toNat_natCast]

/-- A message that no call waits for changes nothing. -/
theorem get_deliver_of_not_waits (h : ¬ s.calls.Waits rid) (rid' : ℕ) :
    (s.deliver msg rid).calls.get rid' = s.calls.get rid' := by
  change (s.calls.modify rid _).get rid' = _
  rw [Calls.get_modify]
  split_ifs with hrid
  · rw [hrid]
    cases hget : s.calls.get rid with
    | none => rfl
    | some call =>
      refine congrArg some ?_
      dsimp only
      split_ifs with hregistered
      · cases hfuture : call.future with
        | none => exact absurd ⟨call, hget, hregistered, hfuture⟩ h
        | some y => rw [Call.complete, hfuture]; cases call; cases hfuture; rfl
      · rfl
  · rfl

/-- A message that a call waits for completes it. -/
theorem get_deliver_of_waits (h : s.calls.Waits rid) :
    ∃ call, (s.deliver msg rid).calls.get rid = some call ∧ call.future = some (.ok msg) := by
  obtain ⟨call, hget, hregistered, hfuture⟩ := h
  refine ⟨call.complete (.ok msg), ?_, ?_⟩
  · change (s.calls.modify rid _).get rid = _
    rw [Calls.get_modify, if_pos rfl, hget]
    exact congrArg some (if_pos hregistered)
  · rw [Call.complete, hfuture]
    rfl

theorem Inv.deliver (h : Inv s) (hmsg : IsResponse msg rid) : Inv (s.deliver msg rid) := by
  refine h.modify (fun call hget => ?_) fun call hget hanswered => ?_
  · split_ifs with hregistered
    · exact (h.calls rid call hget).complete hregistered hmsg
    · exact h.calls rid call hget
  · split_ifs with hregistered
    · intro _ hfuture
      change call.future.or (some (.ok msg)) = none at hfuture
      cases hold : call.future <;> rw [hold] at hfuture <;> cases hfuture
    · exact hanswered

theorem Drain.call_ok (drain : Drain) (rid : ℕ) : CallOk rid drain.call := by
  cases drain with
  | raises => exact CallOk.new.settle rfl fun _ hmsg => by cases hmsg
  | blocks => exact .new
  | passes => exact CallOk.new.send

/-- A call that is settled has its answer. -/
theorem Inv.settle (h : Inv s) (hget : s.calls.get rid = some call) (hnone : call.outcome = none)
    (hx : ∀ msg, call.future = some (.ok msg) → x = .ok msg) :
    Inv { s with calls := s.calls.modify rid fun _ => call.settle x } := by
  refine h.modify (fun _ _ => (h.calls rid call hget).settle hnone hx) fun _ _ _ hnone' => ?_
  exact absurd ((Call.outcome_settle hnone).symm.trans hnone') (by simp)

/-- The response was not read. -/
theorem not_replied (h : s.replied rid = false) (hget : s.calls.get rid = some call)
    (msg : Fields) : call.future ≠ some (.ok msg) := by
  intro hfuture
  rw [State.replied, hget, Option.any_some, hfuture] at h
  exact absurd h (by simp)

/-- All that is in `_pending` fails, and the reader has stopped. -/
theorem Inv.failAll (h : Inv s) (e : Failure) :
    Inv { s with reader := .stopped, calls := s.calls.mapAll (Call.fail e) } := by
  refine ⟨?_, Calls.All.mapAll fun rid call hget => (h.calls rid call hget).fail,
    fun _ => all_fail_answered h.calls⟩
  rw [Calls.get_mapAll, h.zero]
  rfl

/-- **The invariant is kept** by the events that are allowed. -/
theorem Inv.step {event : Event} (h : Inv s) (hallowed : allowed s event = true)
    (hstep : Stdio.step s event = some s') : Inv s' := by
  cases event with
  | call drain =>
    obtain rfl := Option.some.inj hstep
    cases hproc : s.hasProc with
    | false =>
      rw [State.call, if_neg (by simp [hproc])]
      exact h
    | true =>
      rw [State.call, if_pos hproc]
      refine ⟨?_, h.calls.issue (drain.call_ok _), fun hstopped => ?_⟩
      · rw [Calls.get_issue, if_neg (by omega)]
        exact h.zero
      · -- The reader has stopped, so the request was not written.
        refine (h.stopped hstopped).issue fun hnone => ?_
        have hdrain : drain = .raises := by
          have hstopped' : s.reader = .stopped := hstopped
          simpa [allowed, hstopped', hproc] using hallowed
        rw [hdrain] at hnone
        cases hnone
  | drained rid isDone =>
    obtain ⟨call, call', hget, hnone, hf, rfl⟩ := proceed_eq_some hstep
    split_ifs at hf with hsent hdone
    · obtain rfl := Option.some.inj hf
      refine h.modify (fun _ _ => (h.calls rid call hget).send) fun call₂ hget₂ hanswered => ?_
      rw [Option.some.inj (hget.symm.trans hget₂)]
      exact hanswered
    · obtain rfl := Option.some.inj hf
      refine h.settle hget hnone fun msg hmsg => absurd hmsg (not_replied ?_ hget msg)
      simpa [allowed, hdone] using hallowed
  | line l =>
    rw [Stdio.step] at hstep
    split_ifs at hstep with hrunning
    obtain rfl := Option.some.inj hstep
    rcases readLine_of_harmless hallowed h.zero with hsame | ⟨msg, rid, -, hmsg, hline⟩
    · rwa [hsame]
    · rw [hline]
      exact h.deliver hmsg
  | eof =>
    rw [Stdio.step] at hstep
    split_ifs at hstep with hrunning
    obtain rfl := Option.some.inj hstep
    exact h.failAll _
  | wake rid =>
    obtain ⟨call, call', hget, hnone, hf, rfl⟩ := proceed_eq_some hstep
    split_ifs at hf with hsent
    obtain ⟨x, hfuture, rfl⟩ := Option.map_eq_some_iff.1 hf
    exact h.settle hget hnone fun msg hmsg => Option.some.inj (hfuture.symm.trans hmsg)
  | timeout rid =>
    obtain ⟨call, call', hget, hnone, hf, rfl⟩ := proceed_eq_some hstep
    split_ifs at hf with hsent
    obtain rfl := Option.some.inj hf
    refine h.settle hget hnone fun msg hmsg => absurd hmsg (not_replied ?_ hget msg)
    simpa [allowed] using hallowed
  | closeReader =>
    obtain rfl := Option.some.inj hstep
    exact ⟨h.zero, h.calls, fun hstopped => by cases hstopped⟩
  | closePending =>
    rw [Stdio.step] at hstep
    split_ifs at hstep with hclosing
    obtain rfl := Option.some.inj hstep
    exact h.failAll _
  | closeProc =>
    rw [Stdio.step] at hstep
    split_ifs at hstep with hstopped
    obtain rfl := Option.some.inj hstep
    exact ⟨h.zero, h.calls, h.stopped⟩

theorem invariant : stdio.Invariant (fun s e => allowed s e = true) Inv where
  init := ⟨rfl, fun _ _ hget => (by cases hget), fun _ _ _ hget => (by cases hget)⟩
  step h hallowed hstep := h.step hallowed hstep

/-- **Calls are settled by their responses, and none is left when the reader has stopped**, in every
run whose events are allowed: lines are harmless, nothing is written once the reader has stopped,
and a call whose response was read is not cut off. -/
theorem stdio_settles {s : State} (h : stdio.Reaches (fun s e => allowed s e = true) s) :
    Settling s ∧ ∀ l s', l.harmless = true → stdio.step s (.line l) = some s' →
      LineSettles s l s' := by
  have hinv := invariant.of_reaches h
  refine ⟨hinv.settling, fun l s' hharmless hstep => ?_⟩
  change (if _ then _ else _) = _ at hstep
  split_ifs at hstep with hrunning
  obtain rfl := Option.some.inj hstep
  constructor
  · rintro msg rid rfl hmsg hwaits
    rw [readLine_of_response hmsg]
    exact get_deliver_of_waits hwaits
  · intro hnobody
    rcases readLine_of_harmless hharmless hinv.zero with hsame | ⟨msg, rid, hl, hmsg, hline⟩
    · rw [hsame]
      exact ⟨rfl, fun _ => rfl⟩
    · rw [hline]
      exact ⟨rfl, get_deliver_of_not_waits (hnobody msg rid hl hmsg)⟩

namespace Sample

def pong : Fields := [("id", .int 1), ("result", .dict [])]

/-- A call that is answered before the subprocess ends. -/
def answered : List Event := [.call .passes, .line .noise, .line (.json (.dict pong)), .eof, .wake 1]

/-- A call, and a line that is JSON but no message. -/
def crashed : List Event := [.call .passes, .line (.json (.list []))]

end Sample

theorem stdio_settles_answered : ∃ s, stdio.run allowed stdio.init Sample.answered = some s ∧
    (s.calls.outcome 1).isSome = true ∧ Settling s := by
  have hrun : (stdio.run allowed stdio.init Sample.answered).map
      (fun s => (s.calls.outcome 1).isSome) = some true := by decide +kernel
  obtain ⟨s, hs, houtcome⟩ := Option.map_eq_some_iff.1 hrun
  exact ⟨s, hs, houtcome, (stdio_settles (.of_run (fun _ _ h => h) hs)).1⟩

/-- **A line that is no message leaves a call waiting**: it ends the reader, and nobody notices. -/
theorem stdio_reader_crashes : ¬ ∀ s, stdio.Reaches (fun _ _ => True) s →
    Settling s ∧ ∀ l s', stdio.step s (.line l) = some s' → LineSettles s l s' := by
  intro hall
  have hrun : (stdio.run (fun _ _ => true) stdio.init Sample.crashed).map (fun s =>
      (s.reader, (s.calls.get 1).map fun call => (call.outcome.isNone, call.future.isNone))) =
      some (.stopped, some (true, true)) := by decide +kernel
  obtain ⟨s, hs, hread⟩ := Option.map_eq_some_iff.1 hrun
  obtain ⟨hstopped, hcall⟩ := Prod.mk.inj hread
  obtain ⟨call, hget, hwaits⟩ := Option.map_eq_some_iff.1 hcall
  obtain ⟨hnone, hfuture⟩ := Prod.mk.inj hwaits
  have hsettling := (hall s (.of_run (fun _ _ _ => trivial) hs)).1
  exact hsettling.stopped hstopped 1 call hget (Option.isNone_iff_eq_none.1 hnone)
    (Option.isNone_iff_eq_none.1 hfuture)

end Backplane.Mcp.Stdio
