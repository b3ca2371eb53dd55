import Backplane.Data.EventSystem
import Backplane.Mcp.Calls

/-!
# Calls whose responses come on a stream

A request is posted, and its response comes on the stream of the server's events, or as the answer
to the post.  Ids may come back as other types, so a string or a float is taken for a number.

* `pyInt`, `Json.denotes` : the numbers that ids are taken for.
* `sse` : the calls, the stream and the endpoint, event by event.
* `Correlated`, `Faithful` : what holds of the calls, and of every event.
* `State.expected`, `allowed` : the server's events that leave other calls alone, and the events
  that may happen.
* `sse_correlated` : responses are correlated in every run whose events are allowed.
-/

namespace Backplane.Mcp.Sse

/-! ### Ids -/

/-- What a character is, for `str.isdigit` and `int`. -/
inductive Digit
  | none
  /-- A digit, but not a decimal one: `int` does not take it. -/
  | other
  | decimal (d : ℕ)

/-- `sys.int_info.default_max_str_digits` -/
def maxDigits : ℕ := 4300

variable (digit : Char → Digit)

/-- `str.isdigit` -/
def isDigits (cs : List Char) : Bool :=
  !cs.isEmpty && cs.all fun c => match digit c with
    | .none => false
    | _ => true

/-- The number that decimal digits make. -/
def decimals : List Char → ℕ → Option ℕ
  | [], n => some n
  | c :: cs, n => match digit c with
    | .decimal d => decimals cs (10 * n + d)
    | _ => none

/-- `int`, of digits with minus signs before them; `none`: it raises. -/
def pyInt (cs : List Char) : Option ℤ :=
  let digits := cs.dropWhile (· = '-')
  if cs.length - digits.length ≤ 1 && digits.length ≤ maxDigits then
    (decimals digit digits 0).map fun n => if cs.length = digits.length then (n : ℤ) else -n
  else none

/-- What an id is coerced to, when nothing is found under it. -/
inductive Coerced
  | none
  | number (n : ℤ)
  /-- `int` raises. -/
  | raises
  deriving DecidableEq

/-- The coercion of an id. -/
def coerce : Json → Coerced
  | .str s =>
    if isDigits digit (s.toList.dropWhile (· = '-')) then
      match pyInt digit s.toList with
      | some n => .number n
      | .none => .raises
    else .none
  | .float (some n) => .number n
  | _ => .none

/-! ### The client -/

/-- Why a call fails. -/
inductive Failure
  /-- The stream ended before the response came. -/
  | dropped
  | closed
  | timedOut
  | refused
  /-- The answer to the post is not a dictionary. -/
  | malformed
  deriving DecidableEq

/-- `SseMcpClient` -/
structure State where
  /-- The calls, with `_pending` and `_request_id`. -/
  calls : Calls Fields Failure := {}
  isConnected : Bool := false
  /-- `_post_url` is there. -/
  hasPostUrl : Bool := false
  isClosed : Bool := false

/-- The data of an `endpoint` event. -/
inductive Endpoint
  | sameOrigin
  /-- A URL of another origin. -/
  | otherOrigin
  | malformed
  deriving DecidableEq

/-- The data of a `message` event. -/
inductive Data
  /-- `JSONDecodeError` -/
  | invalid
  /-- The parser raises something else: the data is nested too deeply, or a number is too long. -/
  | raises
  | value (v : Json)

/-- An event of the server. -/
inductive ServerEvent
  | endpoint (e : Endpoint)
  | message (d : Data)
  | other

/-- How a post ends. -/
inductive Posted
  /-- With an error, or not in time. -/
  | failed
  /-- The response is to come on the stream. -/
  | accepted
  /-- A 200, with a body; `none`: it is not JSON. -/
  | inline (body : Option Json)

/-- What happens. -/
inductive Event
  | connect
  | server (ev : ServerEvent)
  | drop
  /-- `_call`, up to its post. -/
  | call
  | posted (rid : ℕ) (r : Posted)
  /-- The coroutine of a call goes on with what its future holds. -/
  | wake (rid : ℕ)
  | timeout (rid : ℕ)
  /-- `aclose`: the stream task is cancelled. -/
  | closeStream
  /-- `aclose`: the futures fail. -/
  | closePending

/-- `_fail_pending_for_reconnect`, when the stream has ended. -/
def State.dropStream (s : State) : State :=
  { s with isConnected := false, calls := s.calls.mapAll (Call.fail .dropped) }

/-- The future under a number is taken out; there is none: nothing happens. -/
def State.take (s : State) (n : ℤ) : Option (ℕ × Call Fields Failure) :=
  if n < 0 then none
  else ((s.calls.get n.toNat).filter Call.registered).map fun call => (n.toNat, call)

/-- `_pending.pop(msg_id)`, and again with what the id is coerced to; `none`: it raises. -/
def State.find (s : State) (id : Json) : Option (Option (ℕ × Call Fields Failure)) :=
  match id.key with
  | .unhashable => none
  | .number n =>
    match s.take n with
    | some x => some (some x)
    | none => match coerce digit id with
      | .none => some none
      | .number m => some (s.take m)
      | .raises => none
  | .other => match coerce digit id with
    | .none => some none
    | .number m => some (s.take m)
    | .raises => none

/-- A message completes a call; an error that is not a dictionary raises once the future is out. -/
def State.complete (s : State) (msg : Fields) (rid : ℕ) : State :=
  match msg.lookup "error" with
  | none => { s with calls := s.calls.modify rid fun call => (call.complete (.ok msg)).pop }
  | some (.dict _) =>
    { s with calls := s.calls.modify rid fun call => (call.complete (.ok msg)).pop }
  | some _ => ({ s with calls := s.calls.modify rid Call.pop } : State).dropStream

/-- `_handle_event`; where it raises, the stream ends. -/
def State.handleEvent (s : State) : ServerEvent → State
  | .endpoint .sameOrigin => { s with hasPostUrl := true }
  | .endpoint .otherOrigin => s
  | .endpoint .malformed => s.dropStream
  | .message .invalid => s
  | .message .raises => s.dropStream
  | .message (.value (.dict msg)) =>
    match messageId msg with
    | none => s
    | some id => match s.find digit id with
      | none => s.dropStream
      | some none => s
      | some (some (rid, call)) =>
        if call.future.isSome then { s with calls := s.calls.modify rid Call.pop }
        else s.complete msg rid
  | .message (.value _) => s.dropStream
  | .other => s

/-- The call goes on as the function says; it must be there and not be settled. -/
def State.proceed (s : State) (rid : ℕ) (f : Call Fields Failure → Option (Call Fields Failure)) :
    Option State :=
  (s.calls.get rid).bind fun call =>
    if call.outcome.isNone then (f call).map fun call' =>
      { s with calls := s.calls.modify rid fun _ => call' }
    else none

/-- A call whose post has ended. -/
def Posted.next (call : Call Fields Failure) : Posted → Call Fields Failure
  | failed => call.settle (.error .refused)
  | accepted => call.send
  | inline (some (.dict body)) => call.settle (.ok body)
  | inline _ => call.settle (.error .malformed)

/-- An event. -/
def step (s : State) : Event → Option State
  | .connect => if s.isConnected || s.isClosed then none else some { s with isConnected := true }
  | .server ev => if s.isConnected then some (s.handleEvent digit ev) else none
  | .drop => if s.isConnected then some s.dropStream else none
  | .call => some (if s.hasPostUrl then { s with calls := s.calls.issue {} } else s)
  | .posted rid r => s.proceed rid fun call => if call.sent then none else some (r.next call)
  | .wake rid => s.proceed rid fun call =>
    if call.sent then call.future.map fun x => call.settle x else none
  | .timeout rid => s.proceed rid fun call =>
    if call.sent then some (call.settle (.error .timedOut)) else none
  | .closeStream => some { s with isClosed := true, isConnected := false }
  | .closePending =>
    if s.isClosed then some { s with calls := s.calls.mapAll (Call.fail .closed) } else none

/-- The client, from its start. -/
def sse : EventSystem State Event := ⟨{}, step digit⟩

/-! ### How calls are settled -/

/-- The number that an id stands for. -/
def target : Json → Option ℕ
  | .int n => if n < 0 then none else some n.toNat
  | .float (some n) => if n < 0 then none else some n.toNat
  | .str s => match coerce digit (.str s) with
    | .number n => if n < 0 then none else some n.toNat
    | _ => none
  | _ => none

/-- The message is a response to the call with this id. -/
def isResponse (msg : Fields) (rid : ℕ) : Bool :=
  isReply msg && (messageId msg).bind (target digit) = some rid

/-- What holds of the calls at any time. -/
structure Correlated (s : State) : Prop where
  /-- A call is settled by a response to it, or by an error. -/
  own : s.calls.All fun rid call => ∀ msg, call.outcome = some (.ok msg) →
    isResponse digit msg rid = true
  /-- No entry outlives its call. -/
  entry : s.calls.All fun _ call => call.registered = true → call.outcome = none
  /-- A call that is not settled can fail, in its post or because it times out. -/
  live : ∀ rid call, s.calls.get rid = some call → call.outcome = none →
    ∃ e s', (e = .posted rid .failed ∨ e = .timeout rid) ∧ step digit s e = some s' ∧
      s'.calls.outcome rid ≠ none

/-- What holds of every event. -/
structure Faithful (s : State) (e : Event) (s' : State) : Prop where
  /-- A call is settled once. -/
  once : s.calls.Extends s'.calls
  /-- An event of the server that is no response to a call that waits changes no call. -/
  others : ∀ ev, e = .server ev → (∀ msg rid, ev = .message (.value (.dict msg)) →
    isResponse digit msg rid = true → ¬ s.calls.Waits rid) →
      ∀ rid, s'.calls.get rid = s.calls.get rid

/-! ### What may happen -/

/-- The id has a hash, is not `True`, and `int` does not raise on it. -/
def plain : Json → Bool
  | .list _ => false
  | .dict _ => false
  | .bool b => !b
  | .str s => coerce digit (.str s) ≠ .raises
  | _ => true

/-- The call is in `_pending`. -/
def State.pending (s : State) (rid : ℕ) : Bool := (s.calls.get rid).any Call.registered

/-- The event does not raise, unless it is a response, and is not taken for one. -/
def State.expected (s : State) : ServerEvent → Bool
  | .endpoint e => e ≠ .malformed
  | .message .invalid => true
  | .message .raises => false
  | .message (.value (.dict msg)) => (messageId msg).all fun id =>
    plain digit id && (isReply msg || (target digit id).all fun rid => !s.pending rid)
  | .message (.value _) => false
  | .other => true

/-- The event may happen: the server's events are as expected, and the answer to a post is a
response to its own call. -/
def allowed (s : State) : Event → Bool
  | .server ev => s.expected digit ev
  | .posted rid (.inline (some (.dict body))) => isResponse digit body rid
  | _ => true

/-! ### What each event keeps -/

/-- What holds of a call at any time. -/
structure CallOk (rid : ℕ) (call : Call Fields Failure) : Prop where
  /-- Its future holds a response to it. -/
  future : ∀ msg, call.future = some (.ok msg) → isResponse digit msg rid = true
  /-- It is settled with a response to it. -/
  outcome : ∀ msg, call.outcome = some (.ok msg) → isResponse digit msg rid = true
  /-- What is in `_pending` waits. -/
  entry : call.registered = true → call.outcome = none ∧ call.future = none

/-- The invariant. -/
structure Inv (s : State) : Prop where
  /-- Ids start with one. -/
  zero : s.calls.get 0 = none
  /-- Ids were given out. -/
  numbered : s.calls.Numbered
  calls : s.calls.All (CallOk digit)

variable {digit} {s s' : State} {call : Call Fields Failure} {rid : ℕ} {msg : Fields}
  {x : Except Failure Fields} {e : Failure} {id : Json}

theorem proceed_eq_some {f : Call Fields Failure → Option (Call Fields Failure)}
    (h : s.proceed rid f = some s') : ∃ call call', s.calls.get rid = some call ∧
      call.outcome = none ∧ f call = some call' ∧
      s' = { s with calls := s.calls.modify rid fun _ => call' } := by
  obtain ⟨call, hget, h⟩ := Option.bind_eq_some_iff.1 h
  split_ifs at h with houtcome
  obtain ⟨call', hf, rfl⟩ := Option.map_eq_some_iff.1 h
  exact ⟨call, call', hget, Option.isNone_iff_eq_none.1 houtcome, hf, rfl⟩

namespace CallOk

theorem new : CallOk digit rid {} :=
  ⟨fun _ h => (by cases h), fun _ h => (by cases h), fun _ => ⟨rfl, rfl⟩⟩

theorem pop (h : CallOk digit rid call) : CallOk digit rid call.pop :=
  ⟨h.future, h.outcome, fun hfalse => absurd hfalse Bool.false_ne_true⟩

theorem settle (h : CallOk digit rid call) (hnone : call.outcome = none)
    (hx : ∀ msg, x = .ok msg → isResponse digit msg rid = true) :
    CallOk digit rid (call.settle x) := by
  refine ⟨h.future, fun msg hmsg => hx msg ?_, fun hfalse => absurd hfalse Bool.false_ne_true⟩
  exact Option.some.inj ((Call.outcome_settle hnone).symm.trans hmsg)

theorem complete (h : CallOk digit rid call) (hmsg : isResponse digit msg rid = true) :
    CallOk digit rid (call.complete (.ok msg)).pop := by
  refine ⟨fun msg' h' => ?_, h.outcome, fun hfalse => absurd hfalse Bool.false_ne_true⟩
  change call.future.or (some (.ok msg)) = some (.ok msg') at h'
  cases hfuture : call.future with
  | none =>
    rw [hfuture] at h'
    cases h'
    exact hmsg
  | some y =>
    rw [hfuture] at h'
    exact h.future msg' (hfuture.trans h')

theorem fail (h : CallOk digit rid call) : CallOk digit rid (call.fail e) := by
  refine ⟨fun msg hmsg => ?_, fun msg hmsg => ?_, fun hregistered => ?_⟩
  · rw [Call.future_fail] at hmsg
    split_ifs at hmsg with hregistered
    · rw [(h.entry hregistered).2] at hmsg
      cases hmsg
    · exact h.future msg hmsg
  · rw [Call.outcome_fail] at hmsg
    exact h.outcome msg hmsg
  · rw [Call.registered_fail] at hregistered
    exact absurd hregistered Bool.false_ne_true

end CallOk

namespace Inv

theorem modify (h : Inv digit s) {f : Call Fields Failure → Call Fields Failure}
    (hf : ∀ call, s.calls.get rid = some call → CallOk digit rid (f call)) :
    Inv digit { s with calls := s.calls.modify rid f } := by
  refine ⟨?_, h.numbered.modify, h.calls.modify hf⟩
  rw [Calls.get_modify, h.zero]
  split_ifs with hrid
  · rw [← hrid, h.zero]
    rfl
  · rfl

theorem failAll (h : Inv digit s) (e : Failure) :
    Inv digit { s with calls := s.calls.mapAll (Call.fail e) } := by
  refine ⟨?_, h.numbered.mapAll, Calls.All.mapAll fun rid call hget => (h.calls rid call hget).fail⟩
  rw [Calls.get_mapAll, h.zero]
  rfl

/-- Only the calls matter. -/
theorem of_calls (h : Inv digit s) (hcalls : s'.calls = s.calls) : Inv digit s' :=
  ⟨hcalls ▸ h.zero, hcalls ▸ h.numbered, hcalls ▸ h.calls⟩

/-- A call that is settled by a response to it, or by an error. -/
theorem settle (h : Inv digit s) (hget : s.calls.get rid = some call) (hnone : call.outcome = none)
    (hx : ∀ msg, x = .ok msg → isResponse digit msg rid = true) :
    Inv digit { s with calls := s.calls.modify rid fun _ => call.settle x } :=
  h.modify fun _ _ => (h.calls rid call hget).settle hnone hx

end Inv

/-! ### The server's events -/

theorem take_eq_some {n : ℤ} {y : ℕ × Call Fields Failure} (h : s.take n = some y) :
    y.1 = n.toNat ∧ 0 ≤ n ∧ s.calls.get y.1 = some y.2 ∧ y.2.registered = true := by
  rw [State.take] at h
  split_ifs at h with hn
  obtain ⟨call, hcall, rfl⟩ := Option.map_eq_some_iff.1 h
  obtain ⟨hget, hregistered⟩ := Option.filter_eq_some_iff.1 hcall
  exact ⟨rfl, by omega, hget, hregistered⟩

/-- The future that is found is that of the call the id stands for. -/
theorem find_of_plain (hid : plain digit id = true) (hzero : s.calls.get 0 = none) :
    ∃ found, s.find digit id = some found ∧ ∀ y, found = some y →
      target digit id = some y.1 ∧ s.calls.get y.1 = some y.2 ∧ y.2.registered = true := by
  have htake : ∀ {n : ℤ} {y : ℕ × Call Fields Failure}, s.take n = some y →
      (if n < 0 then none else some n.toNat) = some y.1 ∧ s.calls.get y.1 = some y.2 ∧
        y.2.registered = true := by
    intro n y hy
    obtain ⟨hfst, hn, hget, hregistered⟩ := take_eq_some hy
    rw [if_neg (by omega), hfst]
    exact ⟨rfl, hfst ▸ hget, hregistered⟩
  cases id with
  | null => exact ⟨none, rfl, fun y hy => by cases hy⟩
  | list xs => exact absurd hid Bool.false_ne_true
  | dict fields => exact absurd hid Bool.false_ne_true
  | bool b =>
    cases b with
    | true => exact absurd hid Bool.false_ne_true
    | false =>
      refine ⟨none, ?_, fun y hy => by cases hy⟩
      have hnone : s.take 0 = none := by
        rw [State.take, if_neg (by omega), Int.toNat_zero, hzero]
        rfl
      change (match s.take 0 with
        | some x => some (some x)
        | none => _) = _
      rw [hnone]
      rfl
  | int n =>
    refine ⟨s.take n, ?_, fun y hy => htake hy⟩
    change (match s.take n with
      | some x => some (some x)
      | none => _) = _
    cases s.take n <;> rfl
  | float whole =>
    cases whole with
    | none => exact ⟨none, rfl, fun y hy => by cases hy⟩
    | some n =>
      refine ⟨s.take n, ?_, fun y hy => htake hy⟩
      change (match s.take n with
        | some x => some (some x)
        | none => some (s.take n)) = _
      cases s.take n <;> rfl
  | str text =>
    have hfind : s.find digit (.str text) = match coerce digit (.str text) with
        | .none => some none
        | .number m => some (s.take m)
        | .raises => none := rfl
    have htarget : target digit (.str text) = match coerce digit (.str text) with
        | .number n => if n < 0 then none else some n.toNat
        | _ => none := rfl
    rw [hfind, htarget]
    cases hcoerce : coerce digit (.str text) with
    | none => exact ⟨none, rfl, fun y hy => by cases hy⟩
    | raises =>
      rw [plain, hcoerce] at hid
      exact absurd hid (by decide)
    | number m => exact ⟨s.take m, rfl, fun y hy => htake hy⟩

/-- What an event of the server does to the calls, if it is as expected: nothing, or it completes
the call that it is a response to, or takes it out and the stream ends. -/
theorem handleEvent_cases {ev : ServerEvent} (h : Inv digit s) (hev : s.expected digit ev = true) :
    (s.handleEvent digit ev).calls = s.calls ∨
      ∃ msg rid, ev = .message (.value (.dict msg)) ∧ isResponse digit msg rid = true ∧
        s.calls.Waits rid ∧
        ((s.handleEvent digit ev).calls =
            s.calls.modify rid (fun call => (call.complete (.ok msg)).pop) ∨
          (s.handleEvent digit ev).calls =
            (s.calls.modify rid Call.pop).mapAll (Call.fail .dropped)) := by
  cases ev with
  | other => exact .inl rfl
  | endpoint e =>
    cases e with
    | sameOrigin => exact .inl rfl
    | otherOrigin => exact .inl rfl
    | malformed => exact absurd hev Bool.false_ne_true
  | message d =>
    cases d with
    | invalid => exact .inl rfl
    | raises => exact absurd hev Bool.false_ne_true
    | value v =>
      cases v with
      | dict msg =>
        cases hid : messageId msg with
        | none =>
          refine .inl ?_
          rw [State.handleEvent, hid]
        | some id =>
          rw [State.expected, hid, Option.all_some, Bool.and_eq_true, Bool.or_eq_true] at hev
          obtain ⟨hplain, hshape⟩ := hev
          obtain ⟨found, hfind, hfound⟩ := find_of_plain hplain h.zero
          cases found with
          | none =>
            refine .inl ?_
            rw [State.handleEvent, hid]
            dsimp only
            rw [hfind]
          | some y =>
            obtain ⟨rid, call⟩ := y
            obtain ⟨htarget, hget, hregistered⟩ := hfound _ rfl
            have hfuture := ((h.calls rid call hget).entry hregistered).2
            -- A message that is no reply would not have found a future.
            have hreply : isReply msg = true := by
              refine hshape.resolve_right fun hnone => ?_
              have htrue : call.registered = true := hregistered
              rw [htarget, Option.all_some, State.pending, hget] at hnone
              simp [htrue] at hnone
            refine .inr ⟨msg, rid, rfl, ?_, ⟨call, hget, hregistered, hfuture⟩, ?_⟩
            · rw [isResponse, hreply, hid]
              simpa using htarget
            · rw [State.handleEvent, hid]
              dsimp only
              rw [hfind]
              dsimp only
              rw [hfuture, Option.isSome_none, if_neg Bool.false_ne_true, State.complete]
              split
              · exact .inl rfl
              · exact .inl rfl
              · exact .inr rfl
      | _ => exact absurd hev Bool.false_ne_true

/-! ### The calls over a run -/

/-- **The invariant is kept** by the events that are allowed. -/
theorem Inv.step {event : Event} (h : Inv digit s) (hallowed : allowed digit s event = true)
    (hstep : Sse.step digit s event = some s') : Inv digit s' := by
  cases event with
  | connect =>
    rw [Sse.step] at hstep
    split_ifs at hstep
    obtain rfl := Option.some.inj hstep
    exact h.of_calls rfl
  | server ev =>
    rw [Sse.step] at hstep
    split_ifs at hstep
    obtain rfl := Option.some.inj hstep
    rcases handleEvent_cases h hallowed with hsame | ⟨msg, rid, -, hmsg, -, hcalls | hcalls⟩
    · exact h.of_calls hsame
    · exact (h.modify fun call hget => (h.calls rid call hget).complete hmsg).of_calls hcalls
    · exact ((h.modify fun call hget => (h.calls rid call hget).pop).failAll .dropped).of_calls
        hcalls
  | drop =>
    rw [Sse.step] at hstep
    split_ifs at hstep
    obtain rfl := Option.some.inj hstep
    exact (h.failAll .dropped).of_calls rfl
  | call =>
    obtain rfl := Option.some.inj hstep
    split_ifs
    · refine ⟨?_, h.numbered.issue, h.calls.issue .new⟩
      rw [Calls.get_issue, if_neg (by omega)]
      exact h.zero
    · exact h
  | posted rid r =>
    obtain ⟨call, call', hget, hnone, hf, rfl⟩ := proceed_eq_some hstep
    split_ifs at hf
    obtain rfl := Option.some.inj hf
    have hcall := h.calls rid call hget
    refine h.modify fun _ _ => ?_
    cases r with
    | failed => exact hcall.settle hnone fun msg hmsg => by cases hmsg
    | accepted => exact ⟨hcall.future, hcall.outcome, hcall.entry⟩
    | inline body =>
      cases body with
      | none => exact hcall.settle hnone fun msg hmsg => by cases hmsg
      | some v =>
        cases v with
        | dict body =>
          refine hcall.settle hnone fun msg hmsg => ?_
          cases hmsg
          exact hallowed
        | _ => exact hcall.settle hnone fun msg hmsg => by cases hmsg
  | wake rid =>
    obtain ⟨call, call', hget, hnone, hf, rfl⟩ := proceed_eq_some hstep
    split_ifs at hf
    obtain ⟨x, hfuture, rfl⟩ := Option.map_eq_some_iff.1 hf
    refine h.settle hget hnone fun msg hmsg => ?_
    exact (h.calls rid call hget).future msg (hfuture.trans (congrArg some hmsg))
  | timeout rid =>
    obtain ⟨call, call', hget, hnone, hf, rfl⟩ := proceed_eq_some hstep
    split_ifs at hf
    obtain rfl := Option.some.inj hf
    exact h.settle hget hnone fun msg hmsg => by cases hmsg
  | closeStream =>
    obtain rfl := Option.some.inj hstep
    exact h.of_calls rfl
  | closePending =>
    rw [Sse.step] at hstep
    split_ifs at hstep
    obtain rfl := Option.some.inj hstep
    exact (h.failAll .closed).of_calls rfl

theorem invariant : (sse digit).Invariant (fun s e => allowed digit s e = true) (Inv digit) where
  init := ⟨rfl, fun _ hget => absurd rfl hget, fun _ _ hget => (by cases hget)⟩
  step h hallowed hstep := h.step hallowed hstep

/-- What is settled stays so when one call goes on. -/
theorem proceed_extends {f : Call Fields Failure → Option (Call Fields Failure)}
    (h : s.proceed rid f = some s') : s.calls.Extends s'.calls := by
  obtain ⟨call, call', hget, hnone, -, rfl⟩ := proceed_eq_some h
  intro rid' y hy
  change (s.calls.modify rid _).outcome rid' = _
  rw [Calls.outcome, Calls.get_modify]
  split_ifs with hrid
  · rw [Calls.outcome, hrid, hget] at hy
    exact absurd (hnone.symm.trans hy) (by simp)
  · exact hy

theorem extends_fail (c : Calls Fields Failure) (e : Failure) :
    c.Extends (c.mapAll (Call.fail e)) :=
  Calls.Extends.mapAll fun _ _ hx => Call.outcome_fail.trans hx

theorem Inv.faithful {event : Event} (h : Inv digit s) (hallowed : allowed digit s event = true)
    (hstep : Sse.step digit s event = some s') : Faithful digit s event s' := by
  have hother : (∀ ev, event ≠ .server ev) → s.calls.Extends s'.calls →
      Faithful digit s event s' :=
    fun hne hextends => ⟨hextends, fun ev hev => absurd hev (hne ev)⟩
  cases event with
  | connect =>
    rw [Sse.step] at hstep
    split_ifs at hstep
    obtain rfl := Option.some.inj hstep
    exact hother (fun _ hev => by cases hev) (.refl _)
  | server ev =>
    rw [Sse.step] at hstep
    split_ifs at hstep
    obtain rfl := Option.some.inj hstep
    rcases handleEvent_cases h hallowed with hsame | ⟨msg, rid, rfl, hmsg, hwaits, hcalls⟩
    · exact ⟨by rw [hsame], fun _ _ _ rid => by rw [hsame]⟩
    · refine ⟨?_, fun ev' hev hnone => ?_⟩
      · rcases hcalls with hcalls | hcalls
        · rw [hcalls]
          exact .modify fun _ _ hx => hx
        · rw [hcalls]
          have hpop : s.calls.Extends (s.calls.modify rid Call.pop) := .modify fun _ _ hx => hx
          exact hpop.trans (extends_fail _ _)
      -- The message is a response to a call that waits.
      · cases hev
        exact absurd hwaits (hnone msg rid rfl hmsg)
  | drop =>
    rw [Sse.step] at hstep
    split_ifs at hstep
    obtain rfl := Option.some.inj hstep
    exact hother (fun _ hev => by cases hev) (extends_fail _ _)
  | call =>
    obtain rfl := Option.some.inj hstep
    refine hother (fun _ hev => by cases hev) ?_
    split_ifs
    · exact .issue h.numbered
    · exact .refl _
  | posted rid r => exact hother (fun _ hev => by cases hev) (proceed_extends hstep)
  | wake rid => exact hother (fun _ hev => by cases hev) (proceed_extends hstep)
  | timeout rid => exact hother (fun _ hev => by cases hev) (proceed_extends hstep)
  | closeStream =>
    obtain rfl := Option.some.inj hstep
    exact hother (fun _ hev => by cases hev) (.refl _)
  | closePending =>
    rw [Sse.step] at hstep
    split_ifs at hstep
    obtain rfl := Option.some.inj hstep
    exact hother (fun _ hev => by cases hev) (extends_fail _ _)

/-- A call that is not settled can fail. -/
theorem can_fail (hget : s.calls.get rid = some call) (hnone : call.outcome = none) :
    ∃ e s', (e = .posted rid .failed ∨ e = .timeout rid) ∧ Sse.step digit s e = some s' ∧
      s'.calls.outcome rid ≠ none := by
  have hsettled : ∀ y : Except Failure Fields,
      (s.calls.modify rid fun _ => call.settle y).outcome rid ≠ none := by
    intro y
    rw [Calls.outcome, Calls.get_modify, if_pos rfl, hget]
    change (call.settle y).outcome ≠ none
    rw [Call.outcome_settle hnone]
    simp
  cases hsent : call.sent with
  | true =>
    refine ⟨.timeout rid,
      { s with calls := s.calls.modify rid fun _ => call.settle (.error .timedOut) }, .inr rfl, ?_,
      hsettled _⟩
    rw [Sse.step, State.proceed, hget, Option.bind_some, hnone]
    simp [hsent]
  | false =>
    refine ⟨.posted rid .failed,
      { s with calls := s.calls.modify rid fun _ => call.settle (.error .refused) }, .inl rfl, ?_,
      hsettled _⟩
    rw [Sse.step, State.proceed, hget, Option.bind_some, hnone]
    simp [hsent, Posted.next]

variable (digit) in
/-- **Responses are correlated** in every run in which the server's events are as expected and the
answers to posts are their own: each call is settled once, by a response to it or an error, no entry
outlives its call, and what is no response to a call changes no call. -/
theorem sse_correlated {s : State}
    (h : (sse digit).Reaches (fun s e => allowed digit s e = true) s) :
    Correlated digit s ∧ ∀ e s', allowed digit s e = true → (sse digit).step s e = some s' →
      Faithful digit s e s' := by
  have hinv := invariant.of_reaches h
  refine ⟨⟨?_, ?_, fun rid call hget hnone => can_fail hget hnone⟩, fun e s' => hinv.faithful⟩
  · exact hinv.calls.imp fun _ _ hcall => hcall.outcome
  · exact hinv.calls.imp fun _ _ hcall hregistered => (hcall.entry hregistered).1

namespace Sample

/-- The digits of ASCII. -/
def ascii (c : Char) : Digit := if c.isDigit then .decimal (c.toNat - '0'.toNat) else .none

/-- A response to the first call, with the id as a string. -/
def pong : Fields := [("id", .str "1"), ("result", .dict [])]

/-- A request of the server, with the id of the first call. -/
def ping : Fields := [("id", .int 1), ("method", .str "ping")]

/-- A call whose response comes on the stream. -/
def answered : List Event :=
  [.connect, .server (.endpoint .sameOrigin), .call, .posted 1 .accepted,
    .server (.message (.value (.dict pong))), .wake 1, .drop]

/-- A call that is sent. -/
def asked : List Event :=
  [.connect, .server (.endpoint .sameOrigin), .call, .posted 1 .accepted]

end Sample

theorem sse_correlated_answered : ∃ s, (sse Sample.ascii).run (allowed Sample.ascii)
      (sse Sample.ascii).init Sample.answered = some s ∧
    (s.calls.outcome 1).isSome = true ∧ Correlated Sample.ascii s := by
  have hrun : ((sse Sample.ascii).run (allowed Sample.ascii) (sse Sample.ascii).init
      Sample.answered).map (fun s => (s.calls.outcome 1).isSome) = some true := by decide +kernel
  obtain ⟨s, hs, houtcome⟩ := Option.map_eq_some_iff.1 hrun
  exact ⟨s, hs, houtcome, (sse_correlated Sample.ascii (.of_run (fun _ _ h => h) hs)).1⟩

/-- **A request of the server may settle a call**, for it is taken for a response. -/
theorem sse_ping_settles : ¬ ∀ s, (sse Sample.ascii).Reaches (fun _ _ => True) s →
    Correlated Sample.ascii s ∧ ∀ e s', (sse Sample.ascii).step s e = some s' →
      Faithful Sample.ascii s e s' := by
  intro hall
  have hrun : ((sse Sample.ascii).run (fun _ _ => true) (sse Sample.ascii).init Sample.asked).map
      (fun s => (s.isConnected, (s.calls.get 1).map (fun call => call.future.isNone),
        ((s.handleEvent Sample.ascii (.message (.value (.dict Sample.ping)))).calls.get 1).map
          fun call => call.future.isNone)) = some (true, some true, some false) := by
    decide +kernel
  obtain ⟨s, hs, hread⟩ := Option.map_eq_some_iff.1 hrun
  obtain ⟨hconnected, hread⟩ := Prod.mk.inj hread
  obtain ⟨hbefore, hafter⟩ := Prod.mk.inj hread
  have hfaithful := (hall s (.of_run (fun _ _ _ => trivial) hs)).2
    (.server (.message (.value (.dict Sample.ping)))) _ (if_pos hconnected)
  have hsame := hfaithful.others _ rfl (fun msg rid hmsg hresponse => by
    cases hmsg
    exact absurd hresponse Bool.false_ne_true) 1
  rw [hsame, hbefore] at hafter
  exact absurd hafter (by decide)

end Backplane.Mcp.Sse
