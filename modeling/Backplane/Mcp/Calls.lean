import Backplane.Data.Table

/-!
# Calls that wait for responses

A client numbers its requests and keeps, in `_pending`, a future under the number of each.  A
response completes the future, and the call that awaits it wakes up.

* `Call`, `Calls` : the calls of a client.
* `Calls.issue`, `Calls.modify`, `Calls.mapAll` : what happens to them.
* `Calls.All` : a property of every call, and what keeps it.
* `Calls.Extends` : a call that is settled stays settled, and in the same way.
* `Json` : payloads, and the numbers that they can be taken for.
-/

namespace Backplane.Mcp

variable {ρ φ : Type}

/-- A call, as its coroutine and the dictionary have it. -/
structure Call (ρ φ : Type) where
  future : Option (Except φ ρ) := none
  /-- The future is in `_pending`. -/
  registered : Bool := true
  /-- The request is sent, and the call awaits its future. -/
  sent : Bool := false
  outcome : Option (Except φ ρ) := none

namespace Call

/-- `set_result` or `set_exception`, unless the future is done. -/
def complete (x : Except φ ρ) (call : Call ρ φ) : Call ρ φ :=
  { call with future := call.future.or (some x) }

/-- The future is taken out of `_pending`. -/
def pop (call : Call ρ φ) : Call ρ φ := { call with registered := false }

/-- A future that is in `_pending` fails, and is taken out. -/
def fail (e : φ) (call : Call ρ φ) : Call ρ φ :=
  if call.registered then (call.complete (.error e)).pop else call

/-- The request is sent. -/
def send (call : Call ρ φ) : Call ρ φ := { call with sent := true }

/-- The coroutine ends; `finally` takes the future out. -/
def settle (x : Except φ ρ) (call : Call ρ φ) : Call ρ φ :=
  { call with outcome := call.outcome.or (some x), registered := false }

end Call

/-- The calls of a client, by their ids. -/
structure Calls (ρ φ : Type) where
  /-- `_request_id` -/
  lastId : ℕ := 0
  table : Table ℕ (Call ρ φ) := ∅

namespace Calls

/-- A call. -/
def get (c : Calls ρ φ) (rid : ℕ) : Option (Call ρ φ) := c.table.lookup rid

/-- How a call was settled. -/
def outcome (c : Calls ρ φ) (rid : ℕ) : Option (Except φ ρ) := (c.get rid).bind Call.outcome

/-- A new call. -/
def issue (c : Calls ρ φ) (call : Call ρ φ) : Calls ρ φ where
  lastId := c.lastId + 1
  table := c.table.insert (c.lastId + 1) call

/-- Something happens to a call. -/
def modify (c : Calls ρ φ) (rid : ℕ) (f : Call ρ φ → Call ρ φ) : Calls ρ φ :=
  { c with table := c.table.update rid f }

/-- Something happens to all calls. -/
def mapAll (c : Calls ρ φ) (f : Call ρ φ → Call ρ φ) : Calls ρ φ :=
  { c with table := c.table.mapRows fun _ => f }

/-- The call awaits its response. -/
def Waits (c : Calls ρ φ) (rid : ℕ) : Prop :=
  ∃ call, c.get rid = some call ∧ call.registered = true ∧ call.future = none

/-- Every call has the property. -/
def All (P : ℕ → Call ρ φ → Prop) (c : Calls ρ φ) : Prop :=
  ∀ rid call, c.get rid = some call → P rid call

/-- The ids are numbers that were given out. -/
def Numbered (c : Calls ρ φ) : Prop := ∀ rid, c.get rid ≠ none → rid ≤ c.lastId

/-- What is settled stays settled. -/
def Extends (c c' : Calls ρ φ) : Prop :=
  ∀ rid x, c.outcome rid = some x → c'.outcome rid = some x

variable {c : Calls ρ φ} {call : Call ρ φ} {rid rid' : ℕ} {f : Call ρ φ → Call ρ φ}
  {P : ℕ → Call ρ φ → Prop}

theorem get_issue : (c.issue call).get rid = if rid = c.lastId + 1 then some call else c.get rid :=
  Table.lookup_insert ..

theorem get_modify :
    (c.modify rid f).get rid' = if rid' = rid then (c.get rid).map f else c.get rid' :=
  Table.lookup_update ..

theorem get_mapAll : (c.mapAll f).get rid = (c.get rid).map f := Table.lookup_mapRows ..

theorem All.issue (h : c.All P) (hcall : P (c.lastId + 1) call) : (c.issue call).All P := by
  intro rid call' hget
  rw [get_issue] at hget
  split_ifs at hget with hrid
  · rw [← Option.some.inj hget, hrid]
    exact hcall
  · exact h rid call' hget

theorem All.modify (h : c.All P) (hf : ∀ call, c.get rid = some call → P rid (f call)) :
    (c.modify rid f).All P := by
  intro rid' call' hget
  rw [get_modify] at hget
  split_ifs at hget with hrid
  · obtain ⟨call, hcall, rfl⟩ := Option.map_eq_some_iff.1 hget
    rw [hrid]
    exact hf call hcall
  · exact h rid' call' hget

theorem All.mapAll (h : ∀ rid call, c.get rid = some call → P rid (f call)) :
    (c.mapAll f).All P := by
  intro rid call' hget
  rw [get_mapAll] at hget
  obtain ⟨call, hcall, rfl⟩ := Option.map_eq_some_iff.1 hget
  exact h rid call hcall

theorem All.imp {Q : ℕ → Call ρ φ → Prop} (h : c.All P)
    (hPQ : ∀ rid call, P rid call → Q rid call) : c.All Q :=
  fun rid call hget => hPQ rid call (h rid call hget)

theorem Numbered.issue (h : c.Numbered) : (c.issue call).Numbered := by
  intro rid hget
  rw [get_issue] at hget
  change rid ≤ c.lastId + 1
  split_ifs at hget with hrid
  · omega
  · exact Nat.le_succ_of_le (h rid hget)

theorem Numbered.modify (h : c.Numbered) : (c.modify rid f).Numbered := by
  intro rid' hget
  rw [get_modify] at hget
  split_ifs at hget with hrid
  · exact h rid' fun hnone => hget (by rw [← hrid, hnone]; rfl)
  · exact h rid' hget

theorem Numbered.mapAll (h : c.Numbered) : (c.mapAll f).Numbered := by
  intro rid hget
  rw [get_mapAll] at hget
  exact h rid fun hnone => hget (by rw [hnone]; rfl)

@[refl] theorem Extends.refl (c : Calls ρ φ) : c.Extends c := fun _ _ h => h

theorem Extends.trans {c' c'' : Calls ρ φ} (h : c.Extends c') (h' : c'.Extends c'') :
    c.Extends c'' :=
  fun rid x hx => h' rid x (h rid x hx)

theorem Extends.issue (h : c.Numbered) : c.Extends (c.issue call) := by
  intro rid x hx
  obtain ⟨call', hget, -⟩ := Option.bind_eq_some_iff.1 hx
  have hle := h rid (by rw [hget]; simp)
  rw [outcome, get_issue, if_neg (by omega)]
  exact hx

theorem Extends.modify (hf : ∀ call x, call.outcome = some x → (f call).outcome = some x) :
    c.Extends (c.modify rid f) := by
  intro rid' x hx
  obtain ⟨call, hget, hcall⟩ := Option.bind_eq_some_iff.1 hx
  rw [outcome, get_modify]
  split_ifs with hrid
  · rw [← hrid, hget]
    exact hf call x hcall
  · exact hx

theorem Extends.mapAll (hf : ∀ call x, call.outcome = some x → (f call).outcome = some x) :
    c.Extends (c.mapAll f) := by
  intro rid x hx
  obtain ⟨call, hget, hcall⟩ := Option.bind_eq_some_iff.1 hx
  rw [outcome, get_mapAll, hget]
  exact hf call x hcall

/-- A call that is gone leaves the others. -/
theorem modify_of_none (h : c.get rid = none) : c.modify rid f = c := by
  rw [Calls.modify, Table.update, show c.table.lookup rid = none from h]

end Calls

namespace Call

variable {call : Call ρ φ} {x : Except φ ρ} {e : φ}

theorem outcome_settle (h : call.outcome = none) : (call.settle x).outcome = some x := by
  rw [settle, h]
  rfl

theorem outcome_fail : (call.fail e).outcome = call.outcome := by
  rw [fail]
  split_ifs <;> rfl

theorem registered_fail : (call.fail e).registered = false := by
  rw [fail]
  split_ifs with h
  · rfl
  · exact Bool.eq_false_iff.2 h

theorem future_fail : (call.fail e).future =
    if call.registered then call.future.or (some (.error e)) else call.future := by
  rw [fail]
  split_ifs <;> rfl

end Call

/-! ### Payloads -/

/-- A value that has been read from JSON text. -/
inductive Json
  /-- `None` -/
  | null
  /-- `True`, `False` -/
  | bool (b : Bool)
  | int (n : ℤ)
  /-- Another number; `some n`: it is the whole number `n`. -/
  | float (whole : Option ℤ)
  | str (s : String)
  | list (xs : List Json)
  | dict (fields : List (String × Json))

/-- The fields of a dictionary. -/
abbrev Fields := List (String × Json)

/-- What a value is, as the key of a dictionary whose keys are numbers. -/
inductive Key
  /-- The value has no hash. -/
  | unhashable
  | other
  /-- It equals the number; `True` equals one, and `False` zero. -/
  | number (n : ℤ)
  deriving DecidableEq

/-- The key that a value is. -/
def Json.key : Json → Key
  | null => .other
  | bool b => .number (if b then 1 else 0)
  | int n => .number n
  | float (some n) => .number n
  | float none => .other
  | str _ => .other
  | list _ => .unhashable
  | dict _ => .unhashable

/-- `msg.get("id")`, where it is not `None`. -/
def messageId (msg : Fields) : Option Json :=
  (msg.lookup "id").filter fun v => match v with
    | .null => false
    | _ => true

/-- The message has a result, or an error. -/
def isReply (msg : Fields) : Bool := (msg.lookup "result").isSome || (msg.lookup "error").isSome

end Backplane.Mcp
