import Backplane.Concur.Trace
import Backplane.Data.HashChain
import Backplane.Data.Table
import Backplane.Protocol.Types
import Mathlib.Data.List.Sort

/-!
# The audit log

Requests append to the audit log inside their transactions.  Each append takes an advisory lock that
is held to the end of the transaction, reads the hash of the last event and inserts the next one.

* `AuditDb` : the committed rows, those of the open transactions, the lock and the sequence.
* `AuditAct`, `AuditAct.exec` : the statements; `appendAuditEvent`, `auditedRequest` : the programs.
* `auditing` : the machine, whose runs are the interleavings of any number of transactions.
* `AuditInv` : what a transaction sees is a chain, and only the holder of the lock has rows.
* `audit_chained` : the committed log is one chain.
-/

namespace Backplane

open Concur Prog

/-! ### Events -/

/-- What is logged. -/
structure AuditEvent where
  actorKind : String
  actorId : Option String := none
  event : String
  targetKind : Option String := none
  targetId : Option String := none
  payload : Json := []
  deriving DecidableEq

/-- What is hashed. -/
structure AuditBody extends AuditEvent where
  ts : ℕ
  /-- Hash of the event before it; empty for the first. -/
  prevHash : String
  deriving DecidableEq

/-- The columns of an insertion. -/
structure AuditRecord extends AuditEvent where
  ts : ℕ
  prevHash : Option String
  selfHash : String
  deriving DecidableEq

/-- A row of `audit_log`. -/
structure AuditRow extends AuditRecord where
  /-- `bigserial` -/
  seq : ℕ
  deriving DecidableEq

/-- What was hashed for a row. -/
def AuditRecord.body (r : AuditRecord) : AuditBody := ⟨r.toAuditEvent, r.ts, r.prevHash.getD ""⟩

/-- The encoder and the hash function. -/
structure AuditHash where
  /-- Bytes of a payload as JSON. -/
  encodedSize : Json → ℕ
  /-- Hex SHA-256 of a body as JSON. -/
  digest : AuditBody → String
  digest_ne : ∀ b, digest b ≠ ""

/-- `_AUDIT_PAYLOAD_MAX_BYTES` -/
def auditPayloadMaxBytes : ℕ := 8 * 1024

/-- `_maybe_truncate_audit_payload` -/
def AuditHash.storedPayload (H : AuditHash) (payload : Json) : Json :=
  if payload = [] ∨ H.encodedSize payload ≤ auditPayloadMaxBytes then payload
  else [("__bp_audit_truncated__", "true"),
    ("original_size_bytes", toString (H.encodedSize payload)),
    ("max_bytes", toString auditPayloadMaxBytes)]

/-! ### The database -/

/-- An open transaction. -/
structure AuditTx where
  rows : List AuditRow := []
  /-- At its savepoint: how many rows it had, and whether it held the lock. -/
  savepoint : Option (ℕ × Bool) := none

/-- The table, the transactions that write to it, the lock and the sequence. -/
structure AuditDb where
  rows : List AuditRow := []
  /-- The open transactions. -/
  active : Table ℕ AuditTx := ∅
  /-- Which transaction holds `_AUDIT_LOCK_KEY`. -/
  lock : Option ℕ := none
  /-- Last value of the sequence; a rollback does not give values back. -/
  lastSeq : ℕ := 0
  /-- How many transactions have begun. -/
  begun : ℕ := 0

/-- What a step learns from outside. -/
structure AuditEnv where
  fault : Bool := false
  now : ℕ := 0
  /-- Sequence values that are lost. -/
  skipped : ℕ := 0

namespace AuditDb

variable (s : AuditDb) (t : ℕ)

/-- The uncommitted rows of a transaction. -/
def pending : List AuditRow := ((s.active.lookup t).map AuditTx.rows).getD []

/-- The rows a statement of a transaction sees. -/
def visible : List AuditRow := s.rows ++ s.pending t

/-- The log in the order of `seq`. -/
def ordered : List AuditRow := s.rows.insertionSort fun r r' => r.seq ≤ r'.seq

/-- Release the lock, if the transaction holds it. -/
def unlocked : Option ℕ := if s.lock = some t then none else s.lock

/-- `ROLLBACK TO`: the rows since the savepoint are dropped, and a lock acquired since is released. -/
def rolledBackTo : AuditDb :=
  match (s.active.lookup t).bind AuditTx.savepoint with
  | none => s
  | some (n, held) => { s with
      active := s.active.update t fun x => ⟨x.rows.take n, none⟩
      lock := if held then s.lock else s.unlocked t }

/-- `COMMIT` -/
def committed : AuditDb :=
  { s with rows := s.visible t, active := s.active.erase t, lock := s.unlocked t }

/-- `ROLLBACK` -/
def rolledBack : AuditDb := { s with active := s.active.erase t, lock := s.unlocked t }

/-- Insert a row with the next value of the sequence. -/
def insertRow (skipped : ℕ) (r : AuditRecord) : AuditDb :=
  let seq := s.lastSeq + skipped + 1
  { s with
    active := s.active.update t fun x => { x with rows := x.rows ++ [⟨r, seq⟩] }
    lastSeq := seq }

end AuditDb

/-- The statements, by the type of their answer; `false` and `none`: it raised. -/
inductive AuditAct : Type → Type 1
  | begin : AuditAct ℕ
  | savepoint (t : ℕ) : AuditAct Unit
  /-- `pg_advisory_xact_lock` -/
  | advisoryLock (t : ℕ) : AuditAct Bool
  /-- `self_hash` of the row with the greatest `seq`. -/
  | lastHash (t : ℕ) : AuditAct (Option (Option String))
  /-- `_now()` -/
  | now : AuditAct ℕ
  /-- `INSERT INTO audit_log` -/
  | insert (t : ℕ) (r : AuditRecord) : AuditAct Bool
  | release (t : ℕ) : AuditAct Unit
  | rollbackTo (t : ℕ) : AuditAct Unit
  | statement : AuditAct Bool
  /-- `COMMIT`; a transaction that cannot be committed is rolled back. -/
  | commit (t : ℕ) : AuditAct Bool
  | rollback (t : ℕ) : AuditAct Unit

/-- What a statement does; `none` while it waits for the lock. -/
def AuditAct.exec : {β : Type} → AuditAct β → AuditEnv → AuditDb → Option (AuditDb × β)
  | _, begin, _, s =>
    some ({ s with active := s.active.insert s.begun {}, begun := s.begun + 1 }, s.begun)
  | _, savepoint t, _, s =>
    some ({ s with active := s.active.update t fun x =>
      { x with savepoint := some (x.rows.length, s.lock = some t) } }, ())
  | _, advisoryLock t, e, s =>
    if e.fault then some (s, false)
    else if s.lock = none ∨ s.lock = some t then some ({ s with lock := some t }, true)
    else none
  | _, lastHash t, e, s =>
    some (s, if e.fault then none else some (((s.visible t).argmax AuditRow.seq).map fun r => r.selfHash))
  | _, now, e, s => some (s, e.now)
  | _, insert t r, e, s =>
    if e.fault then some ({ s with lastSeq := s.lastSeq + e.skipped }, false)
    else some (s.insertRow t e.skipped r, true)
  | _, release t, _, s =>
    some ({ s with active := s.active.update t fun x => { x with savepoint := none } }, ())
  | _, rollbackTo t, _, s => some (s.rolledBackTo t, ())
  | _, statement, e, s => some (s, !e.fault)
  | _, commit t, e, s => if e.fault then some (s.rolledBack t, false) else some (s.committed t, true)
  | _, rollback t, _, s => some (s.rolledBack t, ())

/-- A program of statements. -/
abbrev AuditProg := Prog AuditAct

section

variable (H : AuditHash)

/-- `async with conn.transaction()` inside a transaction; whether `p` did not raise. -/
def nested (t : ℕ) (p : AuditProg Bool) : AuditProg Bool := do
  perform (.savepoint t)
  if ← p then
    perform (.release t)
    pure true
  else
    perform (.rollbackTo t)
    pure false

/-- The row of an event, given the hash of the one before. -/
def AuditHash.record (ev : AuditEvent) (now : ℕ) (prev : Option String) : AuditRecord :=
  let ev := { ev with payload := H.storedPayload ev.payload }
  let prevHash := prev.getD ""
  ⟨ev, now, if prevHash = "" then none else some prevHash, H.digest ⟨ev, now, prevHash⟩⟩

/-- The statements of an append. -/
def chainAppend (t : ℕ) (ev : AuditEvent) : AuditProg Bool := do
  if ← perform (.advisoryLock t) then
    match ← perform (.lastHash t) with
    | none => pure false
    | some prev =>
      let now ← perform .now
      perform (.insert t (H.record ev now prev))
  else pure false

/-- `append_audit_event` -/
def appendAuditEvent (t : ℕ) (ev : AuditEvent) : AuditProg Bool := nested t (chainAppend H t ev)

/-- Statements of a request and the events it appends; whether it handles the exception of an append
itself. -/
def auditedStatements (t : ℕ) : List (AuditEvent × Bool) → AuditProg Bool
  | [] => perform .statement
  | (ev, handled) :: evs => do
    if ← perform .statement then
      if ← appendAuditEvent H t ev then auditedStatements t evs
      else if handled then auditedStatements t evs
      else pure false
    else pure false

/-- A transaction that appends these events. -/
def auditedRequest (evs : List (AuditEvent × Bool)) : AuditProg Bool := do
  let t ← perform .begin
  if ← auditedStatements H t evs then perform (.commit t)
  else
    perform (.rollback t)
    pure false

/-- The transactions that append to the log. -/
def auditing : Machine AuditAct AuditEnv AuditDb (List (AuditEvent × Bool)) Bool where
  exec := AuditAct.exec
  body := auditedRequest H

end

/-! ### The property -/

/-- How the rows are chained. -/
def auditChain : HashChain AuditRow String := ⟨fun r => r.prevHash, fun r => r.selfHash⟩

/-- The committed log in the order of `seq` is one chain. -/
structure AuditChained (H : AuditHash) (s : AuditDb) : Prop where
  /-- No two events have the same place. -/
  strict : s.ordered.Pairwise fun r r' => r.seq < r'.seq
  /-- Each event names the hash of the one before it, and the first names none. -/
  linear : auditChain.Linear s.ordered
  /-- The hash of an event is that of its body. -/
  hashed : ∀ r ∈ s.ordered, r.selfHash = H.digest r.body
  /-- No two events have the same predecessor, if the digest does not collide on them. -/
  sole : (∀ r ∈ s.ordered, ∀ r' ∈ s.ordered, H.digest r.body = H.digest r'.body → r.body = r'.body) →
    ∀ (i j : ℕ) r r', s.ordered[i]? = some r → s.ordered[j]? = some r' → r.prevHash = r'.prevHash →
      i = j

/-! ### What a transaction sees -/

/-- A log in order and chained, with no place above `n`. -/
structure WellChained (H : AuditHash) (n : ℕ) (l : List AuditRow) : Prop where
  strict : l.Pairwise fun r r' => r.seq < r'.seq
  /-- The sequence has passed every place. -/
  bound : ∀ r ∈ l, r.seq ≤ n
  linear : auditChain.Linear l
  /-- The hashes are right. -/
  hashed : ∀ r ∈ l, r.selfHash = H.digest r.body

section

variable {H : AuditHash} {n m : ℕ} {l l' : List AuditRow} {s s' : AuditDb} {t t' : ℕ}

namespace WellChained

theorem nil : WellChained H n [] := ⟨.nil, by simp, HashChain.linear_nil, by simp⟩

theorem mono (h : WellChained H n l) (hnm : n ≤ m) : WellChained H m l :=
  ⟨h.strict, fun r hr => (h.bound r hr).trans hnm, h.linear, h.hashed⟩

theorem of_append (h : WellChained H n (l ++ l')) : WellChained H n l where
  strict := (List.pairwise_append.1 h.strict).1
  bound r hr := h.bound r (List.mem_append_left _ hr)
  linear := h.linear.of_append
  hashed r hr := h.hashed r (List.mem_append_left _ hr)

/-- The row with the greatest place is the last. -/
theorem argmax (h : WellChained H n l) : l.argmax AuditRow.seq = l.getLast? := by
  rcases List.eq_nil_or_concat' l with rfl | ⟨l, r, rfl⟩
  · rfl
  · rw [argmax_concat_of_lt, List.getLast?_concat]
    intro x hx
    exact (List.pairwise_append.1 h.strict).2.2 x hx r (by simp)

theorem selfHash_ne (h : WellChained H n l) {r : AuditRow} (hr : r ∈ l) : r.selfHash ≠ "" := by
  rw [h.hashed r hr]
  exact H.digest_ne _

/-- **The next event continues the chain.** -/
theorem concat (h : WellChained H n l) {ev : AuditEvent} {now : ℕ} (hnm : n < m) :
    WellChained H m (l ++ [⟨H.record ev now (l.getLast?.map fun r => r.selfHash), m⟩]) := by
  have hprev : (H.record ev now (l.getLast?.map fun r => r.selfHash)).prevHash =
      l.getLast?.map fun r => r.selfHash := by
    cases hl : l.getLast? with
    | none => rfl
    | some r => simp [AuditHash.record, h.selfHash_ne (List.mem_of_getLast? hl)]
  constructor
  · refine List.pairwise_append.2 ⟨h.strict, List.pairwise_singleton _ _, ?_⟩
    intro x hx y hy
    obtain rfl := List.mem_singleton.1 hy
    have := h.bound x hx
    show x.seq < m
    omega
  · intro r hr
    rcases List.mem_append.1 hr with hr | hr
    · exact (h.bound r hr).trans hnm.le
    · rw [List.mem_singleton.1 hr]
  · exact HashChain.linear_concat.2 ⟨h.linear, hprev⟩
  · intro r hr
    rcases List.mem_append.1 hr with hr | hr
    · exact h.hashed r hr
    · obtain rfl := List.mem_singleton.1 hr
      show H.digest _ = H.digest (AuditRecord.body _)
      simp only [AuditRecord.body, hprev]
      rfl

end WellChained

/-! ### The invariant -/

/-- Each transaction sees a chain, and only the holder of the lock has rows. -/
structure AuditInv (H : AuditHash) (s : AuditDb) : Prop where
  /-- What a transaction sees is a chain. -/
  chained : ∀ t, WellChained H s.lastSeq (s.visible t)
  /-- A transaction without the lock has no rows. -/
  quiet : ∀ t, s.lock ≠ some t → s.pending t = []
  /-- Nor had it at its savepoint, if it did not hold the lock then. -/
  savepoint : ∀ t x n, s.active.lookup t = some x → x.savepoint = some (n, false) → n = 0

/-- What a statement of one transaction does to the others: nothing. -/
structure AuditStep (t : ℕ) (s s' : AuditDb) : Prop where
  /-- A commit makes visible what the transaction saw. -/
  rows : s'.rows = s.rows ∨ s'.rows = s.visible t
  /-- The other transactions are as they were. -/
  other : ∀ t' ≠ t, s'.active.lookup t' = s.active.lookup t'
  /-- The lock is not taken from the others. -/
  lock : ∀ t' ≠ t, s.lock = some t' → s'.lock = some t'

theorem AuditStep.pending (h : AuditStep t s s') (ht : t' ≠ t) : s'.pending t' = s.pending t' := by
  rw [AuditDb.pending, h.other t' ht, AuditDb.pending]

theorem AuditDb.unlocked_ne (ht : t' ≠ t) (hl : s.lock = some t') : s.unlocked t = some t' := by
  rw [unlocked, hl, if_neg (by simpa using ht)]

namespace AuditStep

theorem refl : AuditStep t s s := ⟨.inl rfl, fun _ _ => rfl, fun _ _ => id⟩

theorem begin :
    AuditStep s.begun s { s with active := s.active.insert s.begun {}, begun := s.begun + 1 } :=
  ⟨.inl rfl, fun _ ht => AList.lookup_insert_ne ht, fun _ _ => id⟩

theorem update {f : AuditTx → AuditTx} : AuditStep t s { s with active := s.active.update t f } :=
  ⟨.inl rfl, fun t' ht => (Table.lookup_update s.active t t' f).trans (if_neg ht), fun _ _ => id⟩

theorem insertRow {r : AuditRecord} : AuditStep t s (s.insertRow t n r) :=
  ⟨.inl rfl, fun t' ht => (Table.lookup_update s.active t t' _).trans (if_neg ht), fun _ _ => id⟩

theorem acquire (hl : s.lock = none ∨ s.lock = some t) : AuditStep t s { s with lock := some t } := by
  refine ⟨.inl rfl, fun _ _ => rfl, fun t' ht h => ?_⟩
  rcases hl with hl | hl
  · exact absurd (hl.symm.trans h) (by simp)
  · exact absurd (Option.some.inj (h.symm.trans hl)) ht

theorem close {rows : List AuditRow} (hr : rows = s.rows ∨ rows = s.visible t) :
    AuditStep t s { s with rows := rows, active := s.active.erase t, lock := s.unlocked t } :=
  ⟨hr, fun _ ht => AList.lookup_erase_ne ht, fun _ ht hl => AuditDb.unlocked_ne ht hl⟩

theorem rolledBackTo : AuditStep t s (s.rolledBackTo t) := by
  rw [AuditDb.rolledBackTo]
  split
  · exact refl
  · rename_i held _
    refine ⟨.inl rfl, fun t' ht => (Table.lookup_update s.active t t' _).trans (if_neg ht), ?_⟩
    intro t' ht hl
    cases held with
    | true => exact hl
    | false => exact AuditDb.unlocked_ne ht hl

end AuditStep

/-- What the holder of the lock sees does not change while others move. -/
theorem AuditStep.visible (h : AuditStep t s s') (hs : AuditInv H s) (ht : t' ≠ t)
    (hl : s.lock = some t') : s'.visible t' = s.visible t' := by
  have hempty : s.pending t = [] := hs.quiet t (by simp [hl, ht])
  have hrows : s'.rows = s.rows := by
    rcases h.rows with hr | hr
    · exact hr
    · rw [hr, AuditDb.visible, hempty, List.append_nil]
  rw [AuditDb.visible, hrows, h.pending ht, AuditDb.visible]

/-- A statement keeps the invariant if it does so for its own transaction. -/
theorem AuditInv.of_step (hs : AuditInv H s) (h : AuditStep t s s') (hseq : s.lastSeq ≤ s'.lastSeq)
    (hchain : WellChained H s'.lastSeq (s'.visible t))
    (hquiet : s'.lock ≠ some t → s'.pending t = [])
    (hsave : ∀ x n, s'.active.lookup t = some x → x.savepoint = some (n, false) → n = 0) :
    AuditInv H s' := by
  refine ⟨fun t' => ?_, fun t' hl => ?_, fun t' x n hx hn => ?_⟩
  · by_cases ht : t' = t
    · exact ht ▸ hchain
    by_cases hl : s.lock = some t'
    · rw [h.visible hs ht hl]
      exact (hs.chained t').mono hseq
    · -- without the lock it sees what is committed
      have hempty : s'.pending t' = [] := by rw [h.pending ht, hs.quiet t' hl]
      rw [AuditDb.visible, hempty, List.append_nil]
      exact hchain.of_append
  · by_cases ht : t' = t
    · subst ht
      exact hquiet hl
    · rw [h.pending ht]
      exact hs.quiet t' fun hl' => hl (h.lock t' ht hl')
  · by_cases ht : t' = t
    · subst ht
      exact hsave x n hx hn
    · rw [h.other t' ht] at hx
      exact hs.savepoint t' x n hx hn

/-! ### Statements keep it -/

namespace AuditInv

theorem begin (hs : AuditInv H s) :
    AuditInv H { s with active := s.active.insert s.begun {}, begun := s.begun + 1 } := by
  have hpending : AuditDb.pending { s with
      active := s.active.insert s.begun {}, begun := s.begun + 1 } s.begun = [] := by
    simp [AuditDb.pending]
  refine hs.of_step .begin le_rfl ?_ ?_ ?_
  · rw [AuditDb.visible, hpending, List.append_nil]
    exact (hs.chained s.begun).of_append
  · exact fun _ => hpending
  · intro x n hx hn
    rw [AList.lookup_insert] at hx
    obtain rfl := Option.some.inj hx
    exact absurd hn (by simp)

/-- The transaction's bookkeeping changes and its rows do not. -/
theorem update (hs : AuditInv H s) {f : AuditTx → AuditTx} (hf : ∀ x, (f x).rows = x.rows)
    (hsave : ∀ x n, s.active.lookup t = some x → (f x).savepoint = some (n, false) → n = 0) :
    AuditInv H { s with active := s.active.update t f } := by
  have hpending : AuditDb.pending { s with active := s.active.update t f } t = s.pending t := by
    simp [AuditDb.pending, Table.lookup_update, Function.comp_def, hf]
  refine hs.of_step (t := t) .update le_rfl ?_ ?_ ?_
  · rw [AuditDb.visible, hpending]
    exact hs.chained t
  · rw [hpending]
    exact hs.quiet t
  · intro x n hx hn
    rw [Table.lookup_update, if_pos rfl] at hx
    obtain ⟨y, hy, rfl⟩ := Option.map_eq_some_iff.1 hx
    exact hsave y n hy hn

theorem lock (hs : AuditInv H s) (hl : s.lock = none ∨ s.lock = some t) :
    AuditInv H { s with lock := some t } :=
  hs.of_step (.acquire hl) le_rfl (hs.chained t) (fun h => absurd rfl h) (hs.savepoint t)

theorem lastSeq (hs : AuditInv H s) : AuditInv H { s with lastSeq := s.lastSeq + n } :=
  ⟨fun t => (hs.chained t).mono (Nat.le_add_right _ _), hs.quiet, hs.savepoint⟩

theorem insertRow (hs : AuditInv H s) (hl : s.lock = some t) {r : AuditRecord} {ev : AuditEvent}
    {now : ℕ} (hr : r = H.record ev now ((s.visible t).getLast?.map fun r => r.selfHash)) :
    AuditInv H (s.insertRow t n r) := by
  have hseq : s.lastSeq < s.lastSeq + n + 1 := by omega
  refine hs.of_step .insertRow hseq.le ?_ ?_ ?_
  · cases hx : s.active.lookup t with
    | none =>
      have hpending : (s.insertRow t n r).pending t = [] := by
        simp [AuditDb.pending, AuditDb.insertRow, Table.lookup_update, hx]
      rw [AuditDb.visible, hpending, List.append_nil]
      exact (hs.chained t).of_append.mono hseq.le
    | some x =>
      have hvisible : (s.insertRow t n r).visible t =
          s.visible t ++ [⟨r, s.lastSeq + n + 1⟩] := by
        simp [AuditDb.visible, AuditDb.pending, AuditDb.insertRow, Table.lookup_update, hx]
      rw [hvisible, hr]
      exact (hs.chained t).concat hseq
  · exact fun h => absurd hl h
  · intro x m hx hm
    rw [AuditDb.insertRow, Table.lookup_update, if_pos rfl] at hx
    obtain ⟨y, hy, rfl⟩ := Option.map_eq_some_iff.1 hx
    exact hs.savepoint t y m hy hm

/-- The transaction is over, and the committed rows are what it saw or what they were. -/
theorem close (hs : AuditInv H s) {rows : List AuditRow}
    (hr : rows = s.rows ∨ rows = s.visible t) :
    AuditInv H { s with rows := rows, active := s.active.erase t, lock := s.unlocked t } := by
  have hpending : AuditDb.pending { s with
      rows := rows, active := s.active.erase t, lock := s.unlocked t } t = [] := by
    simp [AuditDb.pending]
  refine hs.of_step (.close hr) le_rfl ?_ (fun _ => hpending) ?_
  · rw [AuditDb.visible, hpending, List.append_nil]
    rcases hr with rfl | rfl
    · exact (hs.chained t).of_append
    · exact hs.chained t
  · intro x n hx
    rw [AList.lookup_erase] at hx
    exact absurd hx (by simp)

theorem rolledBackTo (hs : AuditInv H s) : AuditInv H (s.rolledBackTo t) := by
  have hstep : AuditStep t s (s.rolledBackTo t) := .rolledBackTo
  rw [AuditDb.rolledBackTo] at hstep ⊢
  cases hx : s.active.lookup t with
  | none => exact hs
  | some x =>
    obtain ⟨rows, none | ⟨k, held⟩⟩ := x
    · exact hs
    have htake : rows.take k ++ rows.drop k = rows := List.take_append_drop k rows
    rw [hx] at hstep
    dsimp only [Option.bind_some] at hstep ⊢
    refine hs.of_step hstep le_rfl ?_ ?_ ?_
    · have hvisible : s.visible t = s.rows ++ rows.take k ++ rows.drop k := by
        rw [List.append_assoc, htake, AuditDb.visible, AuditDb.pending, hx]
        rfl
      have hc := hs.chained t
      rw [hvisible] at hc
      simpa [AuditDb.visible, AuditDb.pending, Table.lookup_update, hx] using hc.of_append
    · intro hl
      cases held with
      | true =>
        have hempty := hs.quiet t hl
        rw [AuditDb.pending, hx] at hempty
        obtain rfl : rows = [] := hempty
        simp [AuditDb.pending, Table.lookup_update, hx]
      | false =>
        -- the lock was acquired after the savepoint, so there were no rows then
        obtain rfl := hs.savepoint t _ k hx rfl
        simp [AuditDb.pending, Table.lookup_update, hx]
    · intro x n hx' hn
      rw [Table.lookup_update, if_pos rfl] at hx'
      obtain ⟨y, -, rfl⟩ := Option.map_eq_some_iff.1 hx'
      exact absurd hn (by simp)

end AuditInv

/-! ### What a request knows -/

/-- How far a request has got. -/
inductive AuditPhase
  | fresh
  /-- Inside its transaction. -/
  | idle (t : ℕ)
  | locked (t : ℕ)
  /-- It holds the lock and has read this hash. -/
  | ready (t : ℕ) (prev : Option String)
  | ended

namespace AuditPhase

/-- The transaction it is in. -/
def tx : AuditPhase → Option ℕ
  | idle t | locked t | ready t _ => some t
  | _ => none

variable (H) in
/-- An event is inserted under the lock, after the hash of the last one was read. -/
def ok : {β : Type} → AuditPhase → AuditAct β → Prop
  | _, q, .begin => q = fresh
  | _, q, .savepoint t => q = idle t
  | _, q, .advisoryLock t => q = idle t
  | _, q, .lastHash t => q = locked t
  | _, q, .insert t r => ∃ ev now prev, q = ready t prev ∧ r = H.record ev now prev
  | _, q, .release t => q = idle t
  | _, q, .rollbackTo t => q = idle t
  | _, q, .commit t => q = idle t
  | _, q, .rollback t => q = idle t
  | _, _, .now => True
  | _, _, .statement => True

/-- The phase after an answer. -/
def next : {β : Type} → AuditPhase → AuditAct β → β → AuditPhase
  | _, _, .begin, t => idle t
  | _, _, .advisoryLock t, true => locked t
  | _, _, .lastHash t, some prev => ready t prev
  | _, _, .lastHash t, none => idle t
  | _, _, .insert t _, _ => idle t
  | _, _, .commit _, _ => ended
  | _, _, .rollback _, _ => ended
  | _, q, _, _ => q

end AuditPhase

variable (H) in
/-- The discipline of a request. -/
def auditWork : Discipline AuditAct AuditPhase := ⟨AuditPhase.ok H, fun _ _ => True, AuditPhase.next⟩

theorem auditWork_chainAppend (t : ℕ) (ev : AuditEvent) :
    (auditWork H).Obeys (.idle t) (chainAppend H t ev) fun q _ => q = .idle t := by
  refine Discipline.obeys_perform_bind.2 ⟨rfl, fun granted _ => ?_⟩
  cases granted with
  | false => rfl
  | true =>
    refine Discipline.obeys_perform_bind.2 ⟨rfl, fun prev _ => ?_⟩
    cases prev with
    | none => rfl
    | some prev =>
      refine Discipline.obeys_perform_bind.2 ⟨trivial, fun now _ => ?_⟩
      exact ⟨⟨ev, now, prev, rfl, rfl⟩, fun _ _ => rfl⟩

theorem auditWork_nested {p : AuditProg Bool}
    (hp : (auditWork H).Obeys (.idle t) p fun q _ => q = .idle t) :
    (auditWork H).Obeys (.idle t) (nested t p) fun q _ => q = .idle t := by
  refine Discipline.obeys_perform_bind.2 ⟨rfl, fun _ _ => Discipline.obeys_bind.2 ?_⟩
  refine Discipline.Obeys.mono hp fun q done hq => ?_
  subst hq
  cases done <;> exact ⟨rfl, fun _ _ => rfl⟩

theorem auditWork_statements (t : ℕ) (evs : List (AuditEvent × Bool)) :
    (auditWork H).Obeys (.idle t) (auditedStatements H t evs) fun q _ => q = .idle t := by
  induction evs with
  | nil => exact ⟨trivial, fun _ _ => rfl⟩
  | cons x evs ih =>
    obtain ⟨ev, handled⟩ := x
    refine Discipline.obeys_perform_bind.2 ⟨trivial, fun done _ => ?_⟩
    cases done with
    | false => rfl
    | true =>
      refine Discipline.obeys_bind.2 ?_
      refine (auditWork_nested (auditWork_chainAppend t ev)).mono fun q appended hq => ?_
      subst hq
      cases appended with
      | true => exact ih
      | false =>
        cases handled with
        | true => exact ih
        | false => rfl

/-- **A request reads the last hash under the lock and inserts at once.** -/
theorem auditWork_body (evs : List (AuditEvent × Bool)) :
    (auditWork H).Obeys .fresh ((auditing H).body evs) fun _ _ => True := by
  refine Discipline.obeys_perform_bind.2 ⟨rfl, fun t _ => Discipline.obeys_bind.2 ?_⟩
  refine (auditWork_statements t evs).mono fun q done hq => ?_
  subst hq
  cases done with
  | true => exact ⟨rfl, fun _ _ => trivial⟩
  | false => exact ⟨rfl, fun _ _ => trivial⟩

/-! ### Every run -/

/-- The request has begun this transaction. -/
abbrev Begun (log : Log AuditAct) (i t : ℕ) : Prop := (i, ⟨.begin, t⟩) ∈ log

/-- The invariant, and each transaction is one request's. -/
structure AuditRunInv (H : AuditHash) (s : AuditDb) (log : Log AuditAct) : Prop extends AuditInv H s where
  /-- Transactions are numbered. -/
  numbered : ∀ i t, Begun log i t → t < s.begun
  /-- A transaction is one request's. -/
  owner : ∀ i j t, Begun log i t → Begun log j t → i = j

/-- What a phase says. -/
structure AuditPhase.Holds (i : ℕ) (q : AuditPhase) (s : AuditDb) (log : Log AuditAct) : Prop where
  begun : ∀ t, q.tx = some t → Begun log i t
  lock : ∀ t, q = .locked t ∨ (∃ prev, q = .ready t prev) → s.lock = some t
  /-- What it read is the hash of the last event. -/
  read : ∀ t prev, q = .ready t prev → prev = (s.visible t).getLast?.map fun r => r.selfHash

/-- The transaction a statement belongs to; that of a statement outside is one nobody has begun. -/
def AuditAct.target : {β : Type} → AuditAct β → AuditDb → ℕ
  | _, .savepoint t, _ | _, .advisoryLock t, _ | _, .lastHash t, _ | _, .insert t _, _
  | _, .release t, _ | _, .rollbackTo t, _ | _, .commit t, _ | _, .rollback t, _ => t
  | _, _, s => s.begun

variable {β : Type} {a : AuditAct β} {e : AuditEnv} {b : β} {log : Log AuditAct} {i j : ℕ}
  {q q' : AuditPhase}

theorem AuditAct.exec_step (he : a.exec e s = some (s', b)) : AuditStep (a.target s) s s' := by
  cases a with
  | begin =>
    obtain ⟨rfl, rfl⟩ := Prod.mk.inj (Option.some.inj he)
    exact .begin
  | savepoint t | release t =>
    obtain ⟨rfl, -⟩ := Prod.mk.inj (Option.some.inj he)
    exact .update
  | advisoryLock t =>
    simp only [exec] at he
    split_ifs at he with hf hl
    · obtain ⟨rfl, -⟩ := Prod.mk.inj (Option.some.inj he)
      exact .refl
    · obtain ⟨rfl, -⟩ := Prod.mk.inj (Option.some.inj he)
      exact .acquire hl
  | lastHash t | now | statement =>
    obtain ⟨rfl, -⟩ := Prod.mk.inj (Option.some.inj he)
    exact .refl
  | insert t r =>
    simp only [exec] at he
    split_ifs at he
    · obtain ⟨rfl, -⟩ := Prod.mk.inj (Option.some.inj he)
      exact ⟨.inl rfl, fun _ _ => rfl, fun _ _ => id⟩
    · obtain ⟨rfl, -⟩ := Prod.mk.inj (Option.some.inj he)
      exact .insertRow
  | rollbackTo t =>
    obtain ⟨rfl, -⟩ := Prod.mk.inj (Option.some.inj he)
    exact .rolledBackTo
  | commit t =>
    simp only [exec] at he
    split_ifs at he
    · obtain ⟨rfl, -⟩ := Prod.mk.inj (Option.some.inj he)
      exact .close (.inl rfl)
    · obtain ⟨rfl, -⟩ := Prod.mk.inj (Option.some.inj he)
      exact .close (.inr rfl)
  | rollback t =>
    obtain ⟨rfl, -⟩ := Prod.mk.inj (Option.some.inj he)
    exact .close (.inl rfl)

theorem AuditPhase.target_of_ok (h : q.ok H a) : q.tx = some (a.target s) ∨ a.target s = s.begun := by
  cases a with
  | insert t r =>
    obtain ⟨ev, now, prev, rfl, -⟩ := h
    exact .inl rfl
  | begin | now | statement => exact .inr rfl
  | _ =>
    obtain rfl := h
    exact .inl rfl

/-- **A statement of a disciplined request keeps the invariant.** -/
theorem AuditInv.step (hs : AuditInv H s) (hq : q.Holds i s log) (hok : q.ok H a)
    (he : a.exec e s = some (s', b)) : AuditInv H s' := by
  cases a with
  | begin =>
    obtain ⟨rfl, -⟩ := Prod.mk.inj (Option.some.inj he)
    exact hs.begin
  | savepoint t =>
    obtain ⟨rfl, -⟩ := Prod.mk.inj (Option.some.inj he)
    refine hs.update (fun _ => rfl) fun x n hx hn => ?_
    obtain ⟨rfl, hheld⟩ := Prod.mk.inj (Option.some.inj hn)
    have hempty := hs.quiet t (by simpa using hheld)
    rw [AuditDb.pending, hx] at hempty
    exact List.length_eq_zero_iff.2 hempty
  | release t =>
    obtain ⟨rfl, -⟩ := Prod.mk.inj (Option.some.inj he)
    exact hs.update (fun _ => rfl) fun x n _ hn => absurd hn (by simp)
  | advisoryLock t =>
    simp only [AuditAct.exec] at he
    split_ifs at he with hf hl
    · obtain ⟨rfl, -⟩ := Prod.mk.inj (Option.some.inj he)
      exact hs
    · obtain ⟨rfl, -⟩ := Prod.mk.inj (Option.some.inj he)
      exact hs.lock hl
  | lastHash t | now | statement =>
    obtain ⟨rfl, -⟩ := Prod.mk.inj (Option.some.inj he)
    exact hs
  | insert t r =>
    obtain ⟨ev, now, prev, rfl, hr⟩ := hok
    simp only [AuditAct.exec] at he
    split_ifs at he
    · obtain ⟨rfl, -⟩ := Prod.mk.inj (Option.some.inj he)
      exact hs.lastSeq
    · obtain ⟨rfl, -⟩ := Prod.mk.inj (Option.some.inj he)
      rw [hq.read t prev rfl] at hr
      exact hs.insertRow (hq.lock t (.inr ⟨prev, rfl⟩)) hr
  | rollbackTo t =>
    obtain ⟨rfl, -⟩ := Prod.mk.inj (Option.some.inj he)
    exact hs.rolledBackTo
  | commit t =>
    simp only [AuditAct.exec] at he
    split_ifs at he
    · obtain ⟨rfl, -⟩ := Prod.mk.inj (Option.some.inj he)
      exact hs.close (.inl rfl)
    · obtain ⟨rfl, -⟩ := Prod.mk.inj (Option.some.inj he)
      exact hs.close (.inr rfl)
  | rollback t =>
    obtain ⟨rfl, -⟩ := Prod.mk.inj (Option.some.inj he)
    exact hs.close (.inl rfl)

/-- The transaction that an action begins. -/
def begins : Event AuditAct → Option ℕ
  | ⟨.begin, t⟩ => some t
  | _ => none

theorem begun_append {x : Event AuditAct} {k t : ℕ} :
    Begun (log ++ [(i, x)]) k t ↔ Begun log k t ∨ (k = i ∧ x = ⟨.begin, t⟩) := by
  simp [Begun, eq_comm]

theorem AuditDb.rolledBackTo_begun : (s.rolledBackTo t).begun = s.begun := by
  rw [rolledBackTo]
  split <;> rfl

/-- A transaction that begins has a new number. -/
theorem AuditAct.exec_begun (he : a.exec e s = some (s', b)) :
    ((⟨a, b⟩ : Event AuditAct) = ⟨.begin, s.begun⟩ ∧ s'.begun = s.begun + 1) ∨
      (∀ t, (⟨a, b⟩ : Event AuditAct) ≠ ⟨.begin, t⟩) ∧ s'.begun = s.begun := by
  cases a with
  | begin =>
    obtain ⟨rfl, rfl⟩ := Prod.mk.inj (Option.some.inj he)
    exact .inl ⟨rfl, rfl⟩
  | rollbackTo t =>
    obtain ⟨rfl, -⟩ := Prod.mk.inj (Option.some.inj he)
    exact .inr ⟨fun _ h => absurd (congrArg begins h) (by simp [begins]), AuditDb.rolledBackTo_begun⟩
  | advisoryLock t | insert t r | commit t =>
    refine .inr ⟨fun _ h => absurd (congrArg begins h) (by simp [begins]), ?_⟩
    simp only [exec] at he
    split_ifs at he <;> obtain ⟨rfl, -⟩ := Prod.mk.inj (Option.some.inj he) <;> rfl
  | _ =>
    obtain ⟨rfl, -⟩ := Prod.mk.inj (Option.some.inj he)
    exact .inr ⟨fun _ h => absurd (congrArg begins h) (by simp [begins]), rfl⟩

theorem AuditRunInv.step (hs : AuditRunInv H s log) (hq : q.Holds i s log) (hok : q.ok H a)
    (he : a.exec e s = some (s', b)) : AuditRunInv H s' (log ++ [(i, ⟨a, b⟩)]) := by
  refine ⟨hs.toAuditInv.step hq hok he, fun k t hk => ?_, fun k k' t hk hk' => ?_⟩
  · rw [begun_append] at hk
    rcases AuditAct.exec_begun he with ⟨hx, hb⟩ | ⟨hx, hb⟩
    · rcases hk with hk | ⟨-, hk⟩
      · have := hs.numbered k t hk
        omega
      · obtain rfl : s.begun = t := by simpa using hx.symm.trans hk
        omega
    · rw [hb]
      exact hs.numbered k t (hk.resolve_right fun h => hx t h.2)
  · rw [begun_append] at hk hk'
    rcases AuditAct.exec_begun he with ⟨hx, -⟩ | ⟨hx, -⟩
    · -- the new number is nobody's yet
      have hnew : ∀ k'', Begun log k'' t → (⟨a, b⟩ : Event AuditAct) ≠ ⟨.begin, t⟩ := by
        intro k'' hk'' hy
        obtain rfl : s.begun = t := by simpa using hx.symm.trans hy
        exact absurd (hs.numbered k'' _ hk'') (by omega)
      rcases hk with hk | ⟨rfl, hy⟩
      · rcases hk' with hk' | ⟨rfl, hy'⟩
        · exact hs.owner k k' t hk hk'
        · exact absurd hy' (hnew k hk)
      · rcases hk' with hk' | ⟨rfl, -⟩
        · exact absurd hy (hnew k' hk')
        · rfl
    · exact hs.owner k k' t (hk.resolve_right fun h => hx t h.2) (hk'.resolve_right fun h => hx t h.2)

theorem AuditPhase.Holds.frame (hs : AuditRunInv H s log) (hij : j ≠ i) (hq : q.Holds i s log)
    (hok : q.ok H a) (he : a.exec e s = some (s', b)) (hq' : q'.Holds j s log) :
    q'.Holds j s' (log ++ [(i, ⟨a, b⟩)]) := by
  have hstep := AuditAct.exec_step he
  -- the statement belongs to another transaction
  have hne : ∀ t, q'.tx = some t → t ≠ a.target s := by
    rintro t ht rfl
    have hj := hq'.begun _ ht
    rcases target_of_ok hok (s := s) with hi | hi
    · exact hij (hs.owner j i _ hj (hq.begun _ hi))
    · exact absurd (hs.numbered j _ hj) (by omega)
  refine ⟨fun t ht => begun_append.2 (.inl (hq'.begun t ht)), fun t ht => ?_, fun t prev ht => ?_⟩
  · have htx : q'.tx = some t := by
      rcases ht with rfl | ⟨prev, rfl⟩ <;> rfl
    exact hstep.lock t (hne t htx) (hq'.lock t ht)
  · have htx : q'.tx = some t := by rw [ht]; rfl
    rw [hstep.visible hs.toAuditInv (hne t htx) (hq'.lock t (.inr ⟨prev, ht⟩))]
    exact hq'.read t prev ht

/-- What a statement teaches is true. -/
theorem AuditPhase.Holds.step (hs : AuditRunInv H s log) (hq : q.Holds i s log) (hok : q.ok H a)
    (he : a.exec e s = some (s', b)) : (q.next a b).Holds i s' (log ++ [(i, ⟨a, b⟩)]) := by
  have hold : ∀ t, q.tx = some t → Begun (log ++ [(i, ⟨a, b⟩)]) i t :=
    fun t ht => begun_append.2 (.inl (hq.begun t ht))
  have idle : ∀ t, q.tx = some t → (AuditPhase.idle t).Holds i s' (log ++ [(i, ⟨a, b⟩)]) := by
    intro t ht
    refine ⟨?_, by simp, by simp⟩
    rintro _ ⟨⟩
    exact hold t ht
  have ended : AuditPhase.ended.Holds i s' (log ++ [(i, ⟨a, b⟩)]) :=
    ⟨fun _ h => absurd h (by simp [tx]), by simp, by simp⟩
  cases a with
  | begin =>
    obtain ⟨rfl, rfl⟩ := Prod.mk.inj (Option.some.inj he)
    refine ⟨?_, by simp [next], by simp [next]⟩
    rintro _ ⟨⟩
    exact begun_append.2 (.inr ⟨rfl, rfl⟩)
  | savepoint t | release t | rollbackTo t =>
    obtain rfl := hok
    exact idle t rfl
  | advisoryLock t =>
    obtain rfl := hok
    cases b with
    | false => exact idle t rfl
    | true =>
      have hl : s'.lock = some t := by
        simp only [AuditAct.exec] at he
        split_ifs at he
        · exact absurd (Prod.mk.inj (Option.some.inj he)).2 (by simp)
        · obtain ⟨rfl, -⟩ := Prod.mk.inj (Option.some.inj he)
          rfl
      refine ⟨?_, ?_, by simp [next]⟩
      · rintro _ ⟨⟩
        exact hold t rfl
      · rintro _ (⟨⟨⟩⟩ | ⟨_, ⟨⟩⟩)
        exact hl
  | lastHash t =>
    obtain rfl := hok
    cases b with
    | none => exact idle t rfl
    | some prev =>
      obtain ⟨rfl, hprev⟩ := Prod.mk.inj (Option.some.inj he)
      split_ifs at hprev
      refine ⟨?_, ?_, ?_⟩
      · rintro _ ⟨⟩
        exact hold t rfl
      · rintro _ (⟨⟨⟩⟩ | ⟨_, ⟨⟩⟩)
        exact hq.lock t (.inl rfl)
      · rintro _ _ ⟨⟩
        rw [← Option.some.inj hprev, (hs.chained t).argmax]
  | insert t r =>
    obtain ⟨ev, now, prev, rfl, -⟩ := hok
    exact idle t rfl
  | now | statement =>
    obtain ⟨rfl, -⟩ := Prod.mk.inj (Option.some.inj he)
    exact ⟨hold, hq.lock, hq.read⟩
  | commit t | rollback t => exact ended

theorem sound_auditing : Sound (auditing H) .free (auditWork H) (fun _ => .fresh) {}
    (AuditRunInv H) fun i _ q s log => q.Holds i s log where
  init := {
    chained := fun _ => .nil
    quiet := fun _ _ => rfl
    savepoint := fun _ _ _ hx => absurd hx (by simp)
    numbered := fun _ _ h => absurd h (by simp [Begun])
    owner := fun _ _ _ h => absurd h (by simp [Begun]) }
  start _ _ _ := ⟨fun _ h => absurd h (by simp [AuditPhase.tx]), by simp, by simp⟩
  step _ _ _ he hs hq hok := ⟨trivial, hs.step hq hok he, hq.step hs hok he⟩
  frame _ _ _ he hs hq hok _ _ _ hij hq' := .frame hs hij hq hok he hq'

theorem WellChained.sole (h : WellChained H n l)
    (hinj : ∀ r ∈ l, ∀ r' ∈ l, H.digest r.body = H.digest r'.body → r.body = r'.body) {i j : ℕ}
    {r r' : AuditRow} (hi : l[i]? = some r) (hj : l[j]? = some r') (hp : r.prevHash = r'.prevHash) :
    i = j := by
  -- what a row names is no empty hash, so its body tells it
  have hne : ∀ x ∈ l, x.prevHash ≠ some "" := by
    intro x hx hempty
    obtain ⟨k, hk⟩ := List.mem_iff_getElem?.1 hx
    cases k with
    | zero => exact absurd ((h.linear.prev_zero hk).symm.trans hempty) (by simp)
    | succ k =>
      obtain ⟨y, hy, hxy⟩ := h.linear.prev_succ hk
      exact h.selfHash_ne (List.mem_of_getElem? hy) (Option.some.inj (hxy.symm.trans hempty))
  refine h.linear.sole (fun x hx y hy hxy => ?_) hi hj hp
  have hbody : x.body = y.body := by
    refine hinj x hx y hy ?_
    rw [← h.hashed x hx, ← h.hashed y hy]
    exact hxy
  have hprev : x.prevHash.getD "" = y.prevHash.getD "" := congrArg AuditBody.prevHash hbody
  have hx' := hne x hx
  have hy' := hne y hy
  show x.prevHash = y.prevHash
  cases hpx : x.prevHash <;> cases hpy : y.prevHash <;> simp_all

theorem WellChained.auditChained (h : WellChained H n s.rows) : AuditChained H s := by
  have hsorted : s.ordered = s.rows :=
    List.Pairwise.insertionSort_eq (h.strict.imp fun hlt => le_of_lt hlt)
  constructor
  · rw [hsorted]
    exact h.strict
  · rw [hsorted]
    exact h.linear
  · rw [hsorted]
    exact h.hashed
  · rw [hsorted]
    exact fun hinj i j r r' hi hj hp => h.sole hinj hi hj hp

/-- **The committed audit log is one hash chain**, however the transactions that append to it
interleave and whichever of them are rolled back. -/
theorem audit_chained (H : AuditHash) {P : Pool AuditAct AuditDb (List (AuditEvent × Bool)) Bool}
    (h : Run (auditing H) .free (.init {}) P) : AuditChained H P.shared := by
  have hinv := (sound_auditing.of_run auditWork_body h).1
  exact ((hinv.chained P.shared.begun).of_append).auditChained

end

/-! ### Transactions to run -/

namespace Sample

/-- A digest that tells what it was made from. -/
def auditHash : AuditHash where
  encodedSize := List.length
  digest b := "sha:" ++ b.event ++ ":" ++ b.prevHash
  digest_ne b h := by
    have := congrArg String.length h
    simp [String.length_append] at this

/-- A request that logs this event. -/
def logged (event : String) : List (AuditEvent × Bool) := [({ actorKind := "user", event }, false)]

/-- Three requests; the second waits for the first to commit and is rolled back after its append. -/
def auditMoves : List (Move AuditEnv (List (AuditEvent × Bool))) :=
  [.start (logged "file.store"), .start (logged "file.delete"), .start (logged "auth.logout")] ++
    List.replicate 4 (.step 0 {}) ++ List.replicate 3 (.step 1 {}) ++
    List.replicate 6 (.step 0 { now := 1 }) ++ List.replicate 5 (.step 1 { now := 2 }) ++
    [.step 1 { fault := true }, .step 1 {}] ++ List.replicate 10 (.step 2 { now := 3 })

end Sample

/-- Two committed events with a gap between their places, and the second names the first. -/
theorem audit_chained_gap : ∃ P, Run (auditing Sample.auditHash) .free (.init {}) P ∧
    P.shared.ordered.map (fun r => (r.seq, r.prevHash)) =
      [(1, none), (3, some "sha:file.store:")] ∧
    AuditChained Sample.auditHash P.shared := by
  have hplay : (((auditing Sample.auditHash).run (fun _ _ _ _ _ => true) (.init {})
      Sample.auditMoves).map fun P => P.shared.ordered.map fun r => (r.seq, r.prevHash)) =
        some [(1, none), (3, some "sha:file.store:")] := by
    decide +kernel
  obtain ⟨P, hP, hrows⟩ := Option.map_eq_some_iff.1 hplay
  have hrun : Run (auditing Sample.auditHash) .free (.init {}) P :=
    Run.of_run (fun _ _ => trivial) (fun _ _ _ _ _ _ => trivial) hP
  exact ⟨P, hrun, hrows, audit_chained Sample.auditHash hrun⟩

end Backplane
