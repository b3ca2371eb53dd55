import Backplane.Data.Table

/-!
# Tables that transactions write

Read-committed transactions on one table.  A write is seen by its own transaction at once and by the
others once it is committed; until then it locks its row.

* `TxTable` : the committed rows and the writes of the open transactions.
* `TxTable.view` : what a statement of a transaction sees.
* `TxTable.write`, `TxTable.commit`, `TxTable.rollback` : the operations; a write waits for the lock.
* `TxTable.Settled` : a committed row that no open transaction has written.
-/

namespace Backplane

/-- The committed rows, and the writes of the open transactions in order; `none` deletes a row. -/
structure TxTable (K V : Type) where
  committed : Table K V := ∅
  /-- The writes that are not committed, each with its transaction. -/
  writes : List (ℕ × K × Option V) := []

namespace TxTable

variable {K V : Type} [DecidableEq K]

/-- Carry out a write. -/
def put (t : Table K V) (w : K × Option V) : Table K V :=
  match w.2 with
  | some v => t.insert w.1 v
  | none => t.erase w.1

/-- Carry out writes in order. -/
def replay (t : Table K V) (ws : List (K × Option V)) : Table K V := ws.foldl put t

section

variable (s : TxTable K V) (x : ℕ)

/-- What a statement of a transaction sees. -/
def view : Table K V :=
  replay s.committed ((s.writes.filter fun w => decide (w.1 = x)).map Prod.snd)

/-- Another transaction has written the row. -/
def locked (k : K) : Bool := s.writes.any fun w => decide (w.1 ≠ x) && decide (w.2.1 = k)

/-- Write a row; waits while another transaction has written it. -/
def write (k : K) (v : Option V) : Option (TxTable K V) :=
  if s.locked x k then none else some { s with writes := s.writes ++ [(x, k, v)] }

/-- `COMMIT` -/
def commit : TxTable K V := ⟨s.view x, s.writes.filter fun w => decide (w.1 ≠ x)⟩

/-- `ROLLBACK` -/
def rollback : TxTable K V := { s with writes := s.writes.filter fun w => decide (w.1 ≠ x) }

/-- A committed row that no open transaction has written. -/
structure Settled (k : K) (v : V) : Prop where
  committed : s.committed.lookup k = some v
  /-- No write on it is open. -/
  unwritten : ∀ w ∈ s.writes, w.2.1 ≠ k

end

variable {s s' : TxTable K V} {x : ℕ} {k k' : K} {v : V} {v' : Option V}

theorem lookup_put (t : Table K V) (w : K × Option V) (k : K) :
    AList.lookup k (put t w) = if k = w.1 then w.2 else AList.lookup k t := by
  obtain ⟨k', v | v⟩ := w
  · by_cases h : k = k'
    · subst h
      simp [put]
    · simp [put, h, AList.lookup_erase_ne h]
  · simp only [put]
    exact Table.lookup_insert t k' k v

/-- Writes on other rows change nothing here. -/
theorem lookup_replay {ws : List (K × Option V)} (t : Table K V) (h : ∀ w ∈ ws, w.1 ≠ k) :
    AList.lookup k (replay t ws) = AList.lookup k t := by
  induction ws generalizing t with
  | nil => rfl
  | cons w ws ih =>
    show AList.lookup k (replay (put t w) ws) = _
    rw [ih (put t w) fun w' hw' => h w' (List.mem_cons_of_mem _ hw'), lookup_put,
      if_neg (h w List.mem_cons_self).symm]

theorem Settled.view (h : s.Settled k v) (x : ℕ) : AList.lookup k (s.view x) = some v := by
  rw [TxTable.view, lookup_replay, h.committed]
  intro w hw
  obtain ⟨w', hw', rfl⟩ := List.mem_map.1 hw
  exact h.unwritten w' (List.mem_of_mem_filter hw')

theorem write_eq_some :
    s.write x k v' = some s' ↔ s.locked x k = false ∧
      s' = { s with writes := s.writes ++ [(x, k, v')] } := by
  unfold write
  cases s.locked x k <;> simp [eq_comm]

theorem Settled.write (h : s.Settled k v) (hw : s.write x k' v' = some s') (hk : k ≠ k') :
    s'.Settled k v := by
  obtain ⟨-, rfl⟩ := write_eq_some.1 hw
  refine ⟨h.committed, fun w hw => ?_⟩
  obtain hw | hw := List.mem_append.1 hw
  · exact h.unwritten w hw
  · obtain rfl := List.mem_singleton.1 hw
    exact hk.symm

theorem Settled.commit (h : s.Settled k v) (x : ℕ) : (s.commit x).Settled k v :=
  ⟨h.view x, fun w hw => h.unwritten w (List.mem_of_mem_filter hw)⟩

theorem Settled.rollback (h : s.Settled k v) (x : ℕ) : (s.rollback x).Settled k v :=
  ⟨h.committed, fun w hw => h.unwritten w (List.mem_of_mem_filter hw)⟩

end TxTable

end Backplane
