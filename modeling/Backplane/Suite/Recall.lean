import Backplane.Suite.Conversation
import Mathlib.Data.List.Infix

/-!
# Recalling tool exchanges

A turn leaves its tool calls and their results in the history, where they are not shown again; a
tool recalls them, a page at a time.  A page is read from the latest rows only: two for each
exchange up to its end, and a few more for rows that belong to no exchange.

* `exchanges rows` : the greedy pairing of calls and results.
* `page E skip limit` : the exchanges that are counted back from the newest one.
* `Conversation.recentToolExchanges` : the query.
* `recentToolExchanges_iff` : it returns the page if the rows that it reads hold the exchanges.
-/

namespace Backplane

/-! ### The query -/

/-- The greedy pairing: a call opens an exchange, and the next result closes it. -/
def pairUp : Option HistoryRow → List HistoryRow → List (HistoryRow × HistoryRow)
  | _, [] => []
  | pending, row :: rows =>
    match row.role, pending with
    | .toolCall, _ => pairUp (some row) rows
    | .toolResult, some call => (call, row) :: pairUp none rows
    | _, pending => pairUp pending rows

/-- The exchanges of a thread. -/
def exchanges (rows : List HistoryRow) : List (HistoryRow × HistoryRow) := pairUp none rows

namespace Conversation

variable (s : Conversation)

/-- The tool rows of a thread, in the order of their ids. -/
def toolRows (agentId : AgentId) : List HistoryRow :=
  (s.history.filter fun r => decide (r.agentId = agentId) &&
    (decide (r.role = .toolCall) || decide (r.role = .toolResult))).insertionSort
      fun r r' => r.id ≤ r'.id

/-- The last of the tool rows: ordered by `id DESC`, limited, and turned round. -/
def lastToolRows (agentId : AgentId) (fetchRows : ℕ) : List HistoryRow :=
  (s.toolRows agentId).drop ((s.toolRows agentId).length - fetchRows)

/-- `recent_tool_exchanges` -/
def recentToolExchanges (agentId : AgentId) (limit skip : ℤ) : List (HistoryRow × HistoryRow) :=
  if limit ≤ 0 then []
  else
    let limit := limit.toNat
    let skip := (max 0 skip).toNat
    let found := exchanges (s.lastToolRows agentId (2 * (skip + limit) + 4))
    let found := if skip ≠ 0 then found.take (found.length - skip) else found
    found.drop (found.length - limit)

end Conversation

/-! ### What is claimed -/

/-- The exchanges `skip + 1` to `skip + limit`, counted back from the newest one; the oldest comes
first. -/
def page {α : Type} (E : List α) (skip limit : ℕ) : List α :=
  ((E.reverse.drop skip).take limit).reverse

/-- The exchanges up to the end of the page are in the last `2 * (skip + limit) + 4` rows, or there
are none on it. -/
def WithinReach (rows : List HistoryRow) (limit skip : ℕ) : Prop :=
  (exchanges rows).length ≤ skip ∨ ∃ tail, tail <:+ rows ∧ tail.length ≤ 2 * (skip + limit) + 4 ∧
    min (exchanges rows).length (skip + limit) ≤ (exchanges tail).length

variable {rows head tail tail' : List HistoryRow} {pending : Option HistoryRow}
  {α : Type} {E E' : List α} {skip limit : ℕ}

/-! ### Pairing -/

theorem pairUp_call {row : HistoryRow} (h : row.role = .toolCall) :
    pairUp pending (row :: rows) = pairUp (some row) rows := by
  simp only [pairUp, h]

theorem pairUp_result {row call : HistoryRow} (h : row.role = .toolResult) :
    pairUp (some call) (row :: rows) = (call, row) :: pairUp none rows := by
  simp only [pairUp, h]

/-- A result that nothing waits for is passed, and so is what is neither call nor result. -/
theorem pairUp_pass {row : HistoryRow} (hcall : row.role ≠ .toolCall)
    (hresult : row.role = .toolResult → pending = none) :
    pairUp pending (row :: rows) = pairUp pending rows := by
  cases hrole : row.role with
  | toolCall => exact absurd hrole hcall
  | toolResult =>
    obtain rfl := hresult hrole
    simp only [pairUp, hrole]
  | user => simp only [pairUp, hrole]
  | assistant => simp only [pairUp, hrole]

theorem pairUp_append (pending : Option HistoryRow) (head tail : List HistoryRow) :
    ∃ pending', pairUp pending (head ++ tail) = pairUp pending head ++ pairUp pending' tail := by
  induction head generalizing pending with
  | nil => exact ⟨pending, rfl⟩
  | cons row head ih =>
    rw [List.cons_append]
    by_cases hcall : row.role = .toolCall
    · rw [pairUp_call hcall, pairUp_call hcall]
      exact ih _
    by_cases hpass : row.role = .toolResult → pending = none
    · rw [pairUp_pass hcall hpass, pairUp_pass hcall hpass]
      exact ih _
    · obtain ⟨hresult, hpending⟩ := Classical.not_imp.1 hpass
      obtain ⟨call, rfl⟩ := Option.ne_none_iff_exists'.1 hpending
      obtain ⟨pending', h⟩ := ih none
      rw [pairUp_result hresult, pairUp_result hresult, h]
      exact ⟨pending', rfl⟩

/-- A call that waits has the first result there is, and changes nothing else. -/
theorem pairUp_suffix (pending : Option HistoryRow) (tail : List HistoryRow) :
    exchanges tail <:+ pairUp pending tail := by
  rw [exchanges]
  cases pending with
  | none => exact List.suffix_rfl
  | some call =>
    induction tail with
    | nil => exact List.suffix_rfl
    | cons row tail ih =>
      by_cases hcall : row.role = .toolCall
      · rw [pairUp_call hcall, pairUp_call hcall]
      by_cases hresult : row.role = .toolResult
      · rw [pairUp_result hresult, pairUp_pass hcall fun _ => rfl]
        exact List.suffix_cons _ _
      · rw [pairUp_pass hcall fun _ => rfl, pairUp_pass hcall fun h => absurd h hresult]
        exact ih

/-- The exchanges of the last rows are the last exchanges. -/
theorem exchanges_suffix (h : tail <:+ rows) : exchanges tail <:+ exchanges rows := by
  obtain ⟨head, rfl⟩ := h
  obtain ⟨pending, hpair⟩ := pairUp_append none head tail
  have hrows : exchanges (head ++ tail) = exchanges head ++ pairUp pending tail := hpair
  rw [hrows]
  exact (pairUp_suffix pending tail).trans (List.suffix_append _ _)

/-! ### Pages -/

theorem length_page : (page E skip limit).length = min limit (E.length - skip) := by
  simp [page]

/-- The slices of the query are a page. -/
theorem drop_take_eq_page (E : List α) (skip limit : ℕ) :
    (E.take (E.length - skip)).drop ((E.take (E.length - skip)).length - limit) =
      page E skip limit := by
  rw [page, List.drop_reverse, List.take_reverse, List.reverse_reverse]

/-- The end of a list has the page if the page is empty or does not reach beyond it. -/
theorem page_suffix_iff (hlimit : 0 < limit) (h : E' <:+ E) :
    page E' skip limit = page E skip limit ↔
      E.length ≤ skip ∨ min E.length (skip + limit) ≤ E'.length := by
  constructor
  · intro heq
    have hlength := congrArg List.length heq
    have hle := h.length_le
    rw [length_page, length_page] at hlength
    omega
  · intro hreach
    obtain ⟨A, rfl⟩ := h
    rw [List.length_append] at hreach
    by_cases hempty : A.length + E'.length ≤ skip
    · have hE : (page E' skip limit).length = 0 := by rw [length_page]; omega
      have hA : (page (A ++ E') skip limit).length = 0 := by
        rw [length_page, List.length_append]
        omega
      rw [List.length_eq_zero_iff.1 hE, List.length_eq_zero_iff.1 hA]
    · by_cases hA : A = []
      · rw [hA, List.nil_append]
      · have hpos := List.length_pos_of_ne_nil hA
        have hlen : skip + limit ≤ E'.reverse.length := by
          rw [List.length_reverse]
          omega
        rw [page, page, List.reverse_append, List.drop_append_of_le_length (by omega),
          List.take_append_of_le_length (by rw [List.length_drop]; omega)]

/-! ### The pages of a thread -/

variable {s : Conversation} {agentId : AgentId}

theorem recentToolExchanges_eq (limit skip : ℕ) (hlimit : 0 < limit) :
    s.recentToolExchanges agentId limit skip =
      page (exchanges (s.lastToolRows agentId (2 * (skip + limit) + 4))) skip limit := by
  rw [Conversation.recentToolExchanges, if_neg (by omega), ← drop_take_eq_page]
  have hskip : (max 0 (skip : ℤ)).toNat = skip := by omega
  rw [hskip, Int.toNat_natCast]
  dsimp only
  split_ifs with h
  · rfl
  · rw [not_not.1 h, Nat.sub_zero, List.take_length]

theorem lastToolRows_suffix (n : ℕ) : s.lastToolRows agentId n <:+ s.toolRows agentId :=
  List.drop_suffix _ _

/-- The rows that are read hold every tail that is short enough. -/
theorem suffix_lastToolRows {n : ℕ} (h : tail <:+ s.toolRows agentId) (hlen : tail.length ≤ n) :
    tail <:+ s.lastToolRows agentId n := by
  refine List.suffix_of_suffix_length_le h (lastToolRows_suffix n) ?_
  have hle := h.length_le
  rw [Conversation.lastToolRows, List.length_drop]
  omega

theorem withinReach_iff : WithinReach (s.toolRows agentId) limit skip ↔
    (exchanges (s.toolRows agentId)).length ≤ skip ∨
      min (exchanges (s.toolRows agentId)).length (skip + limit) ≤
        (exchanges (s.lastToolRows agentId (2 * (skip + limit) + 4))).length := by
  refine or_congr_right ⟨?_, fun h => ⟨_, lastToolRows_suffix _, ?_, h⟩⟩
  · rintro ⟨tail, hsuffix, hlen, hmin⟩
    exact hmin.trans (exchanges_suffix (suffix_lastToolRows hsuffix hlen)).length_le
  · rw [Conversation.lastToolRows, List.length_drop]
    omega

/-- **When a page is recalled whole.**  The query returns the exchanges that are counted back from
the newest one if and only if they are in the rows that it reads, with the rows that belong to no
exchange. -/
theorem recentToolExchanges_iff (s : Conversation) (agentId : AgentId) {limit skip : ℤ}
    (hlimit : 0 < limit) (hskip : 0 ≤ skip) :
    s.recentToolExchanges agentId limit skip =
        page (exchanges (s.toolRows agentId)) skip.toNat limit.toNat ↔
      WithinReach (s.toolRows agentId) limit.toNat skip.toNat := by
  obtain ⟨limit, rfl⟩ := Int.eq_ofNat_of_zero_le hlimit.le
  obtain ⟨skip, rfl⟩ := Int.eq_ofNat_of_zero_le hskip
  have hpos : 0 < limit := by omega
  rw [Int.toNat_natCast, Int.toNat_natCast, recentToolExchanges_eq limit skip hpos,
    page_suffix_iff hpos (exchanges_suffix (lastToolRows_suffix _)), withinReach_iff]

namespace Sample

/-- An exchange, and five calls that were interrupted. -/
def interrupted : Conversation where
  history := ⟨1, "a", .toolCall, "search", 0, false, true⟩ ::
    ⟨2, "a", .toolResult, "found", 0, false, true⟩ ::
    (List.range 5).map fun n => ⟨n + 3, "a", .toolCall, "search", 0, false, true⟩

end Sample

/-- The exchange is within reach of a page of two. -/
theorem recentToolExchanges_iff_interrupted :
    Sample.interrupted.recentToolExchanges "a" 2 0 =
        page (exchanges (Sample.interrupted.toolRows "a")) 0 2 ↔
      WithinReach (Sample.interrupted.toolRows "a") 2 0 :=
  recentToolExchanges_iff Sample.interrupted "a" (by decide) (by decide)

/-- **Calls that were interrupted hide an exchange.**  The newest exchange is not found behind five
of them. -/
theorem interrupted_calls_hide : ¬ ∀ (s : Conversation) (agentId : AgentId) (limit skip : ℤ),
    0 < limit → 0 ≤ skip → s.recentToolExchanges agentId limit skip =
      page (exchanges (s.toolRows agentId)) skip.toNat limit.toNat := by
  intro hall
  have hpage := hall Sample.interrupted "a" 1 0 (by decide) (by decide)
  revert hpage
  decide

end Backplane
