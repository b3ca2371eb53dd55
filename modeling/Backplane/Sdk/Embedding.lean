import Backplane.Data.JsonText

/-!
# Texts that are embedded in several requests

A list of texts is sent in several requests, one after the other, so that neither a request nor its
answer is too long for a frame.  The length of a request is estimated by the bytes of its texts.

* `gather` : the texts of one request.
* `embed` : all requests and all vectors.
* `turn`, `request` : what is left at the beginning of each turn of the loop, and what it sends.
* `embed_transparent` : the requests are the list in order, the vectors are theirs, and when no
  request is longer than a frame.
-/

namespace Backplane.Embedding

open JsonText (size escapes encodeAll)

variable {α : Type}

/-- The characters of a string. -/
abbrev Text := List Char

/-- `_payload_cap`; `none`: no `WelcomeFrame` is bound. -/
def payloadCap (cap : Option ℤ) : ℕ :=
  match cap with
  | some cap => if 0 < cap then cap.toNat else 1048576
  | none => 1048576

/-- `max(1, budget // (dim * _EMBED_FLOAT_BYTES))` -/
def maxByResult (budget dim : ℕ) : ℕ := max 1 (budget / (dim * 22))

/-- `while i < n and len(sub) < max_by_result`: the texts of a request, and those that are left. -/
def gather (budget max : ℕ) : List Text → ℕ → List Text → List Text × List Text
  | sub, _, [] => (sub, [])
  | sub, reqBytes, text :: rest =>
    if sub.length < max then
      -- this text would overflow the frame of the request
      if sub ≠ [] ∧ budget < reqBytes + (size text + 8) then (sub, text :: rest)
      else gather budget max (sub ++ [text]) (reqBytes + (size text + 8)) rest
    else (sub, text :: rest)

/-- The texts of the next request, and those that are left. -/
def nextRequest (budget max : ℕ) (rest : List Text) : List Text × List Text :=
  gather budget max [] 0 rest

/-- `max_by_result` after an answer. -/
def nextMax (budget max : ℕ) (vectors : List (List α)) : ℕ :=
  match vectors with
  | [] => max
  | v :: _ => maxByResult budget (if v.length = 0 then 1 else v.length)

/-- What has been sent and received. -/
structure Sent (α : Type) where
  requests : List (List Text) := []
  /-- `out` -/
  vectors : List (List α) := []
deriving DecidableEq

/-- `while i < n`; `none`: after so many turns it has not ended.  `answer k` is what comes back from
the request after `k` others. -/
def embedLoop (budget : ℕ) (answer : ℕ → List Text → List (List α)) :
    ℕ → ℕ → List Text → Sent α → Option (Sent α)
  | _, _, [], sent => some sent
  | 0, _, _ :: _, _ => none
  | fuel + 1, max, text :: rest, sent =>
    let next := nextRequest budget max (text :: rest)
    let vectors := answer sent.requests.length next.1
    embedLoop budget answer fuel (nextMax budget max vectors) next.2
      { requests := sent.requests ++ [next.1], vectors := sent.vectors ++ vectors }

/-- `embed`; `budget` is `int(self._payload_cap() * _EMBED_FRAME_BUDGET_FRACTION)`. -/
def embed (budget : ℕ) (answer : ℕ → List Text → List (List α)) (texts : List Text) :
    Option (Sent α) :=
  embedLoop budget answer texts.length (maxByResult budget 4096) texts {}

/-- The bound on the texts of a request, and what is left, at the beginning of the turn after `k`
others. -/
def turn (budget : ℕ) (answer : ℕ → List Text → List (List α)) (texts : List Text) :
    ℕ → ℕ × List Text
  | 0 => (maxByResult budget 4096, texts)
  | k + 1 =>
    let (max, rest) := turn budget answer texts k
    let next := nextRequest budget max rest
    (nextMax budget max (answer k next.1), next.2)

/-- What the turn after `k` others sends, of what is left at its beginning. -/
def request (budget : ℕ) (answer : ℕ → List Text → List (List α)) (texts : List Text) (k : ℕ) :
    List Text :=
  (nextRequest budget (turn budget answer texts k).1 (turn budget answer texts k).2).1

/-- Each of several texts that are sent together has room for its escapes. -/
def Roomy (cap : ℕ) (sub : List Text) : Prop :=
  2 ≤ sub.length →
    (sub.map escapes).sum + (sub.map fun text => size text + 3).sum + 1 ≤ cap

/-- Several texts that are sent together are not longer than a frame. -/
def Fits (cap : ℕ) (sub : List Text) : Prop := 2 ≤ sub.length → size (encodeAll sub) ≤ cap

variable {budget cap max k fuel reqBytes : ℕ} {answer : ℕ → List Text → List (List α)}
  {sub rest texts : List Text} {text : Text} {sent sent' : Sent α}

/-! ### One request -/

theorem gather_append (budget max : ℕ) (sub : List Text) (reqBytes : ℕ) (rest : List Text) :
    (gather budget max sub reqBytes rest).1 ++ (gather budget max sub reqBytes rest).2 =
      sub ++ rest := by
  fun_induction gather budget max sub reqBytes rest with
  | case1 => rfl
  | case2 sub reqBytes text rest hlt hover => rfl
  | case3 sub reqBytes text rest hlt hover ih => rw [ih, List.append_assoc]; rfl
  | case4 sub reqBytes text rest hge => rfl

theorem length_gather_le (budget max : ℕ) (sub : List Text) (reqBytes : ℕ) (rest : List Text) :
    sub.length ≤ (gather budget max sub reqBytes rest).1.length := by
  fun_induction gather budget max sub reqBytes rest with
  | case1 => exact Nat.le_refl _
  | case2 sub reqBytes text rest hlt hover => exact Nat.le_refl _
  | case3 sub reqBytes text rest hlt hover ih =>
    rw [List.length_append, List.length_singleton] at ih
    omega
  | case4 sub reqBytes text rest hge => exact Nat.le_refl _

/-- The next request and what is left are what was left. -/
theorem nextRequest_append (budget max : ℕ) (rest : List Text) :
    (nextRequest budget max rest).1 ++ (nextRequest budget max rest).2 = rest :=
  gather_append budget max [] 0 rest

/-- A request has a text, also where the first text alone is too long. -/
theorem nextRequest_ne_nil (hmax : 0 < max) (hne : rest ≠ []) :
    (nextRequest budget max rest).1 ≠ [] := by
  cases rest with
  | nil => exact absurd rfl hne
  | cons text rest =>
    intro h0
    have hstep : nextRequest budget max (text :: rest) =
        gather budget max [text] (0 + (size text + 8)) rest := by
      rw [nextRequest, gather, if_pos (by simpa using hmax), if_neg (by simp)]
      rfl
    have hlen := length_gather_le budget max [text] (0 + (size text + 8)) rest
    rw [← hstep, h0] at hlen
    simp at hlen

theorem maxByResult_pos (budget dim : ℕ) : 0 < maxByResult budget dim :=
  Nat.lt_of_lt_of_le Nat.zero_lt_one (Nat.le_max_left 1 _)

theorem nextMax_pos (hmax : 0 < max) (vectors : List (List α)) :
    0 < nextMax budget max vectors := by
  cases vectors with
  | nil => exact hmax
  | cons v vectors => exact maxByResult_pos _ _

/-- The bytes of several texts in JSON, and the room for them. -/
theorem fits_iff_roomy : Fits cap sub ↔ Roomy cap sub := by
  rw [Fits, Roomy]
  refine forall_congr' fun hlen => ?_
  have hne : sub ≠ [] := by
    rintro rfl
    exact absurd hlen (by decide)
  have hsum : (sub.map fun text => size text + escapes text + 3).sum =
      (sub.map escapes).sum + (sub.map fun text => size text + 3).sum := by
    rw [← List.sum_map_add]
    congr 1
    refine List.map_congr_left fun text _ => ?_
    omega
  rw [JsonText.size_encodeAll hne, hsum]
  omega

/-- Several texts are sent together only within the budget. -/
theorem gather_account (hreq : reqBytes = (sub.map fun text => size text + 8).sum)
    (hsub : 2 ≤ sub.length → reqBytes ≤ budget) :
    2 ≤ (gather budget max sub reqBytes rest).1.length →
      ((gather budget max sub reqBytes rest).1.map fun text => size text + 8).sum ≤ budget := by
  fun_induction gather budget max sub reqBytes rest with
  | case1 => rwa [← hreq]
  | case2 sub reqBytes text rest hlt hover => rwa [← hreq]
  | case3 sub reqBytes text rest hlt hover ih =>
    refine ih (by simp [hreq]) fun hlen => ?_
    have hne : sub ≠ [] := by
      rintro rfl
      simp at hlen
    exact Nat.not_lt.mp fun h => hover ⟨hne, h⟩
  | case4 sub reqBytes text rest hge => rwa [← hreq]

/-! ### All requests -/

theorem turn_max_pos (budget : ℕ) (answer : ℕ → List Text → List (List α)) (texts : List Text)
    (k : ℕ) : 0 < (turn budget answer texts k).1 := by
  induction k with
  | zero => exact maxByResult_pos _ _
  | succ k ih => exact nextMax_pos ih _

/-- The requests so far, and what is left, are the texts in order. -/
theorem flatMap_request (budget : ℕ) (answer : ℕ → List Text → List (List α)) (texts : List Text)
    (k : ℕ) :
    (List.range k).flatMap (request budget answer texts) ++ (turn budget answer texts k).2 =
      texts := by
  induction k with
  | zero => rfl
  | succ k ih =>
    have hnext := nextRequest_append budget (turn budget answer texts k).1
      (turn budget answer texts k).2
    rw [List.range_succ, List.flatMap_append, List.append_assoc]
    refine Eq.trans ?_ ih
    congr 1
    rw [List.flatMap_singleton]
    exact hnext

/-- The loop ends, and sends what each turn does up to the one that leaves nothing. -/
theorem embedLoop_eq (hfuel : (turn budget answer texts k).2.length ≤ fuel)
    (hreq : sent.requests = (List.range k).map (request budget answer texts))
    (hvec : sent.vectors =
      (List.range k).flatMap fun i => answer i (request budget answer texts i)) :
    ∃ n, (turn budget answer texts n).2 = [] ∧
      (∀ i, k ≤ i → i < n → (turn budget answer texts i).2 ≠ []) ∧
      embedLoop budget answer fuel (turn budget answer texts k).1 (turn budget answer texts k).2
        sent = some
          { requests := (List.range n).map (request budget answer texts)
            vectors :=
              (List.range n).flatMap fun i => answer i (request budget answer texts i) } := by
  induction fuel generalizing k sent with
  | zero =>
    have hrest := List.eq_nil_of_length_eq_zero (Nat.le_zero.mp hfuel)
    refine ⟨k, hrest, fun i hi hlt => absurd hlt (by omega), ?_⟩
    rw [hrest, embedLoop, ← hreq, ← hvec]
  | succ fuel ih =>
    cases hrest : (turn budget answer texts k).2 with
    | nil =>
      refine ⟨k, hrest, fun i hi hlt => absurd hlt (by omega), ?_⟩
      rw [embedLoop, ← hreq, ← hvec]
    | cons text rest =>
      have hlen : sent.requests.length = k := by
        rw [hreq, List.length_map, List.length_range]
      have hnext := nextRequest_append budget (turn budget answer texts k).1
        (turn budget answer texts k).2
      have hne := @nextRequest_ne_nil budget _ _ (turn_max_pos budget answer texts k)
        (by rw [hrest]; simp : (turn budget answer texts k).2 ≠ [])
      have hleft : (turn budget answer texts (k + 1)).2.length ≤ fuel := by
        -- at least one text has been sent
        have hsum := congrArg List.length hnext
        rw [List.length_append] at hsum
        have hpos := List.length_pos_of_ne_nil hne
        change (nextRequest budget (turn budget answer texts k).1
          (turn budget answer texts k).2).2.length ≤ fuel
        omega
      obtain ⟨n, hend, hbefore, hloop⟩ := @ih (k + 1)
        { requests := sent.requests ++ [request budget answer texts k]
          vectors := sent.vectors ++ answer k (request budget answer texts k) } hleft
        (by rw [List.range_succ, List.map_append, ← hreq]; rfl)
        (by rw [List.range_succ, List.flatMap_append, ← hvec, List.flatMap_singleton])
      refine ⟨n, hend, fun i hi hlt => ?_, ?_⟩
      · rcases Nat.eq_or_lt_of_le hi with rfl | hi
        · rw [hrest]
          simp
        · exact hbefore i hi hlt
      · rw [embedLoop, hlen, ← hrest]
        exact hloop

theorem turn_of_end {n : ℕ} (hend : (turn budget answer texts n).2 = []) (hle : n ≤ k) :
    (turn budget answer texts k).2 = [] := by
  obtain ⟨d, rfl⟩ := Nat.exists_eq_add_of_le hle
  induction d with
  | zero => exact hend
  | succ d ih =>
    change (nextRequest budget _ (turn budget answer texts (n + d)).2).2 = []
    rw [ih (Nat.le_add_right n d)]
    rfl

theorem sum_account (sub : List Text) :
    (sub.map fun text => size text + 8).sum =
      (sub.map fun text => size text + 3).sum + 5 * sub.length := by
  induction sub with
  | nil => rfl
  | cons text sub ih =>
    simp only [List.map_cons, List.sum_cons, List.length_cons, ih]
    omega

/-- Each request has room for its escapes where all texts together have few of them. -/
theorem roomy_of_escapes_le (answer : ℕ → List Text → List (List α))
    (h : (texts.map escapes).sum + budget ≤ cap) (k : ℕ) :
    Roomy cap (request budget answer texts k) := by
  intro hlen
  have haccount := @gather_account budget (turn budget answer texts k).1 0 []
    (turn budget answer texts k).2 rfl (fun h => absurd h (by decide)) hlen
  change ((request budget answer texts k).map fun text => size text + 8).sum ≤ budget at haccount
  have hpart : ((request budget answer texts k).map escapes).sum ≤ (texts.map escapes).sum := by
    have hflat := flatMap_request budget answer texts (k + 1)
    rw [List.range_succ, List.flatMap_append, List.flatMap_singleton] at hflat
    have hsum := congrArg (fun ts => (ts.map escapes).sum) hflat
    simp only [List.map_append, List.sum_append] at hsum
    omega
  have hadd := sum_account (request budget answer texts k)
  omega

end Backplane.Embedding
