import Backplane.Mcp.EventStream

/-!
# What the client makes of a stream of events

The client looks for prefixes and strips spaces where the standard has a grammar of fields.  On the
lines where these come to the same, the two dispatch the same events, and go on with the same id.

* `Agree` : the buffers of the two, and what they have done.
* `Agree.flush`, `Agree.field`, `Agree.reconnect` : what keeps them alike.
* `streams_agree` : they are alike in every run of allowed events.
-/

namespace Backplane.Mcp.EventStream

open Attachments (isSpace)

variable {other : Char → Option ℕ} {resets : Bool} {s s' : State} {c : Client} {t : Standard}
  {line name value : List Char} {lines : List (List Char)}

/-- The client and the standard have the same in their buffers, and have done the same. -/
structure Agree (c : Client) (t : Standard) : Prop where
  data : t.data = c.dataLines.flatMap (· ++ ['\n'])
  type : c.eventType.getD [] = t.type
  /-- The id: that of the stream, or the one from before it. -/
  id : c.lastEventId = if t.idBuffer = [] then header t.lastId else some t.idBuffer
  /-- The delay, if the stream has set it. -/
  retry : ∀ ms ∈ t.retry, c.backoff = ms
  dispatched : c.dispatched = t.dispatched
  /-- The requests for streams, and the delays that were set. -/
  reconnects : List.Forall₂ (fun r r' => r.1 = r'.1 ∧ ∀ ms ∈ r'.2, r.2 = ms) c.reconnects
    t.reconnects

theorem Agree.init : Agree {} {} where
  data := rfl
  type := rfl
  id := rfl
  retry := fun _ h => nomatch h
  dispatched := rfl
  reconnects := .nil

/-! ### An empty line -/

theorem flatMap_lines (h : lines ≠ []) :
    lines.flatMap (· ++ ['\n']) = ['\n'].intercalate lines ++ ['\n'] := by
  induction lines with
  | nil => exact absurd rfl h
  | cons l lines ih =>
    cases lines with
    | nil => simp
    | cons l' lines =>
      rw [List.flatMap_cons, ih (List.cons_ne_nil l' lines), List.intercalate_cons_cons]
      simp

/-- The event that both dispatch. -/
theorem Agree.dispatched_flush (h : Agree c t) : c.flush.dispatched = t.dispatch.dispatched := by
  rw [Client.flush, Standard.dispatch]
  dsimp only
  by_cases hl : c.dataLines = []
  · have hdata : t.data = [] := by
      rw [h.data, hl]
      rfl
    rw [if_pos hl, if_pos hdata, h.dispatched]
  · have hdata : t.data = ['\n'].intercalate c.dataLines ++ ['\n'] := by
      rw [h.data, flatMap_lines hl]
    have hne : t.data ≠ [] := by
      rw [hdata]
      simp
    have htype : (c.eventType.filter (· ≠ [])).getD "message".toList =
        if t.type = [] then "message".toList else t.type := by
      rw [← h.type]
      cases c.eventType with
      | none => rfl
      | some v => by_cases hv : v = [] <;> simp [hv, Option.filter]
    rw [if_neg hl, if_neg hne, h.dispatched, htype, hdata, List.getLast?_concat, if_pos rfl,
      List.dropLast_concat]

/-- An empty line, where no id is lost by it. -/
theorem Agree.flush (h : Agree c t) (hid : t.idBuffer ≠ [] ∨ t.lastId = []) :
    Agree c.flush t.dispatch where
  data := rfl
  type := rfl
  id := by
    change c.lastEventId = if t.idBuffer = [] then header t.idBuffer else some t.idBuffer
    rw [h.id]
    by_cases hb : t.idBuffer = []
    · rw [if_pos hb, if_pos hb, hb, hid.resolve_left (not_not_intro hb)]
    · rw [if_neg hb, if_neg hb]
  retry := h.retry
  dispatched := h.dispatched_flush
  reconnects := h.reconnects

/-! ### The end of a stream -/

/-- The id that both send, after the event to which the last id belongs. -/
theorem Agree.header_eq (h : Agree c t) (hid : t.idBuffer = [] ∨ t.idBuffer = t.lastId) :
    c.lastEventId = header t.lastId := by
  rw [h.id]
  rcases hid with hid | hid
  · rw [if_pos hid]
  · rw [hid]
    by_cases hl : t.lastId = [] <;> simp [header, hl]

/-- The end of a stream, after the event to which the last id belongs. -/
theorem Agree.reconnect (h : Agree c t) (hid : t.idBuffer = [] ∨ t.idBuffer = t.lastId)
    (resets : Bool) : Agree c.reconnect (t.reconnect resets) where
  data := rfl
  type := rfl
  id := by
    change c.lastEventId =
      if (if resets then [] else t.lastId) = [] then header t.lastId
      else some (if resets then [] else t.lastId)
    rw [h.header_eq hid]
    cases resets with
    | true => rfl
    | false => by_cases hl : t.lastId = [] <;> simp [header, hl]
  retry := fun _ h => nomatch h
  dispatched := h.dispatched
  reconnects := List.rel_append h.reconnects (.cons ⟨h.header_eq hid, h.retry⟩ .nil)

/-! ### A field -/

theorem rdropWhile_of_last (h : line.getLast? ≠ some '\r') :
    line.rdropWhile (· = '\r') = line := by
  rw [List.rdropWhile_eq_self_iff]
  intro hne hcr
  rw [List.getLast?_eq_some_getLast hne] at h
  exact h (congrArg some (of_decide_eq_true hcr))

/-- What the client does with a field. -/
theorem Client.line_of_field (hname : ':' ∉ name) (hne : name ≠ [])
    (hcr : (name ++ ':' :: value).getLast? ≠ some '\r') :
    c.line other (name ++ ':' :: value) =
      if name = "event".toList then some { c with eventType := some (strip value) }
      else if name = "data".toList then
        some { c with dataLines := c.dataLines ++ [value.dropWhile isSpace] }
      else if name = "id".toList then some { c with lastEventId := some (strip value) }
      else if name = "retry".toList then c.retry other (strip value)
      else some c := by
  rw [Client.line, rdropWhile_of_last hcr, if_neg (by simp), if_neg (head_of_field hname hne),
    afterField_append hname (by decide), afterField_append hname (by decide),
    afterField_append hname (by decide), afterField_append hname (by decide)]
  by_cases h₁ : name = "event".toList
  · rw [if_pos h₁, if_pos h₁]
  · rw [if_neg h₁, if_neg h₁]
    by_cases h₂ : name = "data".toList
    · rw [if_pos h₂, if_pos h₂]
    · rw [if_neg h₂, if_neg h₂]
      by_cases h₃ : name = "id".toList
      · rw [if_pos h₃, if_pos h₃]
      · rw [if_neg h₃, if_neg h₃]
        by_cases h₄ : name = "retry".toList
        · rw [if_pos h₄, if_pos h₄]
        · rw [if_neg h₄, if_neg h₄]

/-- A reconnection time that is in range, or that both pass over. -/
theorem Agree.retried (h : Agree c t)
    (hallowed : (match retryTime (dropSpace value) with
      | some ms => 100 ≤ ms && ms ≤ 60000 && (dropSpace value).length ≤ 4300
      | none => intOf other (strip value) = none : Bool) = true) :
    ∃ c', c.retry other (strip value) = some c' ∧
      Agree c' (match retryTime (dropSpace value) with
        | some ms => { t with retry := some ms }
        | none => t) := by
  cases hr : retryTime (dropSpace value) with
  | none =>
    rw [hr] at hallowed
    exact ⟨c, by rw [Client.retry, of_decide_eq_true hallowed], h⟩
  | some ms =>
    rw [hr] at hallowed
    simp only [Bool.and_eq_true, decide_eq_true_eq] at hallowed
    obtain ⟨⟨hlo, hhi⟩, hlen⟩ := hallowed
    have hint : intOf other (dropSpace value) = some (ms : ℤ) := intOf_of_retryTime hr hlen
    have hsmall : (ms : ℤ).natAbs < 2 ^ 1024 - 2 ^ 970 := by
      rw [Int.natAbs_natCast]
      exact lt_of_le_of_lt hhi (by decide +kernel)
    have hclamp : (max 100 (min (ms : ℤ) 60000)).toNat = ms := by omega
    refine ⟨{ c with backoff := ms }, ?_, h.data, h.type, h.id, ?_, h.dispatched, h.reconnects⟩
    · rw [Client.retry, strip_of_retryTime hr, hint]
      dsimp only
      rw [if_pos hsmall, hclamp]
    · intro ms' hms'
      exact Option.some.inj hms'

/-- **A field that is allowed** is the same for both. -/
theorem Agree.field (h : Agree c t) (hname : ':' ∉ name) (hne : name ≠ [])
    (hcr : (name ++ ':' :: value).getLast? ≠ some '\r')
    (hallowed : allowedField other name value = true) :
    ∃ c', c.line other (name ++ ':' :: value) = some c' ∧
      Agree c' (t.field name (dropSpace value)) := by
  rw [Client.line_of_field hname hne hcr, Standard.field]
  rw [allowedField] at hallowed
  by_cases h₁ : name = "event".toList
  · rw [if_pos h₁] at hallowed
    rw [if_pos h₁, if_pos h₁, of_decide_eq_true hallowed]
    exact ⟨_, rfl, h.data, rfl, h.id, h.retry, h.dispatched, h.reconnects⟩
  rw [if_neg h₁] at hallowed
  rw [if_neg h₁, if_neg h₁]
  by_cases h₂ : name = "data".toList
  · rw [if_pos h₂] at hallowed
    rw [if_pos h₂, if_pos h₂, of_decide_eq_true hallowed]
    refine ⟨_, rfl, ?_, h.type, h.id, h.retry, h.dispatched, h.reconnects⟩
    dsimp only
    rw [h.data, List.flatMap_append, List.flatMap_singleton, List.append_assoc]
  rw [if_neg h₂] at hallowed
  rw [if_neg h₂, if_neg h₂]
  by_cases h₃ : name = "id".toList
  · rw [if_pos h₃] at hallowed
    simp only [Bool.and_eq_true, decide_eq_true_eq] at hallowed
    obtain ⟨⟨hstrip, hval⟩, hnul⟩ := hallowed
    rw [if_pos h₃, if_pos h₃, if_neg hnul, hstrip]
    refine ⟨_, rfl, h.data, h.type, ?_, h.retry, h.dispatched, h.reconnects⟩
    dsimp only
    rw [if_neg hval]
  rw [if_neg h₃] at hallowed
  rw [if_neg h₃, if_neg h₃]
  by_cases h₄ : name = "retry".toList
  · rw [if_pos h₄] at hallowed
    rw [if_pos h₄, if_pos h₄]
    exact h.retried hallowed
  · rw [if_neg h₄, if_neg h₄]
    exact ⟨c, rfl, h⟩

/-! ### Runs -/

/-- A line without a colon that the client passes over, and the standard too. -/
theorem Agree.bare (h : Agree c t) (hcolon : ':' ∉ line) (hne : line ≠ [])
    (hcr : line.getLast? ≠ some '\r')
    (hallowed : line ∉ ["event".toList, "data".toList, "id".toList]) :
    ∃ c', c.line other line = some c' ∧ Agree c' (t.field line []) := by
  have hhead : line.head? ≠ some ':' := fun h0 => hcolon (List.mem_of_mem_head? h0)
  have hfield : t.field line [] = t := by
    simp only [List.mem_cons, List.not_mem_nil, or_false, not_or] at hallowed
    rw [Standard.field, if_neg hallowed.1, if_neg hallowed.2.1, if_neg hallowed.2.2]
    split_ifs <;> rfl
  refine ⟨c, ?_, hfield.symm ▸ h⟩
  rw [Client.line, rdropWhile_of_last hcr, if_neg hne, if_neg hhead,
    afterField_of_not_mem hcolon, afterField_of_not_mem hcolon, afterField_of_not_mem hcolon,
    afterField_of_not_mem hcolon]

/-- **A line that is allowed** is the same for both. -/
theorem Agree.readLine (h : Agree c t) (hallowed : allowedLine other t line = true) :
    ∃ c', c.line other line = some c' ∧ Agree c' (t.line line) := by
  rw [allowedLine, Bool.and_eq_true] at hallowed
  obtain ⟨hcr, hallowed⟩ := hallowed
  have hcr := of_decide_eq_true hcr
  rw [Standard.line]
  by_cases hnil : line = []
  · rw [if_pos hnil] at hallowed
    rw [if_pos hnil, hnil]
    refine ⟨c.flush, rfl, h.flush ?_⟩
    simpa using hallowed
  rw [if_neg hnil] at hallowed
  rw [if_neg hnil]
  by_cases hcomment : line.head? = some ':'
  · rw [if_pos hcomment]
    refine ⟨c, ?_, h⟩
    rw [Client.line, rdropWhile_of_last hcr, if_neg hnil, if_pos hcomment]
  rw [if_neg hcomment] at hallowed
  rw [if_neg hcomment]
  by_cases hcolon : ':' ∈ line
  · rw [if_pos hcolon] at hallowed
    rw [if_pos hcolon]
    obtain ⟨hname, hline⟩ := exists_field hcolon
    have hne : fieldName line ≠ [] := by
      intro h0
      rw [h0] at hline
      exact hcomment (by rw [hline]; rfl)
    rw [hline] at hcr
    obtain ⟨c', hc', hagree⟩ := h.field hname hne hcr hallowed
    rw [← hline] at hc'
    exact ⟨c', hc', hagree⟩
  · rw [if_neg hcolon] at hallowed
    rw [if_neg hcolon]
    exact h.bare hcolon hnil hcr (of_decide_eq_true hallowed)

theorem Agree.step (h : Agree s.client s.standard) {e : Event}
    (hallowed : allowed other s e = true) (hstep : step other resets s e = some s') :
    Agree s'.client s'.standard := by
  cases e with
  | line l =>
    obtain ⟨c', hc', hagree⟩ := h.readLine hallowed
    rw [EventStream.step, hc'] at hstep
    cases hstep
    exact hagree
  | reconnect =>
    cases hstep
    exact h.reconnect (by simpa [allowed] using hallowed) resets

/-- **The client follows the standard where both take the lines for the same.**  In every run whose
lines and ends of streams are allowed, the events are those of the standard, every stream is asked
for with the id of the standard, and after the time that the stream before it has set, if any. -/
theorem streams_agree (h : (streams other resets).Reaches (fun s e => allowed other s e = true) s) :
    s.client.dispatched = s.standard.dispatched ∧
      List.Forall₂ (fun r r' => r.1 = r'.1 ∧ ∀ ms ∈ r'.2, r.2 = ms) s.client.reconnects
        s.standard.reconnects := by
  have hinv : (streams other resets).Invariant (fun s e => allowed other s e = true)
      fun s => Agree s.client s.standard :=
    ⟨Agree.init, fun hs hok hstep => hs.step hok hstep⟩
  have hagree := hinv.of_reaches h
  exact ⟨hagree.dispatched, hagree.reconnects⟩

/-- Two streams: an event with an id, and a delay; then an event that is not ended. -/
theorem streams_agree_two :
    ∃ s : State, s.standard.dispatched = [("endpoint".toList, "/m".toList)] ∧
      s.standard.reconnects = [(some "7".toList, some 2500), (some "7".toList, none)] ∧
      s.client.dispatched = s.standard.dispatched ∧
      List.Forall₂ (fun r r' => r.1 = r'.1 ∧ ∀ ms ∈ r'.2, r.2 = ms) s.client.reconnects
        s.standard.reconnects := by
  have hrun : ((streams (fun _ => none) true).run (allowed (fun _ => none)) {}
      [.line "event: endpoint".toList, .line "data:/m".toList, .line "id: 7".toList,
        .line ": ping".toList, .line [], .line "retry: 2500".toList, .reconnect,
        .line "data: x".toList, .reconnect]).map
      (fun s => (s.standard.dispatched, s.standard.reconnects)) =
      some ([("endpoint".toList, "/m".toList)],
        [(some "7".toList, some 2500), (some "7".toList, none)]) := by
    decide +kernel
  obtain ⟨s, hs, heq⟩ := Option.map_eq_some_iff.mp hrun
  obtain ⟨h₁, h₂⟩ := Prod.mk.inj heq
  exact ⟨s, h₁, h₂, streams_agree (.of_run (fun _ _ h => h) hs)⟩

/-- The second of two spaces before a value belongs to it, and the client removes it. -/
theorem second_space :
    ∃ s, (streams (fun _ => none) true).Reaches (fun _ _ => True) s ∧
      s.client.dispatched = [("message".toList, "x".toList)] ∧
      s.standard.dispatched = [("message".toList, " x".toList)] := by
  have hrun : ((streams (fun _ => none) true).run (fun _ _ => true) {}
      [.line "data:  x".toList, .line []]).map
      (fun s => (s.client.dispatched, s.standard.dispatched)) =
      some ([("message".toList, "x".toList)], [("message".toList, " x".toList)]) := by
    decide +kernel
  obtain ⟨s, hs, heq⟩ := Option.map_eq_some_iff.mp hrun
  obtain ⟨h₁, h₂⟩ := Prod.mk.inj heq
  exact ⟨s, .of_run (fun _ _ _ => trivial) hs, h₁, h₂⟩

end Backplane.Mcp.EventStream
