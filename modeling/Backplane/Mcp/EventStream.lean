import Backplane.Data.EventSystem
import Backplane.Data.Strip
import Backplane.Llm.FileRefs

/-!
# Streams of server-sent events

The client reads the lines of a stream, and opens another stream when one ends.  The standard for
such streams says what the lines mean.

* `Client` : what the client makes of the lines.
* `Standard` : what the standard does.
* `streams` : both of them, on the same lines, divided into streams in any way.
* `allowed` : the lines, and the ends of streams, that they take for the same.
* `afterField_append`, `strip_of_retryTime`, `intOf_of_retryTime` : the parts of a line, for both.
-/

namespace Backplane.Mcp.EventStream

open Attachments (isSpace)

/-- The characters of a line, without its ending. -/
abbrev Line := List Char

/-! ### Numbers -/

/-- The digit that a character is, for `int`; `other` knows those beyond ASCII. -/
def digitValue (other : Char → Option ℕ) (c : Char) : Option ℕ :=
  if c.isDigit then some (c.toNat - 48) else if c.toNat < 128 then none else other c

/-- Digits, with single underscores between them; the last character was a digit or not. -/
def intDigits (other : Char → Option ℕ) : Bool → ℕ → List Char → Option ℕ
  | afterDigit, n, [] => if afterDigit then some n else none
  | afterDigit, n, c :: cs =>
    if afterDigit ∧ c = '_' then intDigits other false n cs
    else match digitValue other c with
      | some d => intDigits other true (10 * n + d) cs
      | none => none

/-- The digits of a number, of which `int` takes 4300 at most. -/
def intBody (other : Char → Option ℕ) (cs : List Char) : Option ℕ :=
  if (cs.filter (· ≠ '_')).length ≤ 4300 then intDigits other false 0 cs else none

/-- `int`, of a text without spaces around it; `none`: it raises. -/
def intOf (other : Char → Option ℕ) : List Char → Option ℤ
  | [] => none
  | c :: cs =>
    if c = '-' then (intBody other cs).map fun n => -(n : ℤ)
    else if c = '+' then (intBody other cs).map fun n => (n : ℤ)
    else (intBody other (c :: cs)).map fun n => (n : ℤ)

/-! ### The client -/

/-- `str.strip` -/
def strip (text : List Char) : List Char := Span.strip isSpace text

/-- What comes after `name:` in a line that starts with it. -/
def afterField (name : List Char) (line : Line) : Option (List Char) :=
  if (name ++ [':']).isPrefixOf line then some (line.drop (name.length + 1)) else none

/-- `SseMcpClient._stream_loop`, while a stream is open; times are in milliseconds. -/
structure Client where
  lastEventId : Option (List Char) := none
  backoff : ℕ := 1000
  eventType : Option (List Char) := none
  dataLines : List (List Char) := []
  dispatched : List (List Char × List Char) := []
  /-- `Last-Event-ID` and the delay, of each stream after the first. -/
  reconnects : List (Option (List Char) × ℕ) := []
  deriving DecidableEq

/-- An empty line. -/
def Client.flush (c : Client) : Client :=
  { c with
    dispatched :=
      if c.dataLines = [] then c.dispatched
      else c.dispatched ++ [((c.eventType.filter (· ≠ [])).getD "message".toList,
        ['\n'].intercalate c.dataLines)]
    eventType := none
    dataLines := [] }

/-- A `retry` field; `none`: the number is too large for a float. -/
def Client.retry (other : Char → Option ℕ) (c : Client) (text : List Char) : Option Client :=
  match intOf other text with
  | none => some c
  | some ms =>
    if ms.natAbs < 2 ^ 1024 - 2 ^ 970 then
      some { c with backoff := (max 100 (min ms 60000)).toNat }
    else none

/-- One line; `none`: it raises. -/
def Client.line (other : Char → Option ℕ) (c : Client) (raw : Line) : Option Client :=
  let line := raw.rdropWhile (· = '\r')
  if line = [] then some c.flush
  else if line.head? = some ':' then some c
  else match afterField "event".toList line with
    | some v => some { c with eventType := some (strip v) }
    | none => match afterField "data".toList line with
      | some v => some { c with dataLines := c.dataLines ++ [v.dropWhile isSpace] }
      | none => match afterField "id".toList line with
        | some v => some { c with lastEventId := some (strip v) }
        | none => match afterField "retry".toList line with
          | some v => c.retry other (strip v)
          | none => some c

/-- The stream has ended, and the next one is open. -/
def Client.reconnect (c : Client) : Client :=
  { c with
    reconnects := c.reconnects ++ [(c.lastEventId, c.backoff)]
    backoff := 1000
    eventType := none
    dataLines := [] }

/-! ### The standard -/

/-- An event source; a stream has buffers for the data, the type and the id of an event. -/
structure Standard where
  data : List Char := []
  type : List Char := []
  idBuffer : List Char := []
  lastId : List Char := []
  /-- The reconnection time that this stream has set. -/
  retry : Option ℕ := none
  dispatched : List (List Char × List Char) := []
  /-- `Last-Event-ID` and the reconnection time that was set, of each stream after the first. -/
  reconnects : List (Option (List Char) × Option ℕ) := []
  deriving DecidableEq

/-- An event is dispatched, unless it has no data. -/
def Standard.dispatch (t : Standard) : Standard :=
  { t with
    lastId := t.idBuffer
    dispatched :=
      if t.data = [] then t.dispatched
      else t.dispatched ++ [(if t.type = [] then "message".toList else t.type,
        if t.data.getLast? = some '\n' then t.data.dropLast else t.data)]
    data := []
    type := [] }

/-- The number of ASCII digits. -/
def retryTime (value : List Char) : Option ℕ :=
  if value ≠ [] ∧ value.all Char.isDigit then
    some (value.foldl (fun n c => 10 * n + (c.toNat - 48)) 0)
  else none

/-- A field is processed. -/
def Standard.field (t : Standard) (name value : List Char) : Standard :=
  if name = "event".toList then { t with type := value }
  else if name = "data".toList then { t with data := t.data ++ value ++ ['\n'] }
  else if name = "id".toList then
    if Char.ofNat 0 ∈ value then t else { t with idBuffer := value }
  else if name = "retry".toList then
    match retryTime value with
    | some ms => { t with retry := some ms }
    | none => t
  else t

/-- One space is removed after the colon. -/
def dropSpace : List Char → List Char
  | ' ' :: value => value
  | value => value

/-- The field of a line with a colon. -/
def fieldName (line : Line) : List Char := line.takeWhile (· ≠ ':')

/-- What comes after the first colon. -/
def rawValue (line : Line) : List Char := (line.dropWhile (· ≠ ':')).drop 1

/-- A line is processed. -/
def Standard.line (t : Standard) (line : Line) : Standard :=
  if line = [] then t.dispatch
  else if line.head? = some ':' then t
  else if ':' ∈ line then t.field (fieldName line) (dropSpace (rawValue line))
  else t.field line []

/-- The id that a request for a stream carries, if any. -/
def header (lastId : List Char) : Option (List Char) := if lastId = [] then none else some lastId

/-- The stream has ended, without a dispatch, and the next one is open.  The buffer for the id is
empty then, or, as in some clients, it keeps the id. -/
def Standard.reconnect (resets : Bool) (t : Standard) : Standard :=
  { t with
    reconnects := t.reconnects ++ [(header t.lastId, t.retry)]
    retry := none
    idBuffer := if resets then [] else t.lastId
    data := []
    type := [] }

/-! ### Both on the same lines -/

/-- What the client and the standard have made of the lines. -/
structure State where
  client : Client := {}
  standard : Standard := {}
  deriving DecidableEq

/-- What comes from the server. -/
inductive Event
  | line (l : Line)
  /-- The stream ends, and another one begins. -/
  | reconnect
  deriving DecidableEq

/-- One event; a client that raises on a line leaves the stream. -/
def step (other : Char → Option ℕ) (resets : Bool) (s : State) : Event → Option State
  | .line l => some (match s.client.line other l with
    | some c => { client := c, standard := s.standard.line l }
    | none =>
      { client := s.client.reconnect, standard := (s.standard.line l).reconnect resets })
  | .reconnect =>
    some { client := s.client.reconnect, standard := s.standard.reconnect resets }

/-- Lines, divided into streams in any way. -/
def streams (other : Char → Option ℕ) (resets : Bool) : EventSystem State Event :=
  ⟨{}, step other resets⟩

/-- A field that the client and the standard take for the same. -/
def allowedField (other : Char → Option ℕ) (name value : List Char) : Bool :=
  if name = "event".toList then strip value = dropSpace value
  else if name = "data".toList then value.dropWhile isSpace = dropSpace value
  else if name = "id".toList then
    strip value = dropSpace value && dropSpace value ≠ [] && Char.ofNat 0 ∉ dropSpace value
  else if name = "retry".toList then
    match retryTime (dropSpace value) with
    | some ms => 100 ≤ ms && ms ≤ 60000 && (dropSpace value).length ≤ 4300
    | none => intOf other (strip value) = none
  else true

/-- A line that the client and the standard take for the same. -/
def allowedLine (other : Char → Option ℕ) (t : Standard) (line : Line) : Bool :=
  line.getLast? ≠ some '\r' &&
    if line = [] then t.idBuffer ≠ [] || t.lastId = []
    else if line.head? = some ':' then true
    else if ':' ∈ line then allowedField other (fieldName line) (rawValue line)
    else line ∉ ["event".toList, "data".toList, "id".toList]

/-- An event that the client and the standard take for the same; a stream does not end before the
event to which an id belongs. -/
def allowed (other : Char → Option ℕ) (s : State) : Event → Bool
  | .line l => allowedLine other s.standard l
  | .reconnect => s.standard.idBuffer = [] || s.standard.idBuffer = s.standard.lastId

variable {other : Char → Option ℕ} {resets : Bool} {s s' : State} {c : Client} {t : Standard}
  {line name value field : List Char} {lines : List (List Char)}

/-! ### Lines and fields -/

theorem takeWhile_colon (h : ':' ∉ name) (value : List Char) :
    (name ++ ':' :: value).takeWhile (· ≠ ':') = name := by
  rw [List.takeWhile_append_of_pos, List.takeWhile_cons_of_neg, List.append_nil]
  · simp
  · intro d hd
    exact decide_eq_true fun h0 => h (h0 ▸ hd)

/-- A line with a colon is the name of a field, the colon and the rest. -/
theorem exists_field (h : ':' ∈ line) :
    ':' ∉ fieldName line ∧ line = fieldName line ++ ':' :: rawValue line := by
  constructor
  · intro hmem
    simpa using List.mem_takeWhile_imp hmem
  · cases hd : line.dropWhile (· ≠ ':') with
    | nil =>
      have hall := (List.dropWhile_eq_nil_iff.mp hd) ':' h
      simp at hall
    | cons d rest =>
      have hne : line.dropWhile (· ≠ ':') ≠ [] := by
        rw [hd]
        exact List.cons_ne_nil d rest
      have hhead := List.head_dropWhile_not (· ≠ ':') hne
      simp only [hd, List.head_cons] at hhead
      have hcolon : d = ':' := by simpa using hhead
      rw [rawValue, hd, List.drop_one, List.tail_cons, fieldName]
      conv_lhs => rw [← List.takeWhile_append_dropWhile (p := (· ≠ ':')) (l := line), hd, hcolon]

/-- What comes after a field, in a line that has one. -/
theorem afterField_append (hname : ':' ∉ name) (hfield : ':' ∉ field) :
    afterField field (name ++ ':' :: value) = if name = field then some value else none := by
  rw [afterField]
  split_ifs with hp hn hn
  · rw [← hn]
    congr 1
    rw [show name.length + 1 = (name ++ [':']).length by simp,
      show name ++ ':' :: value = (name ++ [':']) ++ value by simp, List.drop_left]
  · obtain ⟨rest, hrest⟩ := List.isPrefixOf_iff_prefix.mp hp
    refine absurd ?_ hn
    rw [← takeWhile_colon hname value, ← hrest, List.append_assoc]
    exact takeWhile_colon hfield rest
  · refine absurd (List.isPrefixOf_iff_prefix.mpr ⟨value, ?_⟩) hp
    rw [hn, List.append_assoc]
    rfl
  · rfl

/-- A line without a colon has no field, for the client. -/
theorem afterField_of_not_mem (h : ':' ∉ line) : afterField field line = none := by
  rw [afterField, if_neg]
  intro hp
  exact h ((List.isPrefixOf_iff_prefix.mp hp).subset (by simp))

theorem head_of_field (hname : ':' ∉ name) (hne : name ≠ []) :
    (name ++ ':' :: value).head? ≠ some ':' := by
  cases name with
  | nil => exact absurd rfl hne
  | cons d name =>
    intro h
    exact hname (by rw [← Option.some.inj h]; exact List.mem_cons_self)

theorem dropSpace_eq (value : List Char) :
    dropSpace value = value ∨ value = ' ' :: dropSpace value := by
  unfold dropSpace
  split
  · exact .inr rfl
  · exact .inl rfl

/-! ### Numbers -/

theorem digitValue_of_isDigit {d : Char} (h : d.isDigit = true) :
    digitValue other d = some (d.toNat - 48) := if_pos h

theorem intDigits_of_digits {n : ℕ} {b : Bool} (hall : value.all Char.isDigit = true)
    (hb : b = true ∨ value ≠ []) :
    intDigits other b n value =
      some (value.foldl (fun n c => 10 * n + (c.toNat - 48)) n) := by
  induction value generalizing n b with
  | nil =>
    rcases hb with rfl | hb
    · rfl
    · exact absurd rfl hb
  | cons d value ih =>
    rw [List.all_cons, Bool.and_eq_true] at hall
    have hne : d ≠ '_' := by
      rintro rfl
      exact absurd hall.1 (by decide)
    rw [intDigits, if_neg (fun h => hne h.2), digitValue_of_isDigit hall.1]
    exact ih hall.2 (.inl rfl)

/-- `int` takes ASCII digits for the number they are. -/
theorem intOf_of_retryTime {ms : ℕ} (h : retryTime value = some ms) (hlen : value.length ≤ 4300) :
    intOf other value = some (ms : ℤ) := by
  rw [retryTime] at h
  split_ifs at h with hd
  obtain ⟨hne, hall⟩ := hd
  have hbody : intBody other value = some ms := by
    rw [intBody, if_pos ((List.length_filter_le _ _).trans hlen),
      intDigits_of_digits hall (.inr hne), h]
  cases value with
  | nil => exact absurd rfl hne
  | cons d value =>
    have hd : d.isDigit = true := List.all_eq_true.mp hall d List.mem_cons_self
    have h₁ : d ≠ '-' := by
      rintro rfl
      exact absurd hd (by decide)
    have h₂ : d ≠ '+' := by
      rintro rfl
      exact absurd hd (by decide)
    rw [intOf, if_neg h₁, if_neg h₂, hbody]
    rfl

theorem isSpace_of_isDigit {d : Char} (h : d.isDigit = true) : isSpace d = false := by
  have hle : 48 ≤ d.toNat ∧ d.toNat ≤ 57 := by
    simp only [Char.isDigit, Bool.and_eq_true, decide_eq_true_eq] at h
    exact ⟨UInt32.le_iff_toNat_le.mp h.1, UInt32.le_iff_toNat_le.mp h.2⟩
  simp only [isSpace, Bool.or_eq_false_iff, Bool.and_eq_false_iff, decide_eq_false_iff_not,
    beq_eq_false_iff_ne]
  omega

/-- Digits after at most one space have no other spaces around them. -/
theorem strip_of_retryTime {ms : ℕ} (h : retryTime (dropSpace value) = some ms) :
    strip value = dropSpace value := by
  rw [retryTime] at h
  split_ifs at h with hd
  have hspace : ∀ d ∈ dropSpace value, isSpace d = false :=
    fun d hd' => isSpace_of_isDigit (List.all_eq_true.mp hd.2 d hd')
  have htrim : Span.Trimmed isSpace (dropSpace value) :=
    ⟨fun d hd' => hspace d (List.mem_of_mem_head? hd'),
      fun d hd' => hspace d (List.mem_of_getLast? hd')⟩
  rcases dropSpace_eq value with heq | heq
  · rw [heq] at htrim ⊢
    exact Span.strip_of_trimmed htrim
  · have hone : ∀ d ∈ [' '], isSpace d = true := by
      intro d hd
      rw [List.mem_singleton.1 hd]
      rfl
    calc strip value = Span.strip isSpace ([' '] ++ dropSpace value) := by
          rw [strip]
          exact congrArg _ heq
      _ = Span.strip isSpace (dropSpace value) := Span.strip_append_left hone
      _ = dropSpace value := Span.strip_of_trimmed htrim

end Backplane.Mcp.EventStream
