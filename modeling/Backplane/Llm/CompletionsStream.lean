import Backplane.Data.Table
import Backplane.Data.Transducer
import Backplane.Llm.OpenAIStream

/-!
# Chat completions, whole and streamed

A completion has choices, each with a message; a stream has chunks that carry pieces of the choices.
The pieces of a call are gathered in a buffer under the index of the call until the stream ends.

* `Response`, `convertResponse` : a whole completion.
* `Chunk`, `generateStream` : the deltas that the adapter makes of the chunks of a stream.
* `Choice.Carried`, `Streams` : the ways to stream a completion.
* `Plain` : nothing that one of the translations leaves out.
* `fold_eq_convert_iff` : the translations agree on the plain completions, and on no others.
-/

namespace Backplane.Chat.Completions

/-! ### A whole completion -/

/-- `content`: a string, or a list of parts. -/
inductive Content
  | text (s : String)
  /-- Parts, each with its text; `none`: not a dictionary, or one without a text. -/
  | parts (texts : List (Option String))

/-- The text of a content. -/
def Content.flat : Content → String
  | text s => s
  | parts texts => String.join (texts.map (·.getD ""))

/-- `function`, of a call -/
structure Function where
  name : String
  arguments : Option String

/-- A tool call of a message. -/
structure MessageCall where
  id : Option String
  function : Option Function

/-- `message` -/
structure Message where
  content : Option Content := none
  reasoningContent : Option String := none
  reasoning : Option String := none
  toolCalls : List MessageCall := []

/-- A choice. -/
structure Choice where
  message : Option Message
  finishReason : Option String := none

/-- `usage`; a figure may be missing. -/
structure Usage where
  promptTokens : Option ℕ := none
  completionTokens : Option ℕ := none

/-- A completion. -/
structure Response where
  choices : List Choice
  usage : Option Usage := none

/-- `_usage_from_chat`, where there is a usage -/
def Usage.tokens (u : Usage) : TokenUsage where
  inputTokens := u.promptTokens.getD 0
  outputTokens := u.completionTokens.getD 0

/-- `_usage_from_chat` -/
def usageFromChat (u : Option Usage) : TokenUsage := u.elim {} Usage.tokens

/-- `_finish_reason` -/
def finishReason : Option String → FinishReason
  | none => .stop
  | some raw =>
    if raw = "stop" then .stop
    else if raw = "length" then .length
    else if raw = "tool_calls" then .toolCalls
    else if raw = "content_filter" then .contentFilter
    else if raw = "function_call" then .toolCalls
    else .error

/-- `reasoning_content or reasoning`; `""`: neither. -/
def thought (reasoningContent reasoning : Option String) : String :=
  ((reasoningContent.filter (· ≠ "")).or reasoning).getD ""

variable (loads : String → Option Value)

/-- The arguments, if their text is well formed. -/
def loadArgs (raw : String) : Option Value := if raw = "" then some (.obj []) else loads raw

/-- Arguments that are not well formed. -/
def rawArgs (raw : String) : Value := .obj [("_raw", .str raw)]

namespace MessageCall

/-- The text of the arguments. -/
def argsRaw (c : MessageCall) : String := (c.function.bind Function.arguments).getD ""

/-- The name, if there is one. -/
def name (c : MessageCall) : String := c.function.elim "" Function.name

/-- The tool call that is made of it. -/
def convert (c : MessageCall) : ToolCall where
  id := c.id.getD ""
  name := c.name
  args := (loadArgs loads c.argsRaw).getD (rawArgs c.argsRaw)

end MessageCall

namespace Choice

/-- What the choice says. -/
def words (c : Choice) : String := (c.message.bind Message.content).elim "" Content.flat

/-- What the choice thinks. -/
def muses (c : Choice) : String := c.message.elim "" fun m => thought m.reasoningContent m.reasoning

/-- The calls of the choice. -/
def calls (c : Choice) : List MessageCall := c.message.elim [] Message.toolCalls

end Choice

/-- `_convert_response` -/
def convertResponse (r : Response) : LlmResponse :=
  match r.choices with
  | [] => { text := "", finishReason := .stop }
  | choice :: _ => {
    text := choice.words
    toolCalls := choice.calls.map (MessageCall.convert loads)
    finishReason := finishReason choice.finishReason
    usage := usageFromChat r.usage
    thoughtSummary := joinOrNone [choice.muses] }

/-! ### A stream of chunks -/

/-- `function`, of a piece of a call -/
structure FunctionPiece where
  name : Option String := none
  arguments : Option String := none

/-- A piece of a call. -/
structure CallPiece where
  index : Option ℕ
  id : Option String := none
  function : Option FunctionPiece := none

/-- `delta` -/
structure Delta where
  content : Option Content := none
  reasoningContent : Option String := none
  reasoning : Option String := none
  toolCalls : List CallPiece := []

/-- A piece of a choice. -/
structure ChoicePiece where
  /-- `index`, of the choice; the adapter does not look at it. -/
  index : ℕ
  delta : Option Delta
  finishReason : Option String := none

/-- A chunk. -/
structure Chunk where
  choices : List ChoicePiece
  usage : Option Usage := none

/-- What is gathered of a call. -/
structure CallBuffer where
  id : String := ""
  name : String := ""
  args : String := ""

/-- What a stream has brought so far. -/
structure StreamState where
  toolBuffers : Table ℕ CallBuffer := ∅
  finishReason : Option String := none
  usage : Option TokenUsage := none

/-- A value, unless it is missing or empty. -/
def given (x : Option String) (default : String) : String := (x.filter (· ≠ "")).getD default

namespace CallPiece

/-- The index of the call. -/
def key (q : CallPiece) : ℕ := q.index.getD 0

/-- The name, if the piece brings one. -/
def name (q : CallPiece) : Option String := q.function.bind FunctionPiece.name

/-- The piece of the arguments. -/
def args (q : CallPiece) : String := (q.function.bind FunctionPiece.arguments).getD ""

end CallPiece

/-- A piece of a call, put to what is there. -/
def CallBuffer.add (buf : CallBuffer) (q : CallPiece) : CallBuffer where
  id := given q.id buf.id
  name := given q.name buf.name
  args := buf.args ++ q.args

/-- A piece of a call; a buffer is made if there is none. -/
def addPiece (buffers : Table ℕ CallBuffer) (q : CallPiece) : Table ℕ CallBuffer :=
  buffers.insert q.key (((buffers.lookup q.key).getD {}).add q)

namespace ChoicePiece

/-- The text of a piece. -/
def words (p : ChoicePiece) : String := (p.delta.bind Delta.content).elim "" Content.flat

/-- The thought of a piece. -/
def muses (p : ChoicePiece) : String :=
  p.delta.elim "" fun d => thought d.reasoningContent d.reasoning

/-- The pieces of calls. -/
def calls (p : ChoicePiece) : List CallPiece := p.delta.elim [] Delta.toolCalls

/-- What the piece is answered with. -/
def emit (p : ChoicePiece) : List LlmDelta :=
  (if p.muses = "" then [] else [{ text := some p.muses, thought := true }]) ++
    if p.words = "" then [] else [{ text := some p.words }]

end ChoicePiece

/-- A piece of a choice. -/
def StreamState.add (s : StreamState) (p : ChoicePiece) : StreamState :=
  { s with
    finishReason := p.finishReason.or s.finishReason
    toolBuffers := p.calls.foldl addPiece s.toolBuffers }

/-- A chunk, in the body of `_generate_stream`. -/
def translator : Transducer StreamState Chunk LlmDelta where
  step s chunk :=
    let s' := chunk.choices.foldl StreamState.add s
    ({ s' with usage := (chunk.usage.map Usage.tokens).or s'.usage },
      chunk.choices.flatMap ChoicePiece.emit)

/-- The finish reason is that of a stream that was cut off. -/
def truncated (finish : FinishReason) : Bool :=
  finish = .length || finish = .contentFilter || finish = .error

/-- `sorted(tool_buffers.items())` -/
def sortedBuffers (buffers : Table ℕ CallBuffer) : List (ℕ × CallBuffer) :=
  (buffers.entries.map fun e => (e.1, e.2)).mergeSort fun a b => a.1 ≤ b.1

/-- The call that has been gathered; none, if it was cut off. -/
def CallBuffer.flush (buf : CallBuffer) (cut : Bool) : Option ToolCall :=
  match loadArgs loads buf.args with
  | some args => some { id := buf.id, name := buf.name, args := args }
  | none => if cut then none else some { id := buf.id, name := buf.name, args := rawArgs buf.args }

/-- What the end of the stream is answered with. -/
def StreamState.flush (s : StreamState) : List LlmDelta :=
  let finish := Completions.finishReason s.finishReason
  ((sortedBuffers s.toolBuffers).filterMap fun x => x.2.flush loads (truncated finish)).map
      (fun call => { toolCall := some call }) ++
    [{ finishReason := some finish, usage := s.usage }]

/-- `_generate_stream` -/
def generateStream (chunks : List Chunk) : List LlmDelta :=
  translator.out {} chunks ++ (translator.final {} chunks).flush loads

/-! ### The ways to stream a completion -/

/-- The pieces of the choices, in the order they come in. -/
def pieces (chunks : List Chunk) : List ChoicePiece := chunks.flatMap Chunk.choices

/-- What is given of a value is the value, and it is given unless it is empty. -/
structure Given (xs : List (Option String)) (value : String) : Prop where
  /-- Nothing else is given. -/
  only : ∀ x, some x ∈ xs → x ≠ "" → x = value
  some : value ≠ "" → some value ∈ xs

/-- The pieces make the call. -/
structure MessageCall.Carried (c : MessageCall) (qs : List CallPiece) : Prop where
  /-- There is a piece. -/
  ne_nil : qs ≠ []
  /-- The id is in one of them. -/
  id : Given (qs.map CallPiece.id) (c.id.getD "")
  /-- The name is in one of them. -/
  name : Given (qs.map CallPiece.name) c.name
  args : String.join (qs.map CallPiece.args) = c.argsRaw

/-- The pieces make the choice. -/
structure Choice.Carried (c : Choice) (ps : List ChoicePiece) : Prop where
  words : String.join (ps.map ChoicePiece.words) = c.words
  /-- What it thinks. -/
  muses : String.join (ps.map ChoicePiece.muses) = c.muses
  /-- The last finish reason is its own. -/
  finish : (ps.filterMap ChoicePiece.finishReason).getLast? = c.finishReason
  /-- The pieces of calls are pieces of its calls. -/
  keys : ∀ q ∈ ps.flatMap ChoicePiece.calls, q.key < c.calls.length
  calls : ∀ (i : ℕ) (call : MessageCall), c.calls[i]? = some call →
    call.Carried ((ps.flatMap ChoicePiece.calls).filter (·.key = i))

/-- The chunks are a stream of the completion.  The choices may come in any order, and the calls. -/
structure Streams (r : Response) (chunks : List Chunk) : Prop where
  /-- The pieces are pieces of its choices. -/
  indexes : ∀ p ∈ pieces chunks, p.index < r.choices.length
  /-- The pieces of each choice. -/
  choices : ∀ (k : ℕ) (c : Choice), r.choices[k]? = some c →
    c.Carried ((pieces chunks).filter (·.index = k))
  /-- The last usage is the completion's. -/
  usage : (chunks.filterMap Chunk.usage).getLast? = r.usage

/-! ### Where the translations agree -/

/-- The last finish reason of a stream, whichever choice it belongs to. -/
def lastFinish (chunks : List Chunk) : FinishReason :=
  finishReason ((pieces chunks).filterMap ChoicePiece.finishReason).getLast?

/-- There is nothing that one of the translations leaves out: nothing that a second choice says, no
call that is cut off, and no usage without a choice. -/
structure Plain (r : Response) (chunks : List Chunk) : Prop where
  /-- The other choices say nothing. -/
  others : ∀ c ∈ r.choices.tail, c.words = "" ∧ c.muses = ""
  /-- They do not end in another way. -/
  finish : lastFinish chunks = finishReason (r.choices.head?.bind Choice.finishReason)
  /-- No call is cut off. -/
  calls : truncated (lastFinish chunks) = true →
    ∀ c ∈ r.choices.head?, ∀ call ∈ c.calls, (loadArgs loads call.argsRaw).isSome
  /-- Nothing is counted where there is no choice. -/
  usage : r.choices = [] → usageFromChat r.usage = {}

/-! ### What the chunks bring -/

variable {loads : String → Option Value} {s : StreamState} {chunks : List Chunk}
  {ps : List ChoicePiece} {qs : List CallPiece}

theorem foldl_add_finishReason : (ps.foldl StreamState.add s).finishReason =
    (ps.filterMap ChoicePiece.finishReason).getLast?.or s.finishReason := by
  induction ps generalizing s with
  | nil => rfl
  | cons p ps ih =>
    rw [List.foldl_cons, ih, StreamState.add, getLast?_or_cons]
    cases hp : p.finishReason with
    | none => rw [List.filterMap_cons_none hp]; rfl
    | some f => rw [List.filterMap_cons_some hp]; rfl

theorem foldl_add_toolBuffers : (ps.foldl StreamState.add s).toolBuffers =
    (ps.flatMap ChoicePiece.calls).foldl addPiece s.toolBuffers := by
  induction ps generalizing s with
  | nil => rfl
  | cons p ps ih => rw [List.foldl_cons, ih, List.flatMap_cons, List.foldl_append]; rfl

theorem foldl_add_usage : (ps.foldl StreamState.add s).usage = s.usage := by
  induction ps generalizing s with
  | nil => rfl
  | cons p ps ih => rw [List.foldl_cons, ih]; rfl

theorem final_finishReason : (translator.final s chunks).finishReason =
    ((pieces chunks).filterMap ChoicePiece.finishReason).getLast?.or s.finishReason := by
  induction chunks generalizing s with
  | nil => rfl
  | cons c chunks ih =>
    rw [Transducer.final_cons, ih]
    change _ = ((c.choices ++ pieces chunks).filterMap _).getLast?.or _
    change Option.or _ (c.choices.foldl StreamState.add s).finishReason = _
    rw [foldl_add_finishReason, List.filterMap_append, List.getLast?_append, Option.or_assoc]

theorem final_toolBuffers : (translator.final s chunks).toolBuffers =
    ((pieces chunks).flatMap ChoicePiece.calls).foldl addPiece s.toolBuffers := by
  induction chunks generalizing s with
  | nil => rfl
  | cons c chunks ih =>
    rw [Transducer.final_cons, ih]
    change _ = ((c.choices ++ pieces chunks).flatMap _).foldl _ _
    change List.foldl _ (c.choices.foldl StreamState.add s).toolBuffers _ = _
    rw [foldl_add_toolBuffers, List.flatMap_append, List.foldl_append]

theorem final_usage : (translator.final s chunks).usage =
    ((chunks.filterMap Chunk.usage).getLast?.map Usage.tokens).or s.usage := by
  induction chunks generalizing s with
  | nil => rfl
  | cons c chunks ih =>
    rw [Transducer.final_cons, ih]
    change Option.or _ ((c.usage.map Usage.tokens).or (c.choices.foldl StreamState.add s).usage) = _
    rw [foldl_add_usage]
    cases hc : c.usage with
    | none => rw [List.filterMap_cons_none hc]; rfl
    | some u =>
      rw [List.filterMap_cons_some hc, List.getLast?_cons]
      cases (chunks.filterMap Chunk.usage).getLast? <;> rfl

theorem out_eq : translator.out s chunks = (pieces chunks).flatMap ChoicePiece.emit := by
  induction chunks generalizing s with
  | nil => rfl
  | cons c chunks ih =>
    rw [Transducer.out_cons, ih]
    exact List.flatMap_append.symm

theorem ChoicePiece.emit_content (p : ChoicePiece) :
    p.emit.filterMap LlmDelta.content = [p.words].filter (· ≠ "") := by
  rw [ChoicePiece.emit]
  by_cases hm : p.muses = "" <;> by_cases hw : p.words = "" <;>
    simp [hm, hw, LlmDelta.content]

theorem ChoicePiece.emit_musing (p : ChoicePiece) :
    p.emit.filterMap LlmDelta.musing = [p.muses].filter (· ≠ "") := by
  rw [ChoicePiece.emit]
  by_cases hm : p.muses = "" <;> by_cases hw : p.words = "" <;>
    simp [hm, hw, LlmDelta.musing]

theorem ChoicePiece.emit_silent (p : ChoicePiece) {α : Type} {f : LlmDelta → Option α}
    (hf : ∀ t b, f { text := some t, thought := b } = none) : p.emit.filterMap f = [] := by
  rw [ChoicePiece.emit]
  by_cases hm : p.muses = "" <;> by_cases hw : p.words = "" <;> simp [hm, hw, hf]

theorem join_filter_flatMap (f : ChoicePiece → String) :
    String.join (ps.flatMap fun p => [f p].filter (· ≠ "")) = String.join (ps.map f) := by
  rw [List.map_eq_flatMap]
  exact join_flatMap_congr fun p _ => join_filter_ne [f p]

/-! ### The buffers -/

/-- The buffer of a call is made of the pieces of the call. -/
theorem lookup_foldl_addPiece (buffers : Table ℕ CallBuffer) (i : ℕ) :
    (qs.foldl addPiece buffers).lookup i =
      (qs.filter (·.key = i)).foldl (fun x q => some ((x.getD {}).add q)) (buffers.lookup i) := by
  induction qs generalizing buffers with
  | nil => rfl
  | cons q qs ih =>
    rw [List.foldl_cons, ih, addPiece, Table.lookup_insert]
    by_cases hq : q.key = i
    · rw [if_pos hq.symm, List.filter_cons_of_pos (by simpa using hq), List.foldl_cons, hq]
    · rw [if_neg fun h => hq h.symm, List.filter_cons_of_neg (by simpa using hq)]

theorem foldl_some_add (buf : CallBuffer) :
    qs.foldl (fun x q => some ((x.getD {}).add q)) (some buf) =
      some (qs.foldl CallBuffer.add buf) := by
  induction qs generalizing buf with
  | nil => rfl
  | cons q qs ih => exact ih _

theorem foldl_add_of_ne_nil (h : qs ≠ []) :
    qs.foldl (fun x q => some ((x.getD {}).add q)) none = some (qs.foldl CallBuffer.add {}) := by
  cases qs with
  | nil => exact absurd rfl h
  | cons q qs => exact foldl_some_add _

theorem foldl_add_id (qs : List CallPiece) (buf : CallBuffer) : (qs.foldl CallBuffer.add buf).id =
    (qs.map CallPiece.id).foldl (fun acc x => given x acc) buf.id := by
  induction qs generalizing buf with
  | nil => rfl
  | cons q qs ih => exact ih _

theorem foldl_add_name (qs : List CallPiece) (buf : CallBuffer) : (qs.foldl CallBuffer.add buf).name =
    (qs.map CallPiece.name).foldl (fun acc x => given x acc) buf.name := by
  induction qs generalizing buf with
  | nil => rfl
  | cons q qs ih => exact ih _

theorem foldl_add_args (qs : List CallPiece) (buf : CallBuffer) : (qs.foldl CallBuffer.add buf).args =
    buf.args ++ String.join (qs.map CallPiece.args) := by
  induction qs generalizing buf with
  | nil => simp
  | cons q qs ih =>
    rw [List.foldl_cons, ih, List.map_cons, String.join_cons, ← String.append_assoc]
    rfl

/-- The last value that is given is the one that is given. -/
theorem foldl_given {xs : List (Option String)} {value acc : String}
    (honly : ∀ x, some x ∈ xs → x ≠ "" → x = value)
    (hacc : acc = value ∨ value ≠ "" ∧ some value ∈ xs) :
    xs.foldl (fun acc x => given x acc) acc = value := by
  induction xs generalizing acc with
  | nil => exact hacc.resolve_right fun h => absurd h.2 List.not_mem_nil
  | cons x xs ih =>
    refine ih (fun y hy => honly y (List.mem_cons_of_mem _ hy)) ?_
    cases x with
    | none => exact hacc.imp_right fun ⟨hne, hmem⟩ => ⟨hne, by simpa using hmem⟩
    | some y =>
      by_cases hy : y = ""
      · refine hacc.imp (fun h => by simpa [given, Option.filter, hy] using h)
          fun ⟨hne, hmem⟩ => ⟨hne, ?_⟩
        rcases List.mem_cons.1 hmem with h | h
        · exact absurd ((Option.some.inj h).trans hy) hne
        · exact h
      · have hvalue := honly y List.mem_cons_self hy
        exact .inl (by simpa [given, Option.filter, hy] using hvalue)

theorem Given.foldl {xs : List (Option String)} {value : String} (h : Given xs value) :
    xs.foldl (fun acc x => given x acc) "" = value := by
  refine foldl_given h.only ?_
  by_cases hv : value = ""
  · exact .inl hv.symm
  · exact .inr ⟨hv, h.some hv⟩

/-- The buffer of a call that is carried. -/
def MessageCall.buffer (c : MessageCall) : CallBuffer where
  id := c.id.getD ""
  name := c.name
  args := c.argsRaw

theorem MessageCall.Carried.foldl {c : MessageCall} (h : c.Carried qs) :
    qs.foldl CallBuffer.add {} = c.buffer := by
  have hid := (foldl_add_id qs {}).trans h.id.foldl
  have hname := (foldl_add_name qs {}).trans h.name.foldl
  have hargs := (foldl_add_args qs {}).trans (String.empty_append.trans h.args)
  cases hb : qs.foldl CallBuffer.add {}
  rw [hb] at hid hname hargs
  exact CallBuffer.mk.injEq .. ▸ ⟨hid, hname, hargs⟩

/-- **The buffers, in the order of their keys.** -/
theorem sortedBuffers_eq {buffers : Table ℕ CallBuffer} {bs : List CallBuffer}
    (h : ∀ i, buffers.lookup i = bs[i]?) : (sortedBuffers buffers).map Prod.snd = bs := by
  have hperm : (sortedBuffers buffers).Perm (buffers.entries.map fun e => (e.1, e.2)) :=
    List.mergeSort_perm _ _
  have hmem : ∀ x, x ∈ sortedBuffers buffers ↔ bs[x.1]? = some x.2 := by
    rintro ⟨i, b⟩
    rw [hperm.mem_iff, ← h i, ← Option.mem_def, AList.mem_lookup_iff, List.mem_map]
    constructor
    · rintro ⟨⟨j, c⟩, hmem, heq⟩
      obtain ⟨rfl, rfl⟩ := Prod.mk.inj heq
      exact hmem
    · exact fun hmem => ⟨⟨i, b⟩, hmem, rfl⟩
  have hnodup : ((sortedBuffers buffers).map Prod.fst).Nodup := by
    refine (hperm.map Prod.fst).nodup_iff.2 ?_
    rw [List.map_map]
    exact buffers.nodupKeys
  have hsorted : ((sortedBuffers buffers).map Prod.fst).Pairwise (· ≤ ·) := by
    refine List.pairwise_map.2 ((List.pairwise_mergeSort (fun a b c hab hbc => ?_)
      (fun a b => ?_) _).imp fun hab => by simpa using hab)
    · simp only [decide_eq_true_eq] at hab hbc ⊢
      omega
    · simp only [Bool.or_eq_true, decide_eq_true_eq]
      omega
  -- The keys are the places of the buffers, in order.
  have hkeys : (sortedBuffers buffers).map Prod.fst = List.range bs.length := by
    refine List.Perm.eq_of_pairwise (fun a b _ _ => Nat.le_antisymm) hsorted
      List.pairwise_le_range ((List.perm_ext_iff_of_nodup hnodup List.nodup_range).2 fun i => ?_)
    rw [List.mem_map, List.mem_range]
    constructor
    · rintro ⟨x, hx, rfl⟩
      exact (List.getElem?_eq_some_iff.1 ((hmem x).1 hx)).1
    · exact fun hi => ⟨(i, bs[i]), (hmem _).2 (List.getElem?_eq_getElem hi), rfl⟩
  refine List.ext_getElem? fun i => ?_
  have hlen : (sortedBuffers buffers).length = bs.length := by
    rw [← List.length_map Prod.fst, hkeys, List.length_range]
  rw [List.getElem?_map]
  by_cases hi : i < bs.length
  · have hx := List.getElem_mem (hlen.symm ▸ hi : i < (sortedBuffers buffers).length)
    have hfst : (sortedBuffers buffers)[i].1 = i := by
      have hget := congrArg (·[i]?) hkeys
      simpa [List.getElem?_range hi, hlen ▸ hi] using hget
    rw [List.getElem?_eq_getElem (hlen.symm ▸ hi), Option.map_some, ← (hmem _).1 hx, hfst]
  · rw [List.getElem?_eq_none (by omega), List.getElem?_eq_none (by omega)]
    rfl

/-! ### Every stream of every completion -/

variable {r : Response} {c : Choice} {others : List Choice}

/-- The calls that have been gathered when the stream ends. -/
def gathered (loads : String → Option Value) (chunks : List Chunk) : List ToolCall :=
  (sortedBuffers (((pieces chunks).flatMap ChoicePiece.calls).foldl addPiece ∅)).filterMap
    fun x => x.2.flush loads (truncated (lastFinish chunks))

theorem generateStream_eq : generateStream loads chunks =
    (pieces chunks).flatMap ChoicePiece.emit ++
      ((gathered loads chunks).map (fun call => { toolCall := some call }) ++
        [{ finishReason := some (lastFinish chunks)
           usage := (chunks.filterMap Chunk.usage).getLast?.map Usage.tokens }]) := by
  rw [generateStream, out_eq, StreamState.flush, final_finishReason, final_toolBuffers, final_usage,
    Option.or_none, Option.or_none]
  rfl

section FilterMap

variable {α : Type} {f : LlmDelta → Option α}

theorem filterMap_gathered (hcall : ∀ call, f { toolCall := some call } = none) :
    ((gathered loads chunks).map fun call => ({ toolCall := some call } : LlmDelta)).filterMap f =
      [] := by
  rw [List.filterMap_map]
  exact List.filterMap_eq_nil_iff.2 fun call _ => hcall call

/-- What is brought piece after piece. -/
theorem filterMap_emitted (hcall : ∀ call, f { toolCall := some call } = none)
    (hend : ∀ x u, f { finishReason := x, usage := u } = none) :
    (generateStream loads chunks).filterMap f =
      (pieces chunks).flatMap fun p => p.emit.filterMap f := by
  rw [generateStream_eq, List.filterMap_append, List.filterMap_append, List.filterMap_flatMap,
    filterMap_gathered hcall, List.filterMap_cons_none (hend _ _)]
  exact List.append_nil _

/-- What the end brings. -/
theorem filterMap_end (htext : ∀ t b, f { text := some t, thought := b } = none)
    (hcall : ∀ call, f { toolCall := some call } = none) :
    (generateStream loads chunks).filterMap f =
      (f { finishReason := some (lastFinish chunks)
           usage := (chunks.filterMap Chunk.usage).getLast?.map Usage.tokens }).toList := by
  rw [generateStream_eq, List.filterMap_append, List.filterMap_append, List.filterMap_flatMap,
    List.flatMap_eq_nil_iff.2 fun p _ => p.emit_silent htext, filterMap_gathered hcall,
    List.nil_append, List.nil_append, List.filterMap_cons]
  cases f _ <;> rfl

end FilterMap

theorem fold_text_stream : (fold (generateStream loads chunks)).text =
    String.join ((pieces chunks).map ChoicePiece.words) := by
  rw [fold_text, filterMap_emitted (fun _ => rfl) (fun _ _ => rfl),
    List.flatMap_congr fun p _ => p.emit_content, join_filter_flatMap]

theorem fold_thoughtSummary_stream : (fold (generateStream loads chunks)).thoughtSummary =
    joinOrNone ((pieces chunks).map ChoicePiece.muses) := by
  rw [fold_thoughtSummary, filterMap_emitted (fun _ => rfl) (fun _ _ => rfl),
    List.flatMap_congr fun p _ => p.emit_musing, summary_eq]
  · exact joinOrNone_eq_iff.2 (join_filter_flatMap _)
  · intro x hx
    obtain ⟨p, -, hx⟩ := List.mem_flatMap.1 hx
    simpa using (List.mem_filter.1 hx).2

theorem fold_toolCalls_stream :
    (fold (generateStream loads chunks)).toolCalls = gathered loads chunks := by
  rw [fold_toolCalls, generateStream_eq, List.filterMap_append, List.filterMap_append,
    List.filterMap_flatMap, List.flatMap_eq_nil_iff.2 fun p _ => p.emit_silent fun _ _ => rfl,
    List.nil_append, List.filterMap_map]
  exact (List.append_nil _).trans List.filterMap_some

theorem fold_finishReason_stream :
    (fold (generateStream loads chunks)).finishReason = lastFinish chunks := by
  rw [fold_finishReason, filterMap_end (fun _ _ => rfl) (fun _ => rfl)]
  rfl

theorem fold_usage_stream : (fold (generateStream loads chunks)).usage =
    usageFromChat (chunks.filterMap Chunk.usage).getLast? := by
  rw [fold_usage, filterMap_end (fun _ _ => rfl) (fun _ => rfl), usageFromChat]
  cases (chunks.filterMap Chunk.usage).getLast? with
  | none => rfl
  | some u => exact TokenUsage.zero_max _

theorem fold_rest_stream : (fold (generateStream loads chunks)).thoughtSignature = none ∧
    (fold (generateStream loads chunks)).reasoningBlocks = [] := by
  rw [fold_thoughtSignature, fold_reasoningBlocks,
    filterMap_end (fun _ _ => rfl) (fun _ => rfl), filterMap_end (fun _ _ => rfl) (fun _ => rfl)]
  exact ⟨rfl, rfl⟩

/-- What the other choices say is what their pieces say. -/
theorem Streams.others_iff (h : Streams r chunks) {f : ChoicePiece → String} {g : Choice → String}
    (hfg : ∀ (k : ℕ) (c : Choice), r.choices[k]? = some c →
      String.join (((pieces chunks).filter (·.index = k)).map f) = g c) :
    (∀ p ∈ pieces chunks, decide (p.index = 0) = false → f p = "") ↔
      ∀ c ∈ r.choices.tail, g c = "" := by
  constructor
  · intro hp c hc
    obtain ⟨k, hk⟩ := List.mem_iff_getElem?.1 hc
    rw [List.getElem?_tail] at hk
    rw [← hfg (k + 1) c hk, join_eq_empty]
    intro x hx
    obtain ⟨p, hp', rfl⟩ := List.mem_map.1 hx
    obtain ⟨hmem, hindex⟩ := List.mem_filter.1 hp'
    have hk' : p.index = k + 1 := by simpa using hindex
    exact hp p hmem (by simp [hk'])
  · intro hc p hp hindex
    have hne : p.index ≠ 0 := by simpa using hindex
    have hlt := h.indexes p hp
    have hget := List.getElem?_eq_getElem hlt
    have hempty := hfg p.index _ hget
    have htail : r.choices[p.index] ∈ r.choices.tail := by
      refine List.mem_iff_getElem?.2 ⟨p.index - 1, ?_⟩
      rw [List.getElem?_tail, Nat.sub_add_cancel (Nat.pos_of_ne_zero hne), hget]
    rw [hc _ htail, join_eq_empty] at hempty
    exact hempty _ (List.mem_map_of_mem (List.mem_filter.2 ⟨hp, by simp⟩))

/-- The calls are the first choice's, if no other choice makes any. -/
theorem Streams.calls_eq (h : Streams r chunks) (hothers : ∀ c ∈ r.choices.tail, c.calls = []) :
    (pieces chunks).flatMap ChoicePiece.calls =
      ((pieces chunks).filter (·.index = 0)).flatMap ChoicePiece.calls := by
  refine (flatMap_filter fun p hp hindex => ?_).symm
  have hne : p.index ≠ 0 := by simpa using hindex
  have hlt := h.indexes p hp
  have hget := List.getElem?_eq_getElem hlt
  have htail : r.choices[p.index] ∈ r.choices.tail := by
    refine List.mem_iff_getElem?.2 ⟨p.index - 1, ?_⟩
    rw [List.getElem?_tail, Nat.sub_add_cancel (Nat.pos_of_ne_zero hne), hget]
  refine List.eq_nil_iff_forall_not_mem.2 fun q hq => ?_
  have hkey := (h.choices p.index _ hget).keys q
    (List.mem_flatMap.2 ⟨p, List.mem_filter.2 ⟨hp, by simp⟩, hq⟩)
  rw [hothers _ htail] at hkey
  exact absurd hkey (Nat.not_lt_zero _)

/-- The buffers of a choice are its calls'. -/
theorem Choice.Carried.lookup (h : c.Carried ps) (i : ℕ) :
    ((ps.flatMap ChoicePiece.calls).foldl addPiece ∅).lookup i =
      (c.calls.map MessageCall.buffer)[i]? := by
  rw [lookup_foldl_addPiece, AList.lookup_empty, List.getElem?_map]
  cases hi : c.calls[i]? with
  | some call => rw [foldl_add_of_ne_nil (h.calls i call hi).ne_nil, (h.calls i call hi).foldl]; rfl
  | none =>
    have hnil : (ps.flatMap ChoicePiece.calls).filter (·.key = i) = [] := by
      refine List.filter_eq_nil_iff.2 fun q hq hkey => ?_
      have hlt := h.keys q hq
      have hle := List.getElem?_eq_none_iff.1 hi
      have hkey' : q.key = i := by simpa using hkey
      omega
    rw [hnil]
    rfl

/-- A call is flushed as it is converted, unless it is cut off. -/
theorem MessageCall.flush_buffer (call : MessageCall) (cut : Bool) :
    call.buffer.flush loads cut =
      if cut && (loadArgs loads call.argsRaw).isNone then none else some (call.convert loads) := by
  rw [CallBuffer.flush, MessageCall.buffer, MessageCall.convert]
  cases loadArgs loads call.argsRaw <;> cases cut <;> rfl

theorem filterMap_flush_eq_iff {calls : List MessageCall} {cut : Bool} :
    calls.filterMap (fun call => call.buffer.flush loads cut) =
        calls.map (MessageCall.convert loads) ↔
      (cut = true → ∀ call ∈ calls, (loadArgs loads call.argsRaw).isSome) := by
  have hflush : ∀ call : MessageCall, (call.buffer.flush loads cut).toList =
      [call.convert loads] ↔ (cut = true → (loadArgs loads call.argsRaw).isSome) := by
    intro call
    rw [call.flush_buffer]
    cases loadArgs loads call.argsRaw <;> cases cut <;> simp
  rw [List.filterMap_eq_flatMap_toList, List.map_eq_flatMap, flatMap_eq_iff_of_sublist]
  · constructor
    · exact fun h hcut call hcall => (hflush call).1 (h call hcall) hcut
    · exact fun h call hcall => (hflush call).2 fun hcut => h hcut call hcall
  · intro call _
    rw [call.flush_buffer]
    split_ifs
    · exact List.nil_sublist _
    · exact List.Sublist.refl _

theorem gathered_eq (h : Streams r chunks) (hr : r.choices = c :: others)
    (hothers : ∀ c ∈ others, c.calls = []) :
    gathered loads chunks = c.calls.filterMap fun call =>
      call.buffer.flush loads (truncated (lastFinish chunks)) := by
  have hzero := h.choices 0 c (by rw [hr]; rfl)
  have hbuffers : (sortedBuffers (((pieces chunks).flatMap ChoicePiece.calls).foldl
      addPiece ∅)).map Prod.snd = c.calls.map MessageCall.buffer := by
    rw [h.calls_eq (by rw [hr]; exact hothers)]
    exact sortedBuffers_eq hzero.lookup
  have hmap := congrArg (List.filterMap fun b : CallBuffer =>
    b.flush loads (truncated (lastFinish chunks))) hbuffers
  rw [List.filterMap_map, List.filterMap_map] at hmap
  exact hmap

/-- **Streaming agrees with the whole completion exactly where it is plain**, if no choice but the
first makes calls. -/
theorem fold_eq_convert_iff (h : Streams r chunks) (hothers : ∀ c ∈ r.choices.tail, c.calls = []) :
    fold (generateStream loads chunks) = convertResponse loads r ↔ Plain loads r chunks := by
  have husage : (fold (generateStream loads chunks)).usage = usageFromChat r.usage := by
    rw [fold_usage_stream, h.usage]
  cases hr : r.choices with
  | nil =>
    -- Without a choice there is no piece.
    have hpieces : pieces chunks = [] := List.eq_nil_iff_forall_not_mem.2 fun p hp => by
      have hlt := h.indexes p hp
      rw [hr] at hlt
      exact absurd hlt (Nat.not_lt_zero _)
    have hlast : lastFinish chunks = .stop := by rw [lastFinish, hpieces]; rfl
    have hcalls : gathered loads chunks = [] := by
      rw [gathered, hpieces]
      simp [sortedBuffers]
    rw [convertResponse, hr, LlmResponse.ext_iff, fold_text_stream, fold_toolCalls_stream,
      fold_finishReason_stream, husage, fold_thoughtSummary_stream, hpieces, hlast, hcalls]
    constructor
    · rintro ⟨-, -, -, hu, -⟩
      exact ⟨by rw [hr]; simp, by rw [hr, hlast]; rfl, by rw [hr]; simp, fun _ => hu⟩
    · intro hplain
      exact ⟨rfl, rfl, rfl, hplain.usage hr, rfl, fold_rest_stream⟩
  | cons c others =>
    rw [hr] at hothers
    have hzero := h.choices 0 c (by rw [hr]; rfl)
    have htext : (fold (generateStream loads chunks)).text = c.words ↔
        ∀ c ∈ others, c.words = "" := by
      have hiff := h.others_iff fun k c hk => (h.choices k c hk).words
      rw [hr] at hiff
      rw [fold_text_stream, ← hzero.words, eq_comm]
      exact join_filter_eq_iff.trans hiff
    have hsummary : (fold (generateStream loads chunks)).thoughtSummary = joinOrNone [c.muses] ↔
        ∀ c ∈ others, c.muses = "" := by
      have hiff := h.others_iff fun k c hk => (h.choices k c hk).muses
      rw [hr] at hiff
      have hone : String.join [c.muses] = c.muses := by simp
      rw [fold_thoughtSummary_stream, joinOrNone_eq_iff, hone, ← hzero.muses, eq_comm]
      exact join_filter_eq_iff.trans hiff
    have hcalls : (fold (generateStream loads chunks)).toolCalls =
        c.calls.map (MessageCall.convert loads) ↔ (truncated (lastFinish chunks) = true →
          ∀ call ∈ c.calls, (loadArgs loads call.argsRaw).isSome) := by
      rw [fold_toolCalls_stream, gathered_eq h hr hothers, filterMap_flush_eq_iff]
    rw [convertResponse, hr, LlmResponse.ext_iff]
    change _ = c.words ∧ _ = _ ∧ _ = finishReason c.finishReason ∧ _ = usageFromChat r.usage ∧
      _ = joinOrNone [c.muses] ∧ _ ↔ _
    rw [fold_finishReason_stream]
    constructor
    · rintro ⟨ht, hc, hf, -, hs, -⟩
      refine ⟨fun d hd => ?_, by rw [hr]; exact hf, fun hcut d hd => ?_, fun hnil => ?_⟩
      · rw [hr] at hd
        exact ⟨htext.1 ht d hd, hsummary.1 hs d hd⟩
      · rw [hr] at hd
        obtain rfl := Option.some.inj hd
        exact hcalls.1 hc hcut
      · exact absurd (hr.symm.trans hnil) (List.cons_ne_nil _ _)
    · rintro ⟨hsilent, hf, hc, -⟩
      rw [hr] at hsilent hf
      refine ⟨htext.2 fun d hd => (hsilent d hd).1, hcalls.2 fun hcut => hc hcut c ?_, hf, husage,
        hsummary.2 fun d hd => (hsilent d hd).2, fold_rest_stream⟩
      rw [hr]
      rfl

end Backplane.Chat.Completions

namespace Backplane.Chat

/-- **Streaming agrees with the whole response exactly where nothing is left out**, for responses and
for chat completions. -/
theorem openAI_streams_agree_iff (loads : String → Option Value) :
    (∀ r events thoughts isCompleted body, OpenAI.Streams r events thoughts isCompleted body →
      (fold (OpenAI.generateStream loads events) = OpenAI.convertResponse loads r ↔
        OpenAI.Plain r thoughts isCompleted body)) ∧
    ∀ r chunks, Completions.Streams r chunks → (∀ c ∈ r.choices.tail, c.calls = []) →
      (fold (Completions.generateStream loads chunks) = Completions.convertResponse loads r ↔
        Completions.Plain loads r chunks) :=
  ⟨fun _ _ _ _ _ h => OpenAI.fold_eq_convert_iff h,
    fun _ _ h hothers => Completions.fold_eq_convert_iff h hothers⟩

namespace Sample

/-- What the parser makes of one text. -/
def parseCity (text : String) : Option Value :=
  if text = "\x7b\"city\": \"Oslo\"\x7d" then some (.obj [("city", .str "Oslo")]) else none

section Responses

open OpenAI

def forecast (callId : String) : OutputItem :=
  .functionCall callId "weather" "\x7b\"city\": \"Oslo\"\x7d"

def moment : OutputItem := .message [.outputText "One moment."]

/-- A message and two calls. -/
def forecasts : Response where
  output := [moment, forecast "call_1", forecast "call_2"]
  usage := some { inputTokens := some 12, outputTokens := some 30 }

/-- The pieces of the arguments of a call. -/
def argsPieces : List String := ["\x7b\"city\":", " \"Oslo\"\x7d"]

/-- The message, then the calls: the pieces of their arguments interleave. -/
def forecastsBody : List Event :=
  [.outputItemAdded 0 moment.start, .outputTextDelta 0 "One ", .outputTextDelta 0 "moment.",
    .outputItemDone 0 moment,
    .outputItemAdded 1 (forecast "call_1").start, .outputItemAdded 2 (forecast "call_2").start,
    .argumentsDelta 1 "\x7b\"city\":", .argumentsDelta 2 "\x7b\"city\":",
    .argumentsDelta 1 " \"Oslo\"\x7d", .argumentsDelta 2 " \"Oslo\"\x7d",
    .argumentsDone 1, .outputItemDone 1 (forecast "call_1"),
    .argumentsDone 2, .outputItemDone 2 (forecast "call_2")]

/-- The events of the stream. -/
def forecastsEvents : List Event :=
  .other "response.created" :: forecastsBody ++ [.completed forecasts]

theorem forecasts_streams :
    OpenAI.Streams forecasts forecastsEvents (fun _ => []) true forecastsBody where
  shape := rfl
  indexed := by simp [forecastsBody, Event.index, forecasts]
  items := by
    have hcall : ∀ i callId, (forecast callId).Inside i []
        (argsPieces.map (.argumentsDelta i) ++ [.argumentsDone i]) :=
      fun i callId => .functionCall argsPieces
    intro i item hi
    obtain _ | _ | _ | i := i
    · obtain rfl := Option.some.inj hi
      exact ⟨_, _, .message (.outputText ["One ", "moment."] .nil), .inl rfl, rfl⟩
    · obtain rfl := Option.some.inj hi
      exact ⟨_, _, hcall 1 "call_1", .inl rfl, rfl⟩
    · obtain rfl := Option.some.inj hi
      exact ⟨_, _, hcall 2 "call_2", .inl rfl, rfl⟩
    · exact absurd hi (by simp [forecasts])
  order := by decide

theorem forecasts_plain : OpenAI.Plain forecasts (fun _ => []) true forecastsBody where
  refusals := by decide
  thoughts := by decide
  closed := by
    intro i item hi
    match i, hi with
    | 0, hi =>
      obtain rfl := Option.some.inj hi
      exact fun e he => absurd he (by simp [moment, OutputItem.close])
    | 1, hi =>
      obtain rfl := Option.some.inj hi
      intro e he
      obtain rfl := Option.some.inj he
      simp [forecastsBody]
    | 2, hi =>
      obtain rfl := Option.some.inj hi
      intro e he
      obtain rfl := Option.some.inj he
      simp [forecastsBody]
    | _ + 3, hi => exact absurd hi (by simp [forecasts])
  ends := .inl rfl

def refused : OutputItem := .message [.refusal "I cannot help with that."]

def refusal : Response where
  output := [refused]

/-- The events of the refusal. -/
def refusalBody : List Event :=
  [.outputItemAdded 0 refused.start, .refusalDelta 0 "I cannot help with that.",
    .outputItemDone 0 refused]

theorem refusal_streams :
    OpenAI.Streams refusal (refusalBody ++ [.completed refusal]) (fun _ => []) true
      refusalBody where
  shape := rfl
  indexed := by simp [refusalBody, Event.index, refusal]
  items := by
    intro i item hi
    obtain _ | i := i
    · obtain rfl := Option.some.inj hi
      exact ⟨_, _, .message (.refusal ["I cannot help with that."] .nil), .inl rfl, rfl⟩
    · exact absurd hi (by simp [refusal])
  order := by decide

end Responses

section Completions

open Completions

/-- A completion with a call. -/
def completion : Completions.Response where
  choices := [{
    message := some {
      content := some (.text "One moment.")
      toolCalls := [{
        id := some "call_1"
        function := some
          { name := "weather", arguments := some "\x7b\"city\": \"Oslo\"\x7d" } }] }
    finishReason := some "tool_calls" }]

def chunk (delta : Delta) (finish : Option String) : Chunk where
  choices := [{ index := 0, delta := some delta, finishReason := finish }]

def callStart : CallPiece where
  index := some 0
  id := some "call_1"
  function := some { name := some "weather", arguments := some "\x7b\"city\":" }

def callRest : CallPiece where
  index := some 0
  function := some { arguments := some " \"Oslo\"\x7d" }

def completionChunks : List Chunk :=
  [chunk { content := some (.text "One ") } none, chunk { content := some (.text "moment.") } none,
    chunk { toolCalls := [callStart] } none, chunk { toolCalls := [callRest] } none,
    chunk {} (some "tool_calls")]

theorem completion_streams : Completions.Streams completion completionChunks where
  indexes := by decide
  choices := by
    intro k c hk
    match k, hk with
    | 0, hk =>
      obtain rfl := Option.some.inj hk
      refine ⟨by decide, by decide, by decide, by decide, fun i call hi => ?_⟩
      match i, hi with
      | 0, hi =>
        obtain rfl := Option.some.inj hi
        have hpieces : (((pieces completionChunks).filter (·.index = 0)).flatMap
            ChoicePiece.calls).filter (·.key = 0) = [callStart, callRest] := rfl
        rw [hpieces]
        exact ⟨List.cons_ne_nil _ _, ⟨by simp [callStart, callRest], by decide⟩,
          ⟨by simp [callStart, callRest, CallPiece.name, MessageCall.name], by decide⟩, by decide⟩
      | _ + 1, hi => exact absurd hi (by simp [Choice.calls])
    | _ + 1, hk => exact absurd hk (by simp [completion])
  usage := rfl

theorem completion_plain : Completions.Plain parseCity completion completionChunks where
  others := by simp [completion]
  finish := rfl
  calls := by decide
  usage := by simp [completion]

end Completions

end Sample

/-- A response with two calls that interleave, and a completion with a call. -/
theorem openAI_streams_agree_forecasts :
    fold (OpenAI.generateStream Sample.parseCity Sample.forecastsEvents) =
        OpenAI.convertResponse Sample.parseCity Sample.forecasts ∧
      fold (Completions.generateStream Sample.parseCity Sample.completionChunks) =
        Completions.convertResponse Sample.parseCity Sample.completion :=
  have h := openAI_streams_agree_iff Sample.parseCity
  ⟨(h.1 _ _ _ _ _ Sample.forecasts_streams).2 Sample.forecasts_plain,
    (h.2 _ _ Sample.completion_streams (by simp [Sample.completion])).2 Sample.completion_plain⟩

/-- **A refusal is streamed as text, and left out of the whole response.** -/
theorem openAI_stream_keeps_refusal : ¬ ∀ (loads : String → Option Value) (r : OpenAI.Response)
    (events : List OpenAI.Event) (thoughts : ℕ → List String) (isCompleted : Bool)
    (body : List OpenAI.Event), OpenAI.Streams r events thoughts isCompleted body →
      fold (OpenAI.generateStream loads events) = OpenAI.convertResponse loads r := by
  intro h
  have htext := congrArg LlmResponse.text (h Sample.parseCity _ _ _ _ _ Sample.refusal_streams)
  have hstream : (fold (OpenAI.generateStream Sample.parseCity
      (Sample.refusalBody ++ [.completed Sample.refusal]))).text = "I cannot help with that." := rfl
  have hwhole : (OpenAI.convertResponse Sample.parseCity Sample.refusal).text = "" := rfl
  rw [hstream, hwhole] at htext
  exact absurd htext (by decide)

end Backplane.Chat
