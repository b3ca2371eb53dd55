import Backplane.Data.Table
import Backplane.Data.Transducer
import Backplane.Llm.Neutral

/-!
# Anthropic responses, whole and streamed

A message arrives whole, or as a stream of events: each content block starts, is delivered in deltas
and stops; usage and stop reason follow.  The adapter has a translation for either.

* `Message`, `convertResponse` : a whole message.
* `Event`, `generateStream` : the events, and the deltas that the adapter makes of them.
* `Streams` : the ways in which the events of a message may come.
* `stream_agrees` : folded, the deltas are the response that the whole message gives.
-/

namespace Backplane.Chat.Anthropic

/-! ### A whole message -/

/-- `usage`; a figure may be missing. -/
structure Usage where
  inputTokens : Option ℕ := none
  outputTokens : Option ℕ := none
  cacheReadInputTokens : Option ℕ := none
  cacheCreationInputTokens : Option ℕ := none

/-- `_usage_from_anthropic` -/
def Usage.tokens (u : Usage) : TokenUsage where
  inputTokens := u.inputTokens.getD 0
  outputTokens := u.outputTokens.getD 0
  cacheReadTokens := u.cacheReadInputTokens.getD 0
  cacheWriteTokens := u.cacheCreationInputTokens.getD 0

/-- A content block. -/
inductive Block
  | text (text : String)
  | toolUse (id name : String) (input : Dict)
  | thinking (thinking signature : String)
  | redactedThinking (data : String)
  /-- A block of another type, such as `server_tool_use`. -/
  | other (type : String)

/-- A message. -/
structure Message where
  content : List Block
  stopReason : Option String
  usage : Option Usage

/-- `_STOP_REASON_MAP` -/
def stopReasonMap : List (String × FinishReason) :=
  [("end_turn", .stop), ("stop_sequence", .stop), ("max_tokens", .length),
    ("tool_use", .toolCalls), ("pause_turn", .stop), ("refusal", .contentFilter),
    ("model_context_window_exceeded", .length)]

/-- `_map_stop_reason` -/
def mapStopReason : Option String → FinishReason
  | none => .stop
  | some r => if r = "" then .stop else (stopReasonMap.lookup r).getD .stop

/-- A `thinking` block, as a dictionary. -/
def thinkingPart (thinking signature : String) : Part where
  type := some "thinking"
  rest := [("thinking", .str thinking), ("signature", .str signature)]

/-- A `redacted_thinking` block, as a dictionary. -/
def redactedPart (data : String) : Part where
  type := some "redacted_thinking"
  rest := [("data", .str data)]

namespace Block

/-- The text of the block. -/
def said : Block → List String
  | text t => if t = "" then [] else [t]
  | _ => []

/-- The tool call of the block. -/
def call : Block → List ToolCall
  | toolUse id name input => [{ id := id, name := name, args := .obj input }]
  | _ => []

/-- `_block_to_dict`, for the blocks in `_REASONING_BLOCK_TYPES` -/
def reasoning : Block → List Part
  | thinking th sig => [thinkingPart th sig]
  | redactedThinking data => [redactedPart data]
  | _ => []

/-- The visible thoughts of the block. -/
def musing : Block → List String
  | thinking th _ => if th = "" then [] else [th]
  | _ => []

end Block

/-- `_convert_response` -/
def convertResponse (m : Message) : LlmResponse where
  text := String.join (m.content.flatMap Block.said)
  toolCalls := m.content.flatMap Block.call
  finishReason := mapStopReason m.stopReason
  usage := m.usage.elim {} Usage.tokens
  thoughtSummary := joinOrNone (m.content.flatMap Block.musing)
  reasoningBlocks := m.content.flatMap Block.reasoning

/-! ### A stream of events -/

/-- A block as it starts: the content is still to come. -/
inductive BlockStart
  | text
  | toolUse (id name : String)
  | thinking
  /-- `redacted_thinking`, which is complete. -/
  | redactedThinking (data : String)
  | other (type : String)

/-- A piece of a block. -/
inductive Delta
  | text (text : String)
  | thinking (thinking : String)
  | signature (signature : String)
  | inputJson (partialJson : String)
  | other (type : String)

/-- An event. -/
inductive Event
  | messageStart (usage : Option Usage)
  | contentBlockStart (index : ℕ) (block : BlockStart)
  | contentBlockDelta (index : ℕ) (delta : Delta)
  | contentBlockStop (index : ℕ)
  | messageDelta (stopReason : Option String) (usage : Option Usage)
  /-- `ping`, `message_stop`, `error`, or an event of a type not known. -/
  | other (type : String)

/-- What is kept about a block that has started. -/
inductive BlockState
  | toolUse (id name : String) (partialJson : List String)
  | thinking (chunks : List String) (signature : String)
  | redactedThinking (data : String)
  /-- Nothing but the type. -/
  | plain

/-- What the translation keeps. -/
structure StreamState where
  blocks : Table ℕ BlockState := ∅
  startInputTokens : ℕ := 0
  startCacheRead : ℕ := 0
  startCacheWrite : ℕ := 0

/-- The state of a block that starts. -/
def BlockStart.state : BlockStart → BlockState
  | toolUse id name => .toolUse id name []
  | thinking => .thinking [] ""
  | redactedThinking data => .redactedThinking data
  | text | other _ => .plain

/-- What a delta adds to the state of its block. -/
def BlockState.add : BlockState → Delta → BlockState
  | .thinking chunks sig, .thinking chunk => .thinking (chunks ++ [chunk]) sig
  | .thinking chunks _, .signature sig => .thinking chunks sig
  | .toolUse id name parts, .inputJson part => .toolUse id name (parts ++ [part])
  | s, _ => s

/-- What a delta is answered with. -/
def Delta.emit : Delta → List LlmDelta
  | text t => if t = "" then [] else [{ text := some t }]
  | thinking t => if t = "" then [] else [{ text := some t, thought := true }]
  | _ => []

/-- The arguments of a call: what the parts make together, if it is a dictionary. -/
def parseArgs (loads : String → Option Value) (text : String) : Value :=
  if text = "" then .obj []
  else match loads text with
    | some (.obj fields) => .obj fields
    | _ => .obj []

/-- What a block that stops is answered with. -/
def BlockState.close (loads : String → Option Value) : BlockState → List LlmDelta
  | .toolUse id name parts =>
    [{ toolCall := some { id := id, name := name, args := parseArgs loads (String.join parts) } }]
  | .thinking chunks sig => [{ reasoningBlock := some (thinkingPart (String.join chunks) sig) }]
  | .redactedThinking data => [{ reasoningBlock := some (redactedPart data) }]
  | .plain => []

/-- `x or y`, of figures -/
def orFigure (x y : ℕ) : ℕ := if x = 0 then y else x

/-- Usage at the end of a message, with the figures that only its start reports. -/
def StreamState.backfill (s : StreamState) (u : TokenUsage) : TokenUsage :=
  { u with
    inputTokens := orFigure u.inputTokens s.startInputTokens
    cacheReadTokens := orFigure u.cacheReadTokens s.startCacheRead
    cacheWriteTokens := orFigure u.cacheWriteTokens s.startCacheWrite }

/-- The finish reason that a `message_delta` brings. -/
def finishOf : Option String → Option FinishReason
  | none => none
  | some r => if r = "" then none else some (mapStopReason (some r))

/-- The state after a delta; one of another type is ignored. -/
def StreamState.addDelta (s : StreamState) (i : ℕ) : Delta → StreamState
  | .other _ => s
  | d => { s with blocks := s.blocks.update i fun b => b.add d }

/-- `_generate_stream`, one event -/
def stepEvent (loads : String → Option Value) (s : StreamState) :
    Event → StreamState × List LlmDelta
  | .messageStart none => (s, [])
  | .messageStart (some usage) =>
    let u := usage.tokens
    ({ s with
        startInputTokens := u.inputTokens
        startCacheRead := u.cacheReadTokens
        startCacheWrite := u.cacheWriteTokens }, [{ usage := some u }])
  | .contentBlockStart i block => ({ s with blocks := s.blocks.insert i block.state }, [])
  | .contentBlockDelta i d => (s.addDelta i d, d.emit)
  | .contentBlockStop i =>
    ({ s with blocks := s.blocks.erase i },
      (s.blocks.lookup i).elim [] (BlockState.close loads))
  | .messageDelta stopReason usage =>
    let finish := finishOf stopReason
    if finish.isSome || usage.isSome then
      (s, [{ finishReason := finish, usage := usage.map fun u => s.backfill u.tokens }])
    else (s, [])
  | .other _ => (s, [])

/-- The translation. -/
def translator (loads : String → Option Value) : Transducer StreamState Event LlmDelta where
  step := stepEvent loads

/-- `_generate_stream` -/
def generateStream (loads : String → Option Value) (events : List Event) : List LlmDelta :=
  (translator loads).out {} events

/-! ### The ways to stream a message -/

/-- How the block starts. -/
def Block.start : Block → BlockStart
  | text _ => .text
  | toolUse id name _ => .toolUse id name
  | thinking _ _ => .thinking
  | redactedThinking data => .redactedThinking data
  | other type => .other type

/-- The text of a `thinking_delta`. -/
def Delta.thought : Delta → Option String
  | thinking t => some t
  | _ => none

/-- The signature of a `signature_delta`. -/
def Delta.sig : Delta → Option String
  | signature sig => some sig
  | _ => none

/-- The deltas deliver the block: its text, its thoughts or the JSON text of its input in pieces, and
its signature at some point. -/
def Block.Delivers (loads : String → Option Value) : Block → List Delta → Prop
  | text t, ds => ∃ chunks : List String, ds = chunks.map .text ∧ String.join chunks = t
  | toolUse _ _ input, ds => ∃ chunks : List String, ds = chunks.map .inputJson ∧
      (String.join chunks = "" ∧ input = [] ∨
        String.join chunks ≠ "" ∧ loads (String.join chunks) = some (.obj input))
  | thinking th sig, ds => (∀ d ∈ ds, d.thought.isSome ∨ d.sig.isSome) ∧
      String.join (ds.filterMap Delta.thought) = th ∧ (ds.filterMap Delta.sig).getLast?.getD "" = sig
  | redactedThinking _, ds => ds = []
  | other _, ds => ∃ chunks : List String, ds = chunks.map .inputJson

/-- The events deliver the blocks, one after the other, numbered from `i` on. -/
inductive Delivered (loads : String → Option Value) : ℕ → List Block → List Event → Prop
  | nil (i : ℕ) : Delivered loads i [] []
  | cons {i : ℕ} {b : Block} {bs : List Block} {ds : List Delta} {events : List Event}
      (hb : b.Delivers loads ds) (h : Delivered loads (i + 1) bs events) :
      Delivered loads i (b :: bs) (.contentBlockStart i b.start ::
        ds.map (.contentBlockDelta i) ++ .contentBlockStop i :: events)

/-- The event is of a type that the grammar gives a meaning to. -/
def Event.known : Event → Bool
  | .other _ => false
  | .contentBlockDelta _ (.other _) => false
  | _ => true

/-- The events stream the message: it starts, its blocks are delivered, and one or more
`message_delta` events bring the stop reason and the usage counted so far.  Events of other types may
come at any point. -/
structure Streams (loads : String → Option Value) (m : Message) (events : List Event)
    (start : Option Usage) (body : List Event) (ends : List (Option String × Option Usage)) :
    Prop where
  /-- The known events, in order. -/
  shape : events.filter Event.known =
    .messageStart start :: body ++ ends.map fun x => .messageDelta x.1 x.2
  /-- The blocks are delivered. -/
  blocks : Delivered loads 0 m.content body
  /-- The last stop reason is the message's. -/
  stop : m.stopReason = (ends.filterMap Prod.fst).getLast?
  /-- A stop reason is not empty. -/
  named : ∀ r ∈ ends.filterMap Prod.fst, r ≠ ""
  /-- Usage is counted along the way. -/
  usage : TokenUsage.Cumulative ((start.toList ++ ends.filterMap Prod.snd).map Usage.tokens)
    (m.usage.elim {} Usage.tokens)

/-! ### What a delivered block is answered with -/

variable {loads : String → Option Value} {s : StreamState} {i : ℕ} {b : Block} {ds : List Delta}

/-- What the start of the message has reported. -/
def StreamState.figures (s : StreamState) : ℕ × ℕ × ℕ :=
  (s.startInputTokens, s.startCacheRead, s.startCacheWrite)

theorem deltas_out (ds : List Delta) :
    (translator loads).out s (ds.map (.contentBlockDelta i)) = ds.flatMap Delta.emit := by
  induction ds generalizing s with
  | nil => rfl
  | cons d ds ih => rw [List.map_cons, Transducer.out_cons, ih, List.flatMap_cons]; rfl

variable (loads) in
theorem deltas_final (ds : List Delta) {st : BlockState} (h : s.blocks.lookup i = some st) :
    ((translator loads).final s (ds.map (.contentBlockDelta i))).blocks.lookup i =
        some (ds.foldl BlockState.add st) ∧
      ((translator loads).final s (ds.map (.contentBlockDelta i))).figures = s.figures := by
  induction ds generalizing s st with
  | nil => exact ⟨h, rfl⟩
  | cons d ds ih =>
    have hnext : (s.addDelta i d).blocks.lookup i = some (st.add d) ∧
        (s.addDelta i d).figures = s.figures := by
      cases d with
      | other type => cases st <;> exact ⟨h, rfl⟩
      | _ =>
        refine ⟨?_, rfl⟩
        rw [StreamState.addDelta, Table.lookup_update, if_pos rfl, h, Option.map_some]
        simp
    obtain ⟨hlookup, hfigures⟩ := ih hnext.1
    exact ⟨hlookup, hfigures.trans hnext.2⟩

variable (loads) in
/-- The outputs for a block: the deltas' and what it is closed with. -/
theorem block_out (b : BlockStart) (ds : List Delta) (rest : List Event) :
    ∃ s', s'.figures = s.figures ∧
      (translator loads).out s (.contentBlockStart i b :: ds.map (.contentBlockDelta i) ++
        .contentBlockStop i :: rest) =
          ds.flatMap Delta.emit ++ (ds.foldl BlockState.add b.state).close loads ++
            (translator loads).out s' rest ∧
      (translator loads).final s (.contentBlockStart i b :: ds.map (.contentBlockDelta i) ++
        .contentBlockStop i :: rest) = (translator loads).final s' rest := by
  obtain ⟨hblock, hfigures⟩ := deltas_final loads (i := i)
    (s := { s with blocks := s.blocks.insert i b.state }) ds (AList.lookup_insert _)
  generalize hs₁ : (translator loads).final { s with blocks := s.blocks.insert i b.state }
    (ds.map (.contentBlockDelta i)) = s₁ at hblock hfigures
  have hstop : (translator loads).step s₁ (.contentBlockStop i) =
      ({ s₁ with blocks := s₁.blocks.erase i },
        (ds.foldl BlockState.add b.state).close loads) := by
    change (_, _) = _
    rw [hblock, Option.elim_some]
  refine ⟨{ s₁ with blocks := s₁.blocks.erase i }, hfigures, ?_, ?_⟩
  · rw [List.cons_append, Transducer.out_cons, Transducer.out_append]
    change [] ++ ((translator loads).out { s with blocks := s.blocks.insert i b.state } _ ++
      (translator loads).out ((translator loads).final
        { s with blocks := s.blocks.insert i b.state } _) _) = _
    rw [deltas_out, hs₁, Transducer.out_cons, hstop, List.nil_append, List.append_assoc]
  · rw [List.cons_append, Transducer.final_cons, Transducer.final_append]
    change (translator loads).final ((translator loads).final
      { s with blocks := s.blocks.insert i b.state } _) _ = _
    rw [hs₁, Transducer.final_cons, hstop]

theorem foldl_add_inputJson {id name : String} (chunks parts : List String) :
    (chunks.map Delta.inputJson).foldl BlockState.add (.toolUse id name parts) =
      .toolUse id name (parts ++ chunks) := by
  induction chunks generalizing parts with
  | nil => simp
  | cons c chunks ih =>
    rw [List.map_cons, List.foldl_cons, BlockState.add, ih, List.append_assoc, List.singleton_append]

theorem foldl_add_thinking (ds : List Delta) (chunks : List String) (sig : String) :
    ds.foldl BlockState.add (.thinking chunks sig) =
      .thinking (chunks ++ ds.filterMap Delta.thought)
        ((ds.filterMap Delta.sig).getLast?.getD sig) := by
  induction ds generalizing chunks sig with
  | nil => simp
  | cons d ds ih =>
    rw [List.foldl_cons]
    cases d with
    | thinking t =>
      rw [BlockState.add, ih, List.append_assoc]
      rfl
    | signature sg =>
      have hcons : (Delta.signature sg :: ds).filterMap Delta.sig = sg :: ds.filterMap Delta.sig :=
        rfl
      rw [BlockState.add, ih, List.filterMap_cons_none rfl, hcons, List.getLast?_cons,
        Option.getD_some]
    | _ => exact ih chunks sig

theorem foldl_add_plain (ds : List Delta) : ds.foldl BlockState.add .plain = .plain := by
  induction ds with
  | nil => rfl
  | cons d ds ih => exact ih

theorem emit_text (chunks : List String) :
    (chunks.map Delta.text).flatMap Delta.emit =
      (chunks.filter (· ≠ "")).map fun t => { text := some t } := by
  induction chunks with
  | nil => rfl
  | cons c chunks ih =>
    rw [List.map_cons, List.flatMap_cons, ih, Delta.emit]
    by_cases hc : c = ""
    · rw [if_pos hc, List.filter_cons_of_neg (by simp [hc]), List.nil_append]
    · rw [if_neg hc, List.filter_cons_of_pos (by simp [hc])]
      rfl

theorem emit_thinking {ds : List Delta} (h : ∀ d ∈ ds, d.thought.isSome ∨ d.sig.isSome) :
    ds.flatMap Delta.emit = ((ds.filterMap Delta.thought).filter (· ≠ "")).map
      fun t => { text := some t, thought := true } := by
  induction ds with
  | nil => rfl
  | cons d ds ih =>
    rw [List.flatMap_cons, ih fun d hd => h d (List.mem_cons_of_mem _ hd)]
    cases d with
    | thinking t =>
      have hcons : (Delta.thinking t :: ds).filterMap Delta.thought =
          t :: ds.filterMap Delta.thought := rfl
      rw [Delta.emit, hcons]
      by_cases ht : t = ""
      · rw [if_pos ht, List.filter_cons_of_neg (by simp [ht]), List.nil_append]
      · rw [if_neg ht, List.filter_cons_of_pos (by simp [ht])]
        rfl
    | signature sg => rfl
    | _ => exact absurd (h _ List.mem_cons_self) (by simp [Delta.thought, Delta.sig])

theorem emit_inputJson (chunks : List String) :
    (chunks.map Delta.inputJson).flatMap Delta.emit = [] := by
  rw [List.flatMap_eq_nil_iff]
  intro d hd
  obtain ⟨c, -, rfl⟩ := List.mem_map.1 hd
  rfl

/-! ### The deltas of a message -/

/-- The deltas say what the blocks do, apart from how the message ends. -/
structure Renders (ds : List LlmDelta) (bs : List Block) : Prop where
  /-- The same text. -/
  content : String.join (ds.filterMap LlmDelta.content) = String.join (bs.flatMap Block.said)
  /-- The same thoughts. -/
  musing : String.join (ds.filterMap LlmDelta.musing) = String.join (bs.flatMap Block.musing)
  /-- No thought is empty. -/
  spoken : ∀ x ∈ ds.filterMap LlmDelta.musing, x ≠ ""
  call : ds.filterMap LlmDelta.call = bs.flatMap Block.call
  /-- The same reasoning blocks. -/
  block : ds.filterMap LlmDelta.block = bs.flatMap Block.reasoning
  /-- No finish reason. -/
  finish : ds.filterMap LlmDelta.finish = []
  used : ds.filterMap LlmDelta.used = []
  signature : ds.filterMap LlmDelta.signature = []

theorem Renders.append {ds ds' : List LlmDelta} {bs bs' : List Block} (h : Renders ds bs)
    (h' : Renders ds' bs') : Renders (ds ++ ds') (bs ++ bs') where
  content := by
    rw [List.filterMap_append, String.join_append, h.content, h'.content, List.flatMap_append,
      String.join_append]
  musing := by
    rw [List.filterMap_append, String.join_append, h.musing, h'.musing, List.flatMap_append,
      String.join_append]
  spoken x hx := by
    rw [List.filterMap_append, List.mem_append] at hx
    exact hx.elim (h.spoken x) (h'.spoken x)
  call := by rw [List.filterMap_append, h.call, h'.call, List.flatMap_append]
  block := by rw [List.filterMap_append, h.block, h'.block, List.flatMap_append]
  finish := by rw [List.filterMap_append, h.finish, h'.finish, List.nil_append]
  used := by rw [List.filterMap_append, h.used, h'.used, List.nil_append]
  signature := by rw [List.filterMap_append, h.signature, h'.signature, List.nil_append]

theorem Renders.nil : Renders [] [] :=
  ⟨rfl, rfl, fun _ h => absurd h List.not_mem_nil, rfl, rfl, rfl, rfl, rfl⟩

theorem renders_text (chunks : List String) {t : String} (h : String.join chunks = t) :
    Renders ((chunks.filter (· ≠ "")).map fun t => { text := some t }) [.text t] where
  content := by
    rw [List.filterMap_map, show LlmDelta.content ∘ (fun t : String => { text := some t }) = some
      from rfl, List.filterMap_some, join_filter_ne, h, List.flatMap_singleton, Block.said]
    split_ifs with ht
    · exact ht
    · simp
  musing := by simp [List.filterMap_map, LlmDelta.musing, Block.musing, Function.comp_def]
  spoken := by simp [List.filterMap_map, LlmDelta.musing, Function.comp_def]
  call := by simp [List.filterMap_map, LlmDelta.call, Block.call, Function.comp_def]
  block := by simp [List.filterMap_map, LlmDelta.block, Block.reasoning, Function.comp_def]
  finish := by simp [List.filterMap_map, LlmDelta.finish, Function.comp_def]
  used := by simp [List.filterMap_map, LlmDelta.used, Function.comp_def]
  signature := by simp [List.filterMap_map, LlmDelta.signature, Function.comp_def]

theorem renders_thinking (chunks : List String) {th sig : String} (h : String.join chunks = th) :
    Renders (((chunks.filter (· ≠ "")).map fun t => { text := some t, thought := true }) ++
      [{ reasoningBlock := some (thinkingPart th sig) }]) [.thinking th sig] where
  content := by
    simp [List.filterMap_map, LlmDelta.content, Block.said, Function.comp_def]
  musing := by
    rw [List.filterMap_append, List.filterMap_map,
      show LlmDelta.musing ∘ (fun t : String => { text := some t, thought := true }) = some from rfl,
      List.filterMap_some, String.join_append, join_filter_ne, h, List.flatMap_singleton,
      Block.musing]
    split_ifs with ht
    · simp [ht, LlmDelta.musing]
    · simp [LlmDelta.musing]
  spoken x hx := by
    rw [List.filterMap_append, List.filterMap_map,
      show LlmDelta.musing ∘ (fun t : String => { text := some t, thought := true }) = some from rfl,
      List.filterMap_some] at hx
    rcases List.mem_append.1 hx with hx | hx
    · exact of_decide_eq_true (List.mem_filter.1 hx).2
    · exact absurd hx (by simp [LlmDelta.musing])
  call := by simp [List.filterMap_map, LlmDelta.call, Block.call, Function.comp_def]
  block := by simp [List.filterMap_map, LlmDelta.block, Block.reasoning, Function.comp_def]
  finish := by simp [List.filterMap_map, LlmDelta.finish, Function.comp_def]
  used := by simp [List.filterMap_map, LlmDelta.used, Function.comp_def]
  signature := by simp [List.filterMap_map, LlmDelta.signature, Function.comp_def]

theorem parseArgs_delivered {text : String} {input : Dict}
    (h : text = "" ∧ input = [] ∨ text ≠ "" ∧ loads text = some (.obj input)) :
    parseArgs loads text = .obj input := by
  rcases h with ⟨rfl, rfl⟩ | ⟨hne, hl⟩
  · rfl
  · rw [parseArgs, if_neg hne, hl]

/-- **A block that is delivered is rendered.** -/
theorem Block.Delivers.renders (h : b.Delivers loads ds) :
    Renders (ds.flatMap Delta.emit ++ (ds.foldl BlockState.add b.start.state).close loads) [b] := by
  cases b with
  | text t =>
    obtain ⟨chunks, rfl, hjoin⟩ := h
    rw [emit_text, Block.start, BlockStart.state, foldl_add_plain, BlockState.close,
      List.append_nil]
    exact renders_text chunks hjoin
  | toolUse id name input =>
    obtain ⟨chunks, rfl, hinput⟩ := h
    rw [emit_inputJson, Block.start, BlockStart.state, foldl_add_inputJson, BlockState.close,
      List.nil_append, List.nil_append, parseArgs_delivered hinput]
    exact ⟨rfl, rfl, fun _ hx => absurd hx List.not_mem_nil, rfl, rfl, rfl, rfl, rfl⟩
  | thinking th sig =>
    obtain ⟨hkinds, hjoin, hsig⟩ := h
    rw [emit_thinking hkinds, Block.start, BlockStart.state, foldl_add_thinking, BlockState.close,
      List.nil_append, hjoin, hsig]
    exact renders_thinking _ hjoin
  | redactedThinking data =>
    obtain rfl := h
    exact ⟨rfl, rfl, fun _ hx => absurd hx List.not_mem_nil, rfl, rfl, rfl, rfl, rfl⟩
  | other type =>
    obtain ⟨chunks, rfl⟩ := h
    rw [emit_inputJson, Block.start, BlockStart.state, foldl_add_plain]
    exact ⟨rfl, rfl, fun _ hx => absurd hx List.not_mem_nil, rfl, rfl, rfl, rfl, rfl⟩

/-- Blocks that are delivered are rendered, in order. -/
theorem Delivered.renders {bs : List Block} {events : List Event}
    (h : Delivered loads i bs events) (s : StreamState) :
    Renders ((translator loads).out s events) bs ∧
      ((translator loads).final s events).figures = s.figures := by
  induction h generalizing s with
  | nil i => exact ⟨.nil, rfl⟩
  | @cons i b bs ds events hb _ ih =>
    obtain ⟨s', hfigures, hout, hfinal⟩ := block_out loads (s := s) (i := i) b.start ds events
    obtain ⟨hrest, hkeep⟩ := ih s'
    rw [hout, hfinal]
    exact ⟨hb.renders.append hrest, hkeep.trans hfigures⟩

/-! ### How a message ends -/

theorem orFigure_max (x y : ℕ) : max y (orFigure x y) = max y x := by
  rw [orFigure]
  split_ifs with h
  · rw [h, max_self, Nat.max_zero]
  · rfl

/-- No figure of `v` is below what the start has reported. -/
structure StreamState.Below (s : StreamState) (v : TokenUsage) : Prop where
  input : s.startInputTokens ≤ v.inputTokens
  cacheRead : s.startCacheRead ≤ v.cacheReadTokens
  cacheWrite : s.startCacheWrite ≤ v.cacheWriteTokens

theorem max_backfill {v : TokenUsage} (h : s.Below v) (u : TokenUsage) :
    v.max (s.backfill u) = v.max u := by
  have hfill : ∀ {x y m : ℕ}, y ≤ m → max m (orFigure x y) = max m x := by
    intro x y m hy
    rw [← max_eq_left hy, max_assoc, max_assoc, orFigure_max]
  simp only [TokenUsage.max, StreamState.backfill, hfill h.input, hfill h.cacheRead,
    hfill h.cacheWrite]

/-- Figures of the start change nothing where the start has been counted. -/
theorem foldl_backfill (us : List TokenUsage) {v : TokenUsage} (h : s.Below v) :
    (us.map s.backfill).foldl TokenUsage.max v = us.foldl TokenUsage.max v := by
  induction us generalizing v with
  | nil => rfl
  | cons u us ih =>
    rw [List.map_cons, List.foldl_cons, List.foldl_cons, max_backfill h]
    exact ih ⟨h.input.trans (le_max_left _ _), h.cacheRead.trans (le_max_left _ _),
      h.cacheWrite.trans (le_max_left _ _)⟩

/-- What a `message_delta` is answered with. -/
def endDelta (s : StreamState) (x : Option String × Option Usage) : List LlmDelta :=
  if (finishOf x.1).isSome || x.2.isSome then
    [{ finishReason := finishOf x.1, usage := x.2.map fun u => s.backfill u.tokens }]
  else []

theorem step_messageDelta (x : Option String × Option Usage) :
    (translator loads).step s (.messageDelta x.1 x.2) = (s, endDelta s x) := by
  change (if _ then (s, _) else (s, [])) = _
  rw [endDelta]
  split_ifs <;> rfl

/-- The deltas at the end carry stop reasons and usage only. -/
theorem endDeltas_eq (s : StreamState) (ends : List (Option String × Option Usage)) :
    (ends.flatMap (endDelta s)).filterMap LlmDelta.finish = ends.filterMap (finishOf ∘ Prod.fst) ∧
      (ends.flatMap (endDelta s)).filterMap LlmDelta.used =
        (ends.filterMap Prod.snd).map (s.backfill ∘ Usage.tokens) := by
  induction ends with
  | nil => exact ⟨rfl, rfl⟩
  | cons x ends ih =>
    obtain ⟨r, u⟩ := x
    rw [List.flatMap_cons, List.filterMap_append, List.filterMap_append, ih.1, ih.2, endDelta]
    cases hr : finishOf r <;> cases u <;>
      simp [LlmDelta.finish, LlmDelta.used, hr]

theorem endDeltas_silent (s : StreamState) (ends : List (Option String × Option Usage))
    {α : Type} (f : LlmDelta → Option α)
    (hf : ∀ r u, f { finishReason := r, usage := u } = none) :
    (ends.flatMap (endDelta s)).filterMap f = [] := by
  rw [List.filterMap_eq_nil_iff]
  intro d hd
  obtain ⟨x, -, hx⟩ := List.mem_flatMap.1 hd
  rw [endDelta] at hx
  split_ifs at hx
  · rw [List.mem_singleton.1 hx]
    exact hf _ _
  · exact absurd hx List.not_mem_nil

theorem finishOf_named {rs : List (Option String × Option Usage)}
    (h : ∀ r ∈ rs.filterMap Prod.fst, r ≠ "") :
    rs.filterMap (finishOf ∘ Prod.fst) = (rs.filterMap Prod.fst).map (mapStopReason ∘ some) := by
  induction rs with
  | nil => rfl
  | cons x rs ih =>
    obtain ⟨r, u⟩ := x
    cases r with
    | none => exact ih h
    | some r =>
      have hr : (finishOf ∘ Prod.fst) (some r, u) = some (mapStopReason (some r)) :=
        if_neg (h r List.mem_cons_self)
      have hrs := ih fun r' hr' => h r' (List.mem_cons_of_mem _ hr')
      rw [List.filterMap_cons_some hr, hrs]
      rfl

/-! ### Every stream of every message -/

theorem idle_of_not_known (e : Event) (h : e.known = false) : (translator loads).Idle e := by
  intro s
  cases e with
  | other type => rfl
  | contentBlockDelta j d =>
    cases d with
    | other type => rfl
    | _ => exact absurd h (by simp [Event.known])
  | _ => exact absurd h (by simp [Event.known])

/-- What the start of a message is answered with. -/
def startDeltas (start : Option Usage) : List LlmDelta :=
  start.toList.map fun u => { usage := some u.tokens }

theorem startDeltas_silent (start : Option Usage) {α : Type} (f : LlmDelta → Option α)
    (hf : ∀ u, f { usage := some u } = none) : (startDeltas start).filterMap f = [] := by
  cases start with
  | none => rfl
  | some u => simp [startDeltas, hf]

theorem startDeltas_used (start : Option Usage) :
    (startDeltas start).filterMap LlmDelta.used = start.toList.map Usage.tokens := by
  cases start <;> rfl

variable (loads) in
theorem step_messageStart (start : Option Usage) : ∃ s₁ : StreamState,
    (translator loads).step {} (.messageStart start) = (s₁, startDeltas start) ∧
      s₁.Below ((start.toList.map Usage.tokens).foldl TokenUsage.max {}) := by
  cases start with
  | none => exact ⟨{}, rfl, le_rfl, le_rfl, le_rfl⟩
  | some u => exact ⟨_, rfl, le_max_right _ _, le_max_right _ _, le_max_right _ _⟩

/-- **Streaming agrees with the whole message**: however the events of a message come, the deltas
fold to the response that the message converts to. -/
theorem stream_agrees {m : Message} {events : List Event} {start : Option Usage}
    {body : List Event} {ends : List (Option String × Option Usage)}
    (h : Streams loads m events start body ends) :
    fold (generateStream loads events) = convertResponse m := by
  obtain ⟨s₁, hstart, hbelow⟩ := step_messageStart loads start
  obtain ⟨hbody, hfigures⟩ := h.blocks.renders s₁
  generalize hs₂ : (translator loads).final s₁ body = s₂ at hfigures
  generalize hB : (translator loads).out s₁ body = B at hbody
  have hout : generateStream loads events =
      startDeltas start ++ B ++ ends.flatMap (endDelta s₂) := by
    rw [generateStream, ← Transducer.out_filter idle_of_not_known, h.shape, List.cons_append,
      Transducer.out_cons, hstart, Transducer.out_append, hs₂, hB,
      Transducer.out_map fun x _ => step_messageDelta x, List.append_assoc]
  obtain ⟨hin, hread, hwrite⟩ : s₂.startInputTokens = s₁.startInputTokens ∧
      s₂.startCacheRead = s₁.startCacheRead ∧ s₂.startCacheWrite = s₁.startCacheWrite := by
    simpa [StreamState.figures] using hfigures
  have hbelow₂ : s₂.Below ((start.toList.map Usage.tokens).foldl TokenUsage.max {}) :=
    ⟨hin ▸ hbelow.input, hread ▸ hbelow.cacheRead, hwrite ▸ hbelow.cacheWrite⟩
  obtain ⟨hfinish, hused⟩ := endDeltas_eq s₂ ends
  -- Only the blocks speak; only start and end report usage; only the end has a finish reason.
  have hspeak : ∀ {α : Type} (f : LlmDelta → Option α),
      (∀ r u, f { finishReason := r, usage := u } = none) →
        (generateStream loads events).filterMap f = B.filterMap f := by
    intro α f hf
    rw [hout, List.filterMap_append, List.filterMap_append, startDeltas_silent start f fun u => hf _ _,
      endDeltas_silent s₂ ends f hf, List.nil_append, List.append_nil]
  apply LlmResponse.ext
  · rw [fold_text, hspeak _ fun _ _ => rfl, hbody.content]
    rfl
  · rw [fold_toolCalls, hspeak _ fun _ _ => rfl, hbody.call]
    rfl
  · rw [fold_finishReason, hout, List.filterMap_append, List.filterMap_append,
      startDeltas_silent start _ fun u => rfl, hbody.finish, hfinish, List.append_nil,
      List.nil_append, finishOf_named h.named, List.getLast?_map, ← h.stop]
    change _ = mapStopReason m.stopReason
    cases m.stopReason <;> rfl
  · rw [fold_usage, hout, List.filterMap_append, List.filterMap_append, startDeltas_used, hbody.used,
      hused, List.append_nil, List.foldl_append, ← List.map_map, foldl_backfill _ hbelow₂,
      ← List.foldl_append, ← List.map_append, h.usage.foldl_max]
    rfl
  · rw [fold_thoughtSummary, hspeak _ fun _ _ => rfl]
    change _ = joinOrNone (m.content.flatMap Block.musing)
    rw [summary_eq hbody.spoken, joinOrNone, joinOrNone, hbody.musing]
  · rw [fold_thoughtSignature, hspeak _ fun _ _ => rfl, hbody.signature]
    rfl
  · rw [fold_reasoningBlocks, hspeak _ fun _ _ => rfl, hbody.block]
    rfl

namespace Sample

/-- What the parser makes of one text. -/
def parseCity (text : String) : Option Value :=
  if text = "\x7b\"city\": \"Oslo\"\x7d" then some (.obj [("city", .str "Oslo")]) else none

/-- A thought, a text and a call. -/
def forecast : Message where
  content := [.thinking "Look it up." "sig", .text "One moment.",
    .toolUse "toolu_1" "weather" [("city", .str "Oslo")]]
  stopReason := some "tool_use"
  usage := some { inputTokens := some 12, outputTokens := some 30 }

def forecastBody : List Event :=
  [.contentBlockStart 0 .thinking, .contentBlockDelta 0 (.thinking "Look "),
    .contentBlockDelta 0 (.thinking "it up."), .contentBlockDelta 0 (.signature "sig"),
    .contentBlockStop 0,
    .contentBlockStart 1 .text, .contentBlockDelta 1 (.text "One "),
    .contentBlockDelta 1 (.text "moment."), .contentBlockStop 1,
    .contentBlockStart 2 (.toolUse "toolu_1" "weather"),
    .contentBlockDelta 2 (.inputJson "\x7b\"city\":"),
    .contentBlockDelta 2 (.inputJson " \"Oslo\"\x7d"), .contentBlockStop 2]

/-- The usage at the start. -/
def forecastStart : Option Usage := some { inputTokens := some 12, outputTokens := some 1 }

def forecastEnds : List (Option String × Option Usage) :=
  [(some "tool_use", some { outputTokens := some 30 })]

/-- All events, a `ping` and the `message_stop` among them. -/
def forecastEvents : List Event :=
  .messageStart forecastStart :: .other "ping" :: forecastBody ++
    [.messageDelta (some "tool_use") (some { outputTokens := some 30 }), .other "message_stop"]

theorem forecast_streams :
    Streams parseCity forecast forecastEvents forecastStart forecastBody forecastEnds where
  shape := rfl
  blocks := by
    have hthought : Block.Delivers parseCity (.thinking "Look it up." "sig")
        [.thinking "Look ", .thinking "it up.", .signature "sig"] :=
      ⟨by simp [Delta.thought, Delta.sig], by decide, by decide⟩
    have htext : Block.Delivers parseCity (.text "One moment.") [.text "One ", .text "moment."] :=
      ⟨["One ", "moment."], rfl, by decide⟩
    have hcall : Block.Delivers parseCity (.toolUse "toolu_1" "weather" [("city", .str "Oslo")])
        [.inputJson "\x7b\"city\":", .inputJson " \"Oslo\"\x7d"] :=
      ⟨["\x7b\"city\":", " \"Oslo\"\x7d"], rfl, .inr ⟨by decide, rfl⟩⟩
    exact .cons hthought (.cons htext (.cons hcall (.nil 3)))
  stop := rfl
  named := by decide
  usage := by constructor <;> constructor <;> decide

end Sample

/-- A message with a thought, a text and a call, streamed in pieces. -/
theorem stream_agrees_forecast :
    fold (generateStream Sample.parseCity Sample.forecastEvents) = convertResponse Sample.forecast :=
  stream_agrees Sample.forecast_streams

end Backplane.Chat.Anthropic
