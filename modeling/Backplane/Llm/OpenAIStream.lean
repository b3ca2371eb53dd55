import Backplane.Data.Table
import Backplane.Data.Transducer
import Backplane.Llm.Neutral

/-!
# OpenAI responses, whole and streamed

A response has items: messages, function calls, reasoning.  A stream has events that name the item
they belong to; what the adapter knows of an item is kept under its index until the item is done.

* `Response`, `convertResponse` : a whole response.
* `Event`, `generateStream` : the deltas that the adapter makes of the events of a stream.
* `OutputItem.Delivers`, `Streams` : the ways to stream a response.  The items may interleave.
* `Plain` : nothing that one of the translations leaves out.
* `fold_eq_convert_iff` : the translations agree on the plain responses, and on no others.
-/

namespace Backplane.Chat.OpenAI

/-! ### A whole response -/

/-- A block of a message. -/
inductive ContentBlock
  | outputText (text : String)
  | refusal (refusal : String)
  | other

/-- A part of the summary of a reasoning item. -/
structure SummaryPart where
  type : Option String := some "summary_text"
  text : Option String := none

/-- An item of a response. -/
inductive OutputItem
  | message (content : List ContentBlock)
  | functionCall (callId name arguments : String)
  | reasoning (id encryptedContent : Option String) (summary : List SummaryPart)
      (content : Option (List Value))
  | other (type : String)

/-- The figures of a response; one may be missing. -/
structure Usage where
  inputTokens : Option ℕ := none
  outputTokens : Option ℕ := none
  /-- `input_tokens_details.cached_tokens` -/
  cachedTokens : Option ℕ := none
  /-- `output_tokens_details.reasoning_tokens` -/
  reasoningTokens : Option ℕ := none

/-- A response. -/
structure Response where
  output : List OutputItem
  status : Option String := some "completed"
  /-- `incomplete_details.reason` -/
  incompleteReason : Option String := none
  usage : Option Usage := none

/-- The item is a function call. -/
def OutputItem.isCall : OutputItem → Bool
  | functionCall _ _ _ => true
  | _ => false

/-- `_derive_finish_reason` -/
def Response.deriveFinishReason (r : Response) : FinishReason :=
  if r.status = some "incomplete" then
    if r.incompleteReason = some "max_output_tokens" then .length
    else if r.incompleteReason = some "content_filter" then .contentFilter
    else .stop
  else if r.output.any OutputItem.isCall then .toolCalls
  else .stop

/-- `_usage_from_openai` -/
def Usage.tokens (u : Usage) : TokenUsage where
  inputTokens := u.inputTokens.getD 0
  outputTokens := u.outputTokens.getD 0
  thoughtsTokens := u.reasoningTokens.getD 0
  cacheReadTokens := u.cachedTokens.getD 0

/-- The figures of a response, zero where it has none. -/
def Response.tokens (r : Response) : TokenUsage := r.usage.elim {} Usage.tokens

/-- `x or default` -/
def orElse (x : Option String) (default : String) : String := (x.filter (· ≠ "")).getD default

/-- A part of a summary, as a dictionary. -/
def SummaryPart.toValue (s : SummaryPart) : Value :=
  .obj [("type", .str (orElse s.type "summary_text")), ("text", .str (orElse s.text ""))]

/-- `_reasoning_item_to_dict` -/
def reasoningItemToDict (id encryptedContent : Option String) (summary : List SummaryPart)
    (content : Option (List Value)) : Part where
  type := some "reasoning"
  id := id.filter (· ≠ "")
  rest := ((encryptedContent.filter (· ≠ "")).map fun e => ("encrypted_content", .str e)).toList ++
    [("summary", .arr (summary.map SummaryPart.toValue))] ++
    (content.map fun c => ("content", .arr c)).toList

variable (loads : String → Option Value)

/-- The arguments of a call: nothing unless their text is that of a dictionary. -/
def parseArgs (arguments : String) : Value :=
  if arguments = "" then .obj []
  else match loads arguments with
    | some (.obj fields) => .obj fields
    | _ => .obj []

namespace OutputItem

/-- The tool call of an item. -/
def call : OutputItem → Option ToolCall
  | functionCall callId name arguments =>
    some { id := callId, name := name, args := parseArgs loads arguments }
  | _ => none

/-- The reasoning block of an item. -/
def block : OutputItem → Option Part
  | reasoning id encryptedContent summary content =>
    some (reasoningItemToDict id encryptedContent summary content)
  | _ => none

/-- The blocks of a message. -/
def blocks : OutputItem → List ContentBlock
  | message content => content
  | _ => []

/-- The texts of a summary. -/
def summaries : OutputItem → List String
  | reasoning _ _ summary _ => summary.filterMap fun s =>
    if s.type = some "summary_text" then s.text.filter (· ≠ "") else none
  | _ => []

end OutputItem

/-- The block is text. -/
def ContentBlock.isText : ContentBlock → Bool
  | outputText _ => true
  | _ => false

/-- The text of a block, or the refusal. -/
def ContentBlock.words : ContentBlock → String
  | outputText t => t
  | refusal t => t
  | other => ""

/-- The blocks of the messages. -/
def Response.blocks (r : Response) : List ContentBlock := r.output.flatMap OutputItem.blocks

/-- `_convert_response` -/
def convertResponse (r : Response) : LlmResponse where
  text := String.join
    (((r.blocks.filter ContentBlock.isText).map ContentBlock.words).filter (· ≠ ""))
  toolCalls := r.output.filterMap (OutputItem.call loads)
  finishReason := r.deriveFinishReason
  usage := r.tokens
  thoughtSummary := joinOrNone (r.output.flatMap OutputItem.summaries)
  reasoningBlocks := r.output.filterMap OutputItem.block

/-! ### A stream of events -/

/-- An event of a stream. -/
inductive Event
  | outputItemAdded (i : ℕ) (item : OutputItem)
  /-- `response.function_call_arguments.delta` -/
  | argumentsDelta (i : ℕ) (delta : String)
  /-- `response.function_call_arguments.done` -/
  | argumentsDone (i : ℕ)
  | outputTextDelta (i : ℕ) (delta : String)
  | refusalDelta (i : ℕ) (delta : String)
  | outputItemDone (i : ℕ) (item : OutputItem)
  | completed (response : Response)
  /-- Another type: `response.incomplete`, `response.failed`, `error` among them. -/
  | other (type : String)

/-- The `output_index` of an event. -/
def Event.index : Event → Option ℕ
  | outputItemAdded i _ => some i
  | argumentsDelta i _ => some i
  | argumentsDone i => some i
  | outputTextDelta i _ => some i
  | refusalDelta i _ => some i
  | outputItemDone i _ => some i
  | completed _ => none
  | other _ => none

/-- What is kept of an item while it is streamed. -/
inductive ItemState
  | functionCall (callId name : String) (partialArgs : List String)
  | reasoning
  | other

/-- What is kept of an item that is added. -/
def OutputItem.state : OutputItem → ItemState
  | functionCall callId name _ => .functionCall callId name []
  | reasoning _ _ _ _ => .reasoning
  | _ => .other

namespace ItemState

/-- A piece of the arguments. -/
def addArgs (chunk : String) : ItemState → ItemState
  | functionCall callId name partialArgs =>
    .functionCall callId name (if chunk = "" then partialArgs else partialArgs ++ [chunk])
  | s => s

/-- The item is a reasoning item. -/
def isReasoning : ItemState → Bool
  | reasoning => true
  | _ => false

/-- The tool call that the item has made. -/
def toolCall : Option ItemState → ToolCall
  | some (functionCall callId name partialArgs) =>
    { id := callId, name := name, args := parseArgs loads (String.join partialArgs) }
  | _ => { id := "", name := "", args := parseArgs loads "" }

end ItemState

/-- What an item is answered with when it is done. -/
def OutputItem.done (item : OutputItem) : List LlmDelta :=
  item.block.toList.map fun block => { reasoningBlock := some block }

/-- A text, unless it is empty. -/
def textDelta (text : String) (thought : Bool) : List LlmDelta :=
  if text = "" then [] else [{ text := some text, thought := thought }]

/-- What the last event is answered with. -/
def Response.finished (r : Response) : LlmDelta :=
  { finishReason := some r.deriveFinishReason, usage := r.usage.map Usage.tokens }

/-- An event, in the body of `_generate_stream`; the state is `item_state`. -/
def translator : Transducer (Table ℕ ItemState) Event LlmDelta where
  step s
    | .outputItemAdded i item => (s.insert i item.state, [])
    | .argumentsDelta i chunk => (s.update i (ItemState.addArgs chunk), [])
    | .argumentsDone i => (s, [{ toolCall := some (ItemState.toolCall loads (s.lookup i)) }])
    | .outputTextDelta i text => (s, textDelta text ((s.lookup i).any ItemState.isReasoning))
    | .refusalDelta _ text => (s, textDelta text false)
    | .outputItemDone i item => (s.erase i, item.done)
    | .completed r => (s, [r.finished])
    | .other _ => (s, [])

/-- `_generate_stream` -/
def generateStream (events : List Event) : List LlmDelta := (translator loads).out ∅ events

/-! ### The ways to stream a response -/

/-- The item as it is added. -/
def OutputItem.start : OutputItem → OutputItem
  | message _ => .message []
  | functionCall callId name _ => .functionCall callId name ""
  | reasoning id _ _ _ => .reasoning id none [] none
  | other type => .other type

/-- The blocks of a message, said in pieces. -/
inductive Said (i : ℕ) : List ContentBlock → List Event → Prop
  | nil : Said i [] []
  | outputText {bs : List ContentBlock} {events : List Event} (chunks : List String)
      (h : Said i bs events) :
      Said i (.outputText (String.join chunks) :: bs) (chunks.map (.outputTextDelta i) ++ events)
  | refusal {bs : List ContentBlock} {events : List Event} (chunks : List String)
      (h : Said i bs events) :
      Said i (.refusal (String.join chunks) :: bs) (chunks.map (.refusalDelta i) ++ events)
  | other {bs : List ContentBlock} {events : List Event} (h : Said i bs events) :
      Said i (.other :: bs) events

/-- What is streamed between the start of an item and its end, and the texts among it, where the
item is a reasoning item. -/
inductive OutputItem.Inside (i : ℕ) : OutputItem → List String → List Event → Prop
  | message {content : List ContentBlock} {events : List Event} (h : Said i content events) :
      Inside i (.message content) [] events
  | functionCall {callId name : String} (chunks : List String) :
      Inside i (.functionCall callId name (String.join chunks)) []
        (chunks.map (.argumentsDelta i) ++ [.argumentsDone i])
  | cut {callId name : String} (chunks : List String) :
      Inside i (.functionCall callId name (String.join chunks)) []
        (chunks.map (.argumentsDelta i))
  /-- Texts of a reasoning item: any texts, whatever the summary is. -/
  | reasoning {id encryptedContent : Option String} {summary : List SummaryPart}
      {content : Option (List Value)} (texts : List String) :
      Inside i (.reasoning id encryptedContent summary content) texts
        (texts.map (.outputTextDelta i))
  /-- An item of another type has events of other types. -/
  | other {type : String} : Inside i (.other type) [] []

/-- The event says something, or brings something to its end. -/
def Event.tells : Event → Bool
  | outputItemAdded _ _ => false
  | argumentsDelta _ _ => false
  | _ => true

/-- The event is not of a type that the adapter ignores. -/
def Event.known : Event → Bool
  | other _ => false
  | _ => true

/-- The events are a stream of the response.  Events of items may interleave, but what is said and
brought to its end is so in the order of the items.  Items may be cut off, the last event may be of
another type than `response.completed`, and events of other types are anywhere. -/
structure Streams (r : Response) (events : List Event) (thoughts : ℕ → List String)
    (isCompleted : Bool) (body : List Event) : Prop where
  /-- The body, and the last event. -/
  shape : events.filter Event.known = body ++ if isCompleted then [.completed r] else []
  /-- The body is made of the events of the items. -/
  indexed : ∀ e ∈ body, ∃ i < r.output.length, e.index = some i
  /-- Each item starts, says what it has to say, and is done or cut off. -/
  items : ∀ i item, r.output[i]? = some item → ∃ events ends, item.Inside i (thoughts i) events ∧
    (ends = [.outputItemDone i item] ∨ ends = []) ∧
    body.filter (·.index = some i) = .outputItemAdded i item.start :: (events ++ ends)
  /-- What is told is told in the order of the items. -/
  order : ((body.filter Event.tells).filterMap Event.index).Pairwise (· ≤ ·)

/-! ### Where the translations agree -/

/-- The event that brings a call or a reasoning item to its end. -/
def OutputItem.close (i : ℕ) : OutputItem → Option Event
  | functionCall _ _ _ => some (.argumentsDone i)
  | reasoning id encryptedContent summary content =>
    some (.outputItemDone i (.reasoning id encryptedContent summary content))
  | _ => none

/-- There is nothing that one of the translations leaves out: no refusal, no summary other than the
texts that were streamed, no call or reasoning that is cut off, and no figure that the last event
does not bring. -/
structure Plain (r : Response) (thoughts : ℕ → List String) (isCompleted : Bool)
    (body : List Event) : Prop where
  /-- The refusals are empty. -/
  refusals : ∀ b ∈ r.blocks, b.isText = false → b.words = ""
  /-- What was streamed as thoughts is the summary. -/
  thoughts : String.join ((List.range r.output.length).flatMap thoughts) =
    String.join (r.output.flatMap OutputItem.summaries)
  /-- Calls and reasoning items come to their end. -/
  closed : ∀ i item, r.output[i]? = some item → ∀ e, OutputItem.close i item = some e → e ∈ body
  /-- The last event brings the rest, or there is nothing to bring. -/
  ends : isCompleted = true ∨ r.deriveFinishReason = .stop ∧ r.tokens = {}

/-! ### Item by item -/

/-- An event, in the eyes of the item that it belongs to. -/
def itemTranslator : Transducer (Option ItemState) Event LlmDelta where
  step st
    | .outputItemAdded _ item => (some item.state, [])
    | .argumentsDelta _ chunk => (st.map (ItemState.addArgs chunk), [])
    | .argumentsDone _ => (st, [{ toolCall := some (ItemState.toolCall loads st) }])
    | .outputTextDelta _ text => (st, textDelta text (st.any ItemState.isReasoning))
    | .refusalDelta _ text => (st, textDelta text false)
    | .outputItemDone _ item => (none, item.done)
    | _ => (st, [])

/-- An item's events concern what is kept of the item, and nothing else. -/
theorem translator_splits : (translator loads).Splits (itemTranslator loads) Event.index
    fun i s => s.lookup i where
  own s e i he := by
    cases e with
    | completed r => exact absurd he (by simp [Event.index])
    | other type => exact absurd he (by simp [Event.index])
    | _ =>
      obtain rfl := Option.some.inj he
      simp [translator, itemTranslator, Table.lookup_update]
  frame s e i he := by
    cases e with
    | outputItemAdded j item => exact AList.lookup_insert_ne fun hij : i = j => he (hij ▸ rfl)
    | argumentsDelta j chunk =>
      change (s.update j _).lookup i = _
      rw [Table.lookup_update, if_neg fun hij : i = j => he (hij ▸ rfl)]
    | outputItemDone j item => exact AList.lookup_erase_ne fun hij : i = j => he (hij ▸ rfl)
    | _ => rfl

variable {loads : String → Option Value} {i : ℕ} {item : OutputItem} {events : List Event}

/-- Texts that are not empty, each in a delta of its own. -/
def speech (texts : List String) (thought : Bool) : List LlmDelta :=
  texts.flatMap (textDelta · thought)

theorem speech_append (texts texts' : List String) (thought : Bool) :
    speech (texts ++ texts') thought = speech texts thought ++ speech texts' thought :=
  List.flatMap_append

theorem speech_eq (texts : List String) (thought : Bool) : speech texts thought =
    (texts.filter (· ≠ "")).map fun t => { text := some t, thought := thought } := by
  induction texts with
  | nil => rfl
  | cons t texts ih =>
    rw [speech, List.flatMap_cons, textDelta]
    change _ ++ speech texts thought = _
    by_cases ht : t = ""
    · rw [if_pos ht, List.filter_cons_of_neg (by simp [ht]), ih, List.nil_append]
    · rw [if_neg ht, List.filter_cons_of_pos (by simp [ht]), ih, List.map_cons,
        List.singleton_append]

theorem out_texts (st : ItemState) (chunks : List String) :
    (itemTranslator loads).out (some st) (chunks.map (.outputTextDelta i)) =
      speech chunks st.isReasoning :=
  Transducer.out_map fun _ _ => rfl

variable (loads) in
theorem Said.out {bs : List ContentBlock} (h : Said i bs events) : ∃ texts,
    (itemTranslator loads).out (some .other) events = speech texts false ∧
      String.join texts = String.join (bs.map ContentBlock.words) := by
  induction h with
  | nil => exact ⟨[], rfl, rfl⟩
  | outputText chunks _ ih =>
    obtain ⟨texts, hout, hjoin⟩ := ih
    refine ⟨chunks ++ texts, ?_, ?_⟩
    · rw [Transducer.out_append, out_texts, Transducer.final_map fun _ _ => rfl, hout,
        speech_append]
      rfl
    · rw [String.join_append, hjoin, List.map_cons, String.join_cons]
      rfl
  | refusal chunks _ ih =>
    obtain ⟨texts, hout, hjoin⟩ := ih
    refine ⟨chunks ++ texts, ?_, ?_⟩
    · rw [Transducer.out_append, Transducer.out_map (g := (textDelta · false)) fun _ _ => rfl,
        Transducer.final_map fun _ _ => rfl, hout, speech_append]
      rfl
    · rw [String.join_append, hjoin, List.map_cons, String.join_cons]
      rfl
  | other _ ih =>
    obtain ⟨texts, hout, hjoin⟩ := ih
    refine ⟨texts, hout, ?_⟩
    rw [hjoin, List.map_cons, String.join_cons]
    exact String.empty_append.symm

variable (loads) in
/-- The state of a call after pieces of its arguments. -/
theorem final_args (callId name : String) (chunks parts : List String) : ∃ parts',
    (itemTranslator loads).final (some (.functionCall callId name parts))
        (chunks.map (.argumentsDelta i)) = some (.functionCall callId name parts') ∧
      String.join parts' = String.join parts ++ String.join chunks := by
  induction chunks generalizing parts with
  | nil => exact ⟨parts, rfl, by simp⟩
  | cons c chunks ih =>
    by_cases hc : c = ""
    · obtain ⟨parts', hfinal, hjoin⟩ := ih parts
      refine ⟨parts', ?_, ?_⟩
      · rw [List.map_cons, Transducer.final_cons, ← hfinal, hc]
        rfl
      · rw [hjoin, String.join_cons, hc, String.empty_append]
    · obtain ⟨parts', hfinal, hjoin⟩ := ih (parts ++ [c])
      refine ⟨parts', ?_, ?_⟩
      · rw [List.map_cons, Transducer.final_cons, ← hfinal]
        simp [itemTranslator, ItemState.addArgs, hc]
      · rw [hjoin, String.join_append, String.join_cons, String.join_cons, String.join_nil,
          String.append_empty, String.append_assoc]

theorem out_args (st : ItemState) (chunks : List String) :
    (itemTranslator loads).out (some st) (chunks.map (.argumentsDelta i)) = [] := by
  induction chunks generalizing st with
  | nil => rfl
  | cons c chunks ih => rw [List.map_cons, Transducer.out_cons]; exact ih _

/-- What an item is answered with: texts, then the call or the reasoning block if it comes to its
end. -/
structure Answers (loads : String → Option Value) (i : ℕ) (item : OutputItem)
    (thoughts : List String) (events : List Event) (ds : List LlmDelta) : Prop where
  content : String.join (ds.filterMap LlmDelta.content) =
    String.join (item.blocks.map ContentBlock.words)
  musing : String.join (ds.filterMap LlmDelta.musing) = String.join thoughts
  /-- No thought is empty. -/
  spoken : ∀ x ∈ ds.filterMap LlmDelta.musing, x ≠ ""
  call : (ds.filterMap LlmDelta.call).Sublist (item.call loads).toList
  block : (ds.filterMap LlmDelta.block).Sublist item.block.toList
  /-- All of these, if the item comes to its end. -/
  closed : (ds.filterMap LlmDelta.call = (item.call loads).toList ∧
    ds.filterMap LlmDelta.block = item.block.toList) ↔
      ∀ e, OutputItem.close i item = some e → e ∈ events
  /-- Nothing else. -/
  silent : ds.filterMap LlmDelta.finish = [] ∧ ds.filterMap LlmDelta.used = [] ∧
    ds.filterMap LlmDelta.signature = []

section Speech

variable (texts : List String)

theorem speech_content :
    (speech texts false).filterMap LlmDelta.content = texts.filter (· ≠ "") := by
  rw [speech_eq, List.filterMap_map]
  exact List.filterMap_some

theorem speech_musing : (speech texts true).filterMap LlmDelta.musing = texts.filter (· ≠ "") := by
  rw [speech_eq, List.filterMap_map]
  exact List.filterMap_some

theorem speech_silent {α : Type} (thought : Bool) {f : LlmDelta → Option α}
    (hf : ∀ t, f { text := some t, thought := thought } = none) :
    (speech texts thought).filterMap f = [] := by
  rw [speech_eq, List.filterMap_map]
  exact List.filterMap_eq_nil_iff.2 fun t _ => hf t

end Speech

/-- What a message is answered with. -/
theorem answers_speech {content : List ContentBlock} {texts : List String}
    (h : String.join texts = String.join (content.map ContentBlock.words)) :
    Answers loads i (.message content) [] events (speech texts false) where
  content := by
    rw [speech_content, join_filter_ne, h]
    rfl
  musing := by rw [speech_silent texts false fun _ => rfl]
  spoken x hx := by
    rw [speech_silent texts false fun _ => rfl] at hx
    exact absurd hx List.not_mem_nil
  call := by
    rw [speech_silent texts false fun _ => rfl]
    exact List.nil_sublist _
  block := by
    rw [speech_silent texts false fun _ => rfl]
    exact List.nil_sublist _
  closed := by
    rw [speech_silent texts false fun _ => rfl, speech_silent texts false fun _ => rfl]
    exact ⟨fun _ _ he => absurd he (by simp [OutputItem.close]), fun _ => ⟨rfl, rfl⟩⟩
  silent := ⟨speech_silent texts false fun _ => rfl, speech_silent texts false fun _ => rfl,
    speech_silent texts false fun _ => rfl⟩

/-- What a reasoning item is answered with. -/
theorem answers_reasoning {id encryptedContent : Option String} {summary : List SummaryPart}
    {content : Option (List Value)} {texts : List String} {ends : List LlmDelta}
    (hends : OutputItem.done (.reasoning id encryptedContent summary content) = ends ∧
        .outputItemDone i (.reasoning id encryptedContent summary content) ∈ events ∨
      ends = [] ∧ .outputItemDone i (.reasoning id encryptedContent summary content) ∉ events) :
    Answers loads i (.reasoning id encryptedContent summary content) texts events
      (speech texts true ++ ends) := by
  have hsilent : ∀ {α : Type} (f : LlmDelta → Option α),
      (∀ b, f { reasoningBlock := some b } = none) → ends.filterMap f = [] := by
    intro α f hf
    rcases hends with ⟨rfl, -⟩ | ⟨rfl, -⟩
    · exact List.filterMap_eq_nil_iff.2 fun d hd => by
        obtain ⟨b, -, rfl⟩ := List.mem_map.1 hd
        exact hf b
    · rfl
  have hclosed : (∀ e, OutputItem.close i (.reasoning id encryptedContent summary content) = some e →
      e ∈ events) ↔ .outputItemDone i (.reasoning id encryptedContent summary content) ∈ events :=
    ⟨fun h => h _ rfl, fun h e he => Option.some.inj he ▸ h⟩
  refine ⟨?_, ?_, ?_, ?_, ?_, ?_, ?_, ?_, ?_⟩
  · rw [List.filterMap_append, speech_silent texts true fun _ => rfl, hsilent _ fun _ => rfl]
    rfl
  · rw [List.filterMap_append, speech_musing, hsilent _ fun _ => rfl, List.append_nil,
      join_filter_ne]
  · intro x hx
    rw [List.filterMap_append, speech_musing, hsilent _ fun _ => rfl, List.append_nil] at hx
    simpa using (List.mem_filter.1 hx).2
  · rw [List.filterMap_append, speech_silent texts true fun _ => rfl, hsilent _ fun _ => rfl]
    exact List.nil_sublist _
  · rw [List.filterMap_append, speech_silent texts true fun _ => rfl, List.nil_append]
    rcases hends with ⟨rfl, -⟩ | ⟨rfl, -⟩
    · exact List.Sublist.refl _
    · exact List.nil_sublist _
  · rw [hclosed, List.filterMap_append, List.filterMap_append, speech_silent texts true fun _ => rfl,
      speech_silent texts true fun _ => rfl, hsilent _ fun _ => rfl, List.nil_append]
    rcases hends with ⟨rfl, hmem⟩ | ⟨rfl, hmem⟩
    · exact ⟨fun _ => hmem, fun _ => ⟨rfl, rfl⟩⟩
    · exact ⟨fun h => absurd h.2 (by simp [OutputItem.block]), fun h => absurd h hmem⟩
  all_goals
    rw [List.filterMap_append, speech_silent texts true fun _ => rfl, hsilent _ fun _ => rfl]
    rfl

/-- What an item is answered with that says nothing: a call, or an item of another type. -/
theorem answers_call (calls : List ToolCall) (hblocks : item.blocks = [])
    (hblock : item.block = none) (hcalls : calls.Sublist (item.call loads).toList)
    (hclosed : calls = (item.call loads).toList ↔
      ∀ e, OutputItem.close i item = some e → e ∈ events) :
    Answers loads i item [] events (calls.map fun c => { toolCall := some c }) := by
  have hsilent : ∀ {α : Type} (f : LlmDelta → Option α), (∀ c, f { toolCall := some c } = none) →
      (calls.map fun c => ({ toolCall := some c } : LlmDelta)).filterMap f = [] := by
    intro α f hf
    rw [List.filterMap_map]
    exact List.filterMap_eq_nil_iff.2 fun c _ => hf c
  have hcall : (calls.map fun c => ({ toolCall := some c } : LlmDelta)).filterMap LlmDelta.call =
      calls := by
    rw [List.filterMap_map]
    exact List.filterMap_some
  refine ⟨?_, ?_, ?_, ?_, ?_, ?_, hsilent _ fun _ => rfl, hsilent _ fun _ => rfl,
    hsilent _ fun _ => rfl⟩
  · rw [hsilent _ fun _ => rfl, hblocks]
    rfl
  · rw [hsilent _ fun _ => rfl]
  · intro x hx
    rw [hsilent _ fun _ => rfl] at hx
    exact absurd hx List.not_mem_nil
  · rw [hcall]
    exact hcalls
  · rw [hsilent _ fun _ => rfl]
    exact List.nil_sublist _
  · rw [hcall, hsilent _ fun _ => rfl, ← hclosed, hblock]
    exact and_iff_left rfl

/-- What the events of an item are answered with, from its start on. -/
theorem OutputItem.Inside.answers {thoughts : List String} {ends : List Event}
    (h : item.Inside i thoughts events)
    (hends : ends = [.outputItemDone i item] ∨ ends = []) :
    Answers loads i item thoughts (.outputItemAdded i item.start :: (events ++ ends))
      ((itemTranslator loads).out none
        (.outputItemAdded i item.start :: (events ++ ends))) := by
  rw [Transducer.out_cons, Transducer.out_append]
  change Answers loads i item thoughts _ ([] ++ ((itemTranslator loads).out
    (some item.start.state) events ++ _))
  rw [List.nil_append]
  -- An item without a reasoning block is not answered at its end.
  have hquiet : ∀ st, item.block = none → (itemTranslator loads).out st ends = [] := by
    intro st hb
    rcases hends with rfl | rfl
    · change item.done ++ [] = []
      rw [OutputItem.done, hb]
      rfl
    · rfl
  cases h with
  | message hsaid =>
    obtain ⟨texts, hout, hjoin⟩ := hsaid.out loads
    rw [hquiet _ rfl, List.append_nil]
    change Answers loads i _ _ _ ((itemTranslator loads).out (some .other) events)
    rw [hout]
    exact answers_speech hjoin
  | @functionCall callId name chunks =>
    obtain ⟨parts, hfinal, hjoin⟩ := final_args loads (i := i) callId name chunks []
    rw [hquiet _ rfl, List.append_nil, Transducer.out_append, out_args]
    change Answers loads i _ _ _ ([] ++ (itemTranslator loads).out ((itemTranslator loads).final
      (some (.functionCall callId name [])) _) _)
    rw [hfinal]
    change Answers loads i _ _ _ ([ItemState.toolCall loads
      (some (.functionCall callId name parts))].map fun c => { toolCall := some c })
    have hcall : ItemState.toolCall loads (some (.functionCall callId name parts)) =
        { id := callId, name := name, args := parseArgs loads (String.join chunks) } := by
      rw [ItemState.toolCall, hjoin, String.join_nil, String.empty_append]
    rw [hcall]
    refine answers_call _ rfl rfl (List.Sublist.refl _) ⟨fun _ e he => ?_, fun _ => rfl⟩
    obtain rfl := Option.some.inj he
    simp
  | @cut callId name chunks =>
    rw [hquiet _ rfl, List.append_nil]
    change Answers loads i _ _ _ ((itemTranslator loads).out (some _) _)
    rw [out_args]
    refine answers_call [] rfl rfl (List.nil_sublist _)
      ⟨fun h => absurd h (by simp [OutputItem.call]), fun h => ?_⟩
    have hmem := h _ rfl
    rcases hends with rfl | rfl <;> simp at hmem
  | reasoning texts =>
    change Answers loads i _ _ _ ((itemTranslator loads).out (some .reasoning) _ ++ _)
    rw [out_texts]
    refine answers_reasoning ?_
    rcases hends with rfl | rfl
    · exact .inl ⟨(List.append_nil _).symm, by simp⟩
    · exact .inr ⟨rfl, by simp [OutputItem.start]⟩
  | other =>
    rw [hquiet _ rfl]
    exact answers_call [] rfl rfl (List.nil_sublist _)
      ⟨fun _ e he => absurd he (by simp [OutputItem.close]), fun _ => rfl⟩

/-! ### Every stream of every response -/

theorem idle_of_not_known (e : Event) (h : e.known = false) : (translator loads).Idle e := by
  intro s
  cases e with
  | other type => rfl
  | _ => exact absurd h (by simp [Event.known])

theorem out_eq_nil_of_not_tells (s : Table ℕ ItemState) (e : Event) (h : e.tells = false) :
    ((translator loads).step s e).2 = [] := by
  cases e with
  | outputItemAdded i item => rfl
  | argumentsDelta i chunk => rfl
  | _ => exact absurd h (by simp [Event.tells])

theorem OutputItem.index_of_close {e : Event} (h : item.close i = some e) : e.index = some i := by
  cases item with
  | message content => exact absurd h (by simp [OutputItem.close])
  | other type => exact absurd h (by simp [OutputItem.close])
  | _ =>
    obtain rfl := Option.some.inj h
    rfl

variable {r : Response} {thoughts : ℕ → List String} {isCompleted : Bool} {body : List Event}

/-- What the last event is answered with. -/
def lastDeltas (r : Response) (isCompleted : Bool) : List LlmDelta :=
  if isCompleted then [r.finished] else []

/-- What the stream is answered with: item after item, and the end. -/
theorem Streams.out (h : Streams r events thoughts isCompleted body) :
    generateStream loads events =
      (List.range r.output.length).flatMap (fun i =>
        (itemTranslator loads).out none (body.filter (·.index = some i))) ++
      lastDeltas r isCompleted := by
  have hbody : (translator loads).out ∅ body = (List.range r.output.length).flatMap fun i =>
      (itemTranslator loads).out none (body.filter (·.index = some i)) := by
    refine (translator_splits loads).out_eq (fun e he => ?_) out_eq_nil_of_not_tells h.order
      fun e he i hi => ?_
    · obtain ⟨i, -, hi⟩ := h.indexed e he
      rw [hi]
      rfl
    · obtain ⟨j, hj, hindex⟩ := h.indexed e he
      rw [hindex] at hi
      exact Option.some.inj hi ▸ hj
  rw [generateStream, ← Transducer.out_filter idle_of_not_known, h.shape, Transducer.out_append,
    hbody]
  cases isCompleted <;> rfl

/-- Each item is answered on its own. -/
theorem Streams.answers (h : Streams r events thoughts isCompleted body) {item : OutputItem}
    (hitem : r.output[i]? = some item) :
    Answers loads i item (thoughts i) (body.filter (·.index = some i))
      ((itemTranslator loads).out none (body.filter (·.index = some i))) := by
  obtain ⟨inside, ends, hinside, hends, hfilter⟩ := h.items i item hitem
  rw [hfilter]
  exact hinside.answers hends

/-- An item brings its call, or its block, if the event that brings it to its end is there. -/
theorem Streams.closed_iff (h : Streams r events thoughts isCompleted body) {item : OutputItem}
    (hitem : r.output[i]? = some item) :
    (((itemTranslator loads).out none (body.filter (·.index = some i))).filterMap LlmDelta.call =
          (item.call loads).toList ∧
        ((itemTranslator loads).out none (body.filter (·.index = some i))).filterMap
          LlmDelta.block = item.block.toList) ↔
      ∀ e, OutputItem.close i item = some e → e ∈ body :=
  (h.answers hitem).closed.trans (forall₂_congr fun e he => by
    simp [List.mem_filter, OutputItem.index_of_close he])

theorem exists_item (hi : i ∈ List.range r.output.length) : ∃ item, r.output[i]? = some item :=
  ⟨_, List.getElem?_eq_getElem (List.mem_range.1 hi)⟩

/-- What the deltas bring, item after item, and at the end. -/
theorem Streams.filterMap_eq {α : Type} (h : Streams r events thoughts isCompleted body)
    (f : LlmDelta → Option α) :
    (generateStream loads events).filterMap f =
      (List.range r.output.length).flatMap (fun i =>
        ((itemTranslator loads).out none (body.filter (·.index = some i))).filterMap f) ++
      (lastDeltas r isCompleted).filterMap f := by
  rw [h.out, List.filterMap_append, List.filterMap_flatMap]

theorem lastDeltas_silent {α : Type} {f : LlmDelta → Option α} (hf : f r.finished = none) :
    (lastDeltas r isCompleted).filterMap f = [] := by
  cases isCompleted with
  | false => rfl
  | true => exact List.filterMap_cons_none hf

/-- What the items do not bring, the end does. -/
theorem Streams.filterMap_last {α : Type} (h : Streams r events thoughts isCompleted body)
    {f : LlmDelta → Option α} (hf : ∀ i item, r.output[i]? = some item →
      ((itemTranslator loads).out none (body.filter (·.index = some i))).filterMap f = []) :
    (generateStream loads events).filterMap f = (lastDeltas r isCompleted).filterMap f := by
  rw [h.filterMap_eq, List.flatMap_eq_nil_iff.2 fun i hi => ?_, List.nil_append]
  obtain ⟨item, hitem⟩ := exists_item hi
  exact hf i item hitem

/-- A field of the response that is made of what the items bring. -/
theorem Streams.filterMap_eq_iff {α : Type} (h : Streams r events thoughts isCompleted body)
    {f : LlmDelta → Option α} {g : OutputItem → Option α} (hlast : f r.finished = none)
    (hsub : ∀ i item, r.output[i]? = some item →
      (((itemTranslator loads).out none (body.filter (·.index = some i))).filterMap f).Sublist
        (g item).toList) :
    (generateStream loads events).filterMap f = r.output.filterMap g ↔
      ∀ i item, r.output[i]? = some item →
        ((itemTranslator loads).out none (body.filter (·.index = some i))).filterMap f =
          (g item).toList := by
  rw [h.filterMap_eq, lastDeltas_silent hlast, List.append_nil, List.filterMap_eq_flatMap_toList,
    ← flatMap_range_getElem? r.output, flatMap_eq_iff_of_sublist]
  · constructor
    · intro heq i item hitem
      have hi := heq i (List.mem_range.2 (List.getElem?_eq_some_iff.1 hitem).1)
      rwa [hitem] at hi
    · intro heq i hi
      obtain ⟨item, hitem⟩ := exists_item hi
      rw [hitem]
      exact heq i item hitem
  · intro i hi
    obtain ⟨item, hitem⟩ := exists_item hi
    rw [hitem]
    exact hsub i item hitem

/-- **Streaming agrees with the whole response exactly where the response is plain.** -/
theorem fold_eq_convert_iff (h : Streams r events thoughts isCompleted body) :
    fold (generateStream loads events) = convertResponse loads r ↔
      Plain r thoughts isCompleted body := by
  have htext : (fold (generateStream loads events)).text = (convertResponse loads r).text ↔
      ∀ b ∈ r.blocks, b.isText = false → b.words = "" := by
    have hblocks : (r.output.flatMap fun item => item.blocks.map ContentBlock.words) =
        r.blocks.map ContentBlock.words := List.map_flatMap.symm
    rw [fold_text, h.filterMap_eq, lastDeltas_silent rfl, List.append_nil]
    change _ = String.join _ ↔ _
    rw [join_filter_ne, ← join_filter_eq_iff (l := r.blocks), eq_comm, ← hblocks,
      ← flatMap_range_getElem? r.output]
    refine Eq.congr_right (join_flatMap_congr fun i hi => ?_)
    obtain ⟨item, hitem⟩ := exists_item hi
    rw [hitem]
    exact (h.answers hitem).content
  have hsummary : (fold (generateStream loads events)).thoughtSummary =
      (convertResponse loads r).thoughtSummary ↔
        String.join ((List.range r.output.length).flatMap thoughts) =
          String.join (r.output.flatMap OutputItem.summaries) := by
    rw [fold_thoughtSummary, summary_eq, h.filterMap_eq, lastDeltas_silent rfl, List.append_nil]
    · refine joinOrNone_eq_iff.trans (Eq.congr_left (join_flatMap_congr fun i hi => ?_))
      obtain ⟨item, hitem⟩ := exists_item hi
      exact (h.answers hitem).musing
    · intro x hx
      rw [h.filterMap_eq, lastDeltas_silent rfl, List.append_nil] at hx
      obtain ⟨i, hi, hx⟩ := List.mem_flatMap.1 hx
      obtain ⟨item, hitem⟩ := exists_item hi
      exact (h.answers hitem).spoken x hx
  have hclosed :
      (fold (generateStream loads events)).toolCalls = (convertResponse loads r).toolCalls ∧
      (fold (generateStream loads events)).reasoningBlocks =
        (convertResponse loads r).reasoningBlocks ↔
      ∀ i item, r.output[i]? = some item → ∀ e, OutputItem.close i item = some e → e ∈ body := by
    rw [fold_toolCalls, fold_reasoningBlocks]
    change _ = r.output.filterMap (OutputItem.call loads) ∧
      _ = r.output.filterMap OutputItem.block ↔ _
    rw [h.filterMap_eq_iff rfl fun i item hitem => (h.answers hitem).call,
      h.filterMap_eq_iff rfl fun i item hitem => (h.answers hitem).block]
    constructor
    · rintro ⟨hcall, hblock⟩ i item hi
      exact (h.closed_iff hi).1 ⟨hcall i item hi, hblock i item hi⟩
    · intro hall
      exact ⟨fun i item hi => ((h.closed_iff hi).2 (hall i item hi)).1,
        fun i item hi => ((h.closed_iff hi).2 (hall i item hi)).2⟩
  have hends : (fold (generateStream loads events)).finishReason =
        (convertResponse loads r).finishReason ∧
      (fold (generateStream loads events)).usage = (convertResponse loads r).usage ↔
      (isCompleted = true ∨ r.deriveFinishReason = .stop ∧ r.tokens = {}) := by
    rw [fold_finishReason, fold_usage,
      h.filterMap_last fun i item hitem => (h.answers hitem).silent.1,
      h.filterMap_last fun i item hitem => (h.answers hitem).silent.2.1]
    change _ = r.deriveFinishReason ∧ _ = r.tokens ↔ _
    cases isCompleted with
    | true =>
      refine iff_of_true ⟨rfl, ?_⟩ (.inl rfl)
      rw [Response.tokens, lastDeltas, if_pos rfl]
      cases hu : r.usage with
      | none => simp [Response.finished, LlmDelta.used, hu]
      | some u => simp [Response.finished, LlmDelta.used, hu, TokenUsage.zero_max]
    | false =>
      rw [or_iff_right (by simp), eq_comm]
      exact and_congr Iff.rfl eq_comm
  have hsignature : (fold (generateStream loads events)).thoughtSignature = none := by
    rw [fold_thoughtSignature, h.filterMap_last fun i item hitem => (h.answers hitem).silent.2.2,
      lastDeltas_silent rfl]
    rfl
  rw [LlmResponse.ext_iff]
  constructor
  · rintro ⟨ht, hc, hf, hu, hs, -, hb⟩
    exact ⟨htext.1 ht, hsummary.1 hs, hclosed.1 ⟨hc, hb⟩, hends.1 ⟨hf, hu⟩⟩
  · rintro ⟨hrefusals, hthoughts, hall, hlast⟩
    obtain ⟨hc, hb⟩ := hclosed.2 hall
    obtain ⟨hf, hu⟩ := hends.2 hlast
    exact ⟨htext.2 hrefusals, hc, hf, hu, hsummary.2 hthoughts, hsignature, hb⟩

end Backplane.Chat.OpenAI
