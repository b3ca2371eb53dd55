import Backplane.Llm.Messages

/-!
# Requests to OpenAI

A history becomes a flat list of items.  An assistant message is taken apart: its texts are gathered
into message items, which come before the reasoning and the calls that follow them.

* `convertUserPart`, `assistantItems`, `convertMessages` : the translation.
* `texts` : the texts of the items.
* `texts_convertMessage` : the texts of the conversation are carried over.
-/

namespace Backplane.Chat.OpenAI

/-! ### The translation -/

/-- A block of a user item. -/
inductive InputBlock
  | native (p : Part)
  | inputImage (imageUrl : String)
  | inputFile (filename fileData : String)
  | inputText (s : String)

/-- `content`, of a user item -/
inductive InputContent
  | text (s : String)
  | blocks (bs : List InputBlock)

/-- An item of a request. -/
inductive InputItem
  | functionCallOutput (callId : String) (output : ToolText)
  | user (content : InputContent)
  /-- `message`, of the assistant: one text, by the pieces it is put together from. -/
  | message (pieces : List String)
  | reasoning (p : Part)
  | functionCall (callId name arguments : String)
  /-- `function_call`, as it is. -/
  | nativeCall (p : Part)

/-- The type is that of another provider's reasoning. -/
def isForeign (p : Part) : Bool := p.type = some "thinking" || p.type = some "redacted_thinking"

/-- `_convert_user_part` -/
def convertUserPart (p : Part) : Option InputBlock :=
  if p.type.any fun t => "input_".toList.isPrefixOf t.toList then some (.native p)
  else if isForeign p then none
  else match p.image with
  | some img => some (.inputImage (dataUrl (img.mimeType.getD "image/jpeg") (img.data.getD "")))
  | none => match p.document with
    | some doc => some (.inputFile doc.filename
      (dataUrl (doc.mimeType.getD "application/pdf") (doc.data.getD "")))
    | none => match p.text with
      | some s => some (.inputText s)
      | none => some (.native p)

/-- The block is not `{}`. -/
def InputBlock.truthy : InputBlock → Bool
  | native p => !p.isEmpty
  | _ => true

/-- The blocks of parts. -/
def inputBlocks (ps : List Part) : List InputBlock :=
  (ps.filterMap convertUserPart).filter InputBlock.truthy

/-- A user item, unless there is nothing in it. -/
def userItem : Content → List InputItem
  | .text s => if s = "" then [] else [.user (.text s)]
  | .parts ps => if (inputBlocks ps).isEmpty then [] else [.user (.blocks (inputBlocks ps))]

/-- `_assistant_text_item`, of the texts that have been gathered; nothing, if they are empty. -/
def flushText (chunks : List String) : List InputItem :=
  if String.join chunks = "" then [] else [.message chunks]

/-- `_serialize_reasoning_block` -/
def serializeReasoningBlock (p : Part) : Part where
  type := some "reasoning"
  id := p.id
  rest := p.rest.filter fun x =>
    x.1 = "summary" || x.1 = "content" || x.1 = "encrypted_content"

variable (dumps : Value → String)

/-- `_normalize_function_call_item` -/
def normalizeFunctionCallItem (p : Part) : Part :=
  match p.arguments with
  | some (.obj fields) => { p with arguments := some (.str (dumps (.obj fields))) }
  | _ => p

/-- A value as text. -/
def argumentsText : Value → String
  | .str s => s
  | v => dumps v

/-- The parts of an assistant message; `chunks`: the texts that have been gathered. -/
def assistantItems (chunks : List String) : List Part → List InputItem
  | [] => flushText chunks
  | p :: ps =>
    if p.type = some "reasoning" then
      flushText chunks ++ .reasoning (serializeReasoningBlock p) :: assistantItems [] ps
    else if isForeign p then assistantItems chunks ps
    else if p.type = some "function_call" then
      flushText chunks ++ .nativeCall (normalizeFunctionCallItem dumps p) :: assistantItems [] ps
    else match p.functionCall with
    | some fc =>
      flushText chunks ++ .functionCall (fc.id.getD "") (fc.name.getD "")
        (argumentsText dumps (orEmpty (orValue fc.args fc.input))) :: assistantItems [] ps
    | none => match p.text with
      | some s => assistantItems (if s = "" then chunks else chunks ++ [s]) ps
      | none => assistantItems chunks ps

/-- A message, in the body of `_convert_messages`. -/
def convertMessage : Message → List InputItem
  | .system _ => []
  | .tool (.parts ps) name toolCallId =>
    .functionCallOutput (toolCallId.getD "") (.notice name) ::
      if (inputBlocks ps).isEmpty then [] else [.user (.blocks (inputBlocks ps))]
  | .tool (.text s) _ toolCallId => [.functionCallOutput (toolCallId.getD "") (.text s)]
  | .tool (.obj fields) _ toolCallId =>
    [.functionCallOutput (toolCallId.getD "") (.dumped (dumps (.obj fields)))]
  | .user content => userItem content
  | .assistant (.text s) => flushText [s]
  | .assistant (.parts ps) => assistantItems dumps [] ps

/-- The line that a message adds to the instructions. -/
def instructionLine : Message → Option String
  | .system (.text s) => some s
  | _ => none

/-- `_convert_messages`: the items, and the lines of the instructions; no line: `None`. -/
def convertMessages (messages : List Message) : List InputItem × List String :=
  (messages.flatMap (convertMessage dumps), messages.filterMap instructionLine)

/-! ### Texts -/

/-- The text of a block. -/
def InputBlock.toText : InputBlock → Option String
  | native p => p.text
  | inputText s => some s
  | _ => none

/-- The texts of an item. -/
def InputItem.texts : InputItem → List String
  | functionCallOutput _ output => output.texts
  | user (.text s) => [s]
  | user (.blocks bs) => bs.filterMap InputBlock.toText
  | message pieces => pieces
  | _ => []

variable {dumps : Value → String} {p : Part} {ps : List Part}

theorem convertUserPart_text (h : p.Neutral) :
    ((convertUserPart p).filter InputBlock.truthy).bind InputBlock.toText = p.text := by
  obtain ⟨type, text, image, document, call, sig, cache, id, name, input, args, inline, rest⟩ := p
  cases text with
  | none =>
    have hnative : ∀ q : Part, q.text = none →
        ((some (InputBlock.native q)).filter InputBlock.truthy).bind InputBlock.toText = none := by
      intro q hq
      rw [Option.filter_some]
      split_ifs
      · exact hq
      · rfl
    rw [convertUserPart]
    split_ifs
    · exact hnative _ rfl
    · rfl
    · cases image <;> cases document <;> first | rfl | exact hnative _ rfl
  | some t =>
    obtain ⟨himage, hdocument, -, htype⟩ := h rfl
    obtain rfl := Option.isNone_iff_eq_none.1 himage
    obtain rfl := Option.isNone_iff_eq_none.1 hdocument
    rcases htype with rfl | rfl <;> rfl

theorem inputBlocks_texts (h : ∀ p ∈ ps, p.Neutral) :
    (inputBlocks ps).filterMap InputBlock.toText = ps.filterMap Part.text := by
  rw [inputBlocks, ← List.filterMap_eq_filter, List.filterMap_filterMap, List.filterMap_filterMap]
  refine List.filterMap_congr fun p hp => ?_
  rw [← convertUserPart_text (h p hp)]
  cases convertUserPart p with
  | none => rfl
  | some b =>
    simp only [Option.bind_some, Option.filter_some, Option.guard]

theorem flushText_texts (chunks : List String) :
    written ((flushText chunks).flatMap InputItem.texts) = written chunks := by
  rw [flushText]
  split_ifs with h
  · exact (written_eq_nil.2 (join_eq_empty.1 h)).symm
  · exact congrArg written (List.append_nil _)

/-- The texts of an assistant message are gathered, in order. -/
theorem assistantItems_texts (chunks : List String) (h : ∀ p ∈ ps, p.Neutral) :
    written ((assistantItems dumps chunks ps).flatMap InputItem.texts) =
      written (chunks ++ ps.filterMap Part.text) := by
  induction ps generalizing chunks with
  | nil =>
    rw [List.filterMap_nil, List.append_nil]
    exact flushText_texts chunks
  | cons p ps ih =>
    obtain ⟨hp, hps⟩ := List.forall_mem_cons.1 h
    -- An item that is no text comes after the texts that have been gathered.
    have hflush : ∀ item : InputItem, item.texts = [] → p.text = none →
        written ((flushText chunks ++ item :: assistantItems dumps [] ps).flatMap InputItem.texts) =
          written (chunks ++ (p :: ps).filterMap Part.text) := by
      intro item hitem hnone
      rw [List.flatMap_append, List.flatMap_cons, hitem, List.nil_append, written_append,
        flushText_texts, ih [] hps, List.nil_append, List.filterMap_cons_none hnone, written_append]
    rw [assistantItems]
    split_ifs with hreasoning hforeign hnative
    · exact hflush _ rfl (hp.text_eq_none (.inr ⟨_, hreasoning, by decide⟩))
    · have hnone : p.text = none := by
        rcases Bool.or_eq_true_iff.1 hforeign with ht | ht
        · exact hp.text_eq_none (.inr ⟨_, of_decide_eq_true ht, by decide⟩)
        · exact hp.text_eq_none (.inr ⟨_, of_decide_eq_true ht, by decide⟩)
      rw [ih chunks hps, List.filterMap_cons_none hnone]
    · exact hflush _ rfl (hp.text_eq_none (.inr ⟨_, hnative, by decide⟩))
    · cases hcall : p.functionCall with
      | some fc => exact hflush _ rfl (hp.text_eq_none (.inl (by rw [hcall]; rfl)))
      | none =>
        cases htext : p.text with
        | none => exact (ih chunks hps).trans (by rw [List.filterMap_cons_none htext])
        | some s =>
          change written ((assistantItems dumps _ ps).flatMap InputItem.texts) = _
          rw [ih _ hps, List.filterMap_cons_some htext]
          split_ifs with hs
          · simp [written, hs]
          · rw [List.append_assoc, List.singleton_append]

/-- **A message's texts are carried over.** -/
theorem texts_convertMessage {m : Message} (h : ∀ p ∈ m.toParts, p.Neutral) :
    written ((convertMessage dumps m).flatMap InputItem.texts) = written m.texts := by
  have hblocks : ∀ {ps : List Part}, (∀ p ∈ ps, p.Neutral) →
      (if (inputBlocks ps).isEmpty then [] else [InputItem.user (.blocks (inputBlocks ps))]).flatMap
        InputItem.texts = ps.filterMap Part.text := by
    intro ps hps
    rw [← inputBlocks_texts hps]
    split_ifs with hempty
    · rw [List.isEmpty_iff.1 hempty]
      rfl
    · exact List.flatMap_singleton ..
  cases m with
  | system content => rfl
  | user content =>
    cases content with
    | text s =>
      rw [convertMessage, userItem]
      split_ifs with hs
      · simp [Message.texts, Content.texts, written, hs]
      · rfl
    | parts ps => exact congrArg written (hblocks h)
  | assistant content =>
    cases content with
    | text s => exact flushText_texts [s]
    | parts ps => exact assistantItems_texts [] h
  | tool content name toolCallId =>
    cases content with
    | text s => rfl
    | obj fields => rfl
    | parts ps => exact congrArg written (hblocks h)

end Backplane.Chat.OpenAI
