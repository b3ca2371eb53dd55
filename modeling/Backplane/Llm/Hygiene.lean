import Backplane.Llm.Reply
import Backplane.Llm.Request

/-!
# Replies that are sent on to another provider

An agent repeats a reply as an assistant turn, and another provider may be asked next.  Reasoning
blocks and signatures mean something to the provider that they come from, and to no other.

* `Hygienic` : the request has parts that are native to the provider, and nothing of the reasoning
  is in it.
* `turn_hygienic_iff` : this is so but where a reasoning item of the Responses API goes to Anthropic
  or to Gemini.
-/

namespace Backplane.Chat

variable (dumps : Value → String) (decode : String → Option (List UInt8))

/-! ### What is native to a provider -/

/-- The part is a reasoning block. -/
def Part.isReasoning (p : Part) : Bool :=
  p.type = some "thinking" || p.type = some "redacted_thinking" || p.type = some "reasoning"

/-- The part without its signature. -/
def Part.unsigned (p : Part) : Part := { p with thoughtSignature := none }

/-- The message without reasoning blocks and signatures. -/
def Message.bare : Message → Message
  | .assistant (.parts ps) =>
    .assistant (.parts ((ps.filter fun p => !p.isReasoning).map Part.unsigned))
  | m => m

/-- The types of Anthropic's blocks. -/
def Anthropic.nativeTypes : List String :=
  ["text", "image", "document", "tool_use", "tool_result", "thinking", "redacted_thinking"]

/-- The blocks of a turn. -/
def Anthropic.Turn.toItems : Turn → List Item
  | user c => c.toItems
  | assistant c => c.toItems

/-- The turn is made of Anthropic's blocks. -/
def Anthropic.Turn.Native (t : Turn) : Prop :=
  ∀ p, .part p ∈ t.toItems → ∃ type ∈ nativeTypes, p.type = some type

/-- The parts of a turn. -/
def Gemini.RequestContent.toParts : RequestContent → List ContentPart
  | user parts => parts
  | model parts => parts
  | tool response => response.parts.getD []

/-- The content is made of Gemini's parts, which have no type. -/
def Gemini.RequestContent.Native (content : RequestContent) : Prop :=
  ∀ c ∈ content.toParts, c.part.type = none

/-- The item is a message or a call, made by the adapter. -/
def OpenAI.InputItem.Native : InputItem → Prop
  | message _ => True
  | functionCall _ _ _ => True
  | _ => False

/-- The entry is that of an assistant: a text, and calls. -/
def Completions.Entry.Native : Entry → Prop
  | assistant _ _ => True
  | _ => False

/-- All of the request is native to its provider. -/
def Request.Native : Request → Prop
  | anthropic turns _ => ∀ t ∈ turns, t.Native
  | gemini contents _ => ∀ content ∈ contents, content.Native
  | openAI items _ => ∀ item ∈ items, item.Native
  | completions entries => ∀ e ∈ entries, e.Native

/-- The receiver gets what is native to it, and gets the same without the blocks and signatures. -/
structure Hygienic (receiver : Provider) (m : Message) : Prop where
  /-- What is sent is native. -/
  native : (receiver.convert dumps decode [m]).Native
  /-- Nothing depends on blocks and signatures. -/
  bare : receiver.convert dumps decode [m] = receiver.convert dumps decode [m.bare]

/-! ### What responses hold -/

/-- A part that every provider has a place for: a text, or a call. -/
inductive Part.Plain : Part → Prop
  | text (s : String) (sig : Option String) : Plain { text := some s, thoughtSignature := sig }
  | call (fc : FunctionCall) (sig : Option String) :
      Plain { functionCall := some fc, thoughtSignature := sig }

variable {dumps : Value → String} {decode : String → Option (List UInt8)} {resp : LlmResponse}
  {p : Part} {bs ps : List Part} {provider receiver : Provider}

/-- The parts of a response that are not reasoning. -/
def LlmResponse.ownParts (resp : LlmResponse) : List Part :=
  resp.textParts ++ callParts resp.toolCalls

theorem callParts_plain (calls : List ToolCall) : ∀ p ∈ callParts calls, p.Plain := by
  intro p hp
  cases calls with
  | nil => exact absurd hp List.not_mem_nil
  | cons tc rest =>
    rcases List.mem_cons.1 hp with rfl | hp
    · exact .call _ _
    · obtain ⟨tc', -, rfl⟩ := List.mem_map.1 hp
      exact .call _ _

theorem ownParts_plain (resp : LlmResponse) : ∀ p ∈ resp.ownParts, p.Plain := by
  intro p hp
  rcases List.mem_append.1 hp with hp | hp
  · rw [LlmResponse.textParts] at hp
    split_ifs at hp
    · exact absurd hp List.not_mem_nil
    · rw [List.mem_singleton.1 hp]
      exact .text _ _
    · rw [List.mem_singleton.1 hp]
      exact .text _ _
  · exact callParts_plain _ p hp

/-- Where the response has no signature, its parts have none. -/
theorem ownParts_unsigned (hresp : resp.thoughtSignature = none)
    (hcalls : ∀ tc ∈ resp.toolCalls, tc.thoughtSignature = none) :
    ∀ p ∈ resp.ownParts, p.unsigned = p := by
  intro p hp
  rcases List.mem_append.1 hp with hp | hp
  · rw [LlmResponse.textParts, hresp] at hp
    split_ifs at hp
    · exact absurd hp List.not_mem_nil
    · rw [List.mem_singleton.1 hp]
      rfl
    · rw [List.mem_singleton.1 hp]
      rfl
  · cases htool : resp.toolCalls with
    | nil =>
      rw [htool] at hp
      exact absurd hp List.not_mem_nil
    | cons tc rest =>
      rw [htool] at hp hcalls
      rcases List.mem_cons.1 hp with rfl | hp
      · rw [ToolCall.toPart, hcalls tc List.mem_cons_self]
        rfl
      · obtain ⟨tc', -, rfl⟩ := List.mem_map.1 hp
        rfl

theorem Part.Plain.not_reasoning (h : p.Plain) : p.isReasoning = false := by
  cases h <;> rfl

/-- The turn that repeats a response is its blocks and its own parts; it may be empty. -/
theorem assistantFromResponse_cases (resp : LlmResponse) :
    assistantFromResponse resp = .assistant (.text "") ∧ resp.reasoningBlocks = [] ∨
      assistantFromResponse resp = .assistant (.parts (resp.reasoningBlocks ++ resp.ownParts)) := by
  rw [assistantFromResponse, List.append_assoc,
    show resp.textParts ++ callParts resp.toolCalls = resp.ownParts from rfl]
  cases hparts : resp.reasoningBlocks ++ resp.ownParts with
  | nil => exact .inl ⟨rfl, (List.append_eq_nil_iff.1 hparts).1⟩
  | cons part parts => exact .inr rfl

/-- Without blocks and signatures, the own parts are left. -/
theorem bare_parts (hbs : ∀ b ∈ bs, b.isReasoning = true) (hps : ∀ p ∈ ps, p.Plain) :
    Message.bare (.assistant (.parts (bs ++ ps))) =
      .assistant (.parts (ps.map Part.unsigned)) := by
  have hblocks : bs.filter (fun p => !p.isReasoning) = [] :=
    List.filter_eq_nil_iff.2 fun b hb => by simp [hbs b hb]
  have hown : ps.filter (fun p => !p.isReasoning) = ps :=
    List.filter_eq_self.2 fun p hp => by simp [(hps p hp).not_reasoning]
  rw [Message.bare, List.filter_append, hblocks, hown, List.nil_append]

theorem LlmResponse.From.isReasoning (h : resp.From provider) :
    ∀ b ∈ resp.reasoningBlocks, b.isReasoning = true := by
  intro b hb
  obtain ⟨type, hmem, htype⟩ := (h.blocks b hb).type
  rw [Part.isReasoning, htype]
  cases provider with
  | anthropic =>
    rcases List.mem_cons.1 hmem with rfl | hmem
    · rfl
    · rw [List.mem_singleton.1 hmem]
      rfl
  | openAI =>
    rw [List.mem_singleton.1 hmem]
    rfl
  | gemini => exact absurd hmem List.not_mem_nil
  | completions => exact absurd hmem List.not_mem_nil

/-! ### What each provider gets -/

/-- Anthropic gets no signature, and blocks of its own types, unless there are others. -/
theorem Anthropic.native_convertPart (h : p.Plain) :
    (∃ type ∈ nativeTypes, (convertPart p).type = some type) ∧
      convertPart p.unsigned = convertPart p := by
  cases h with
  | text s sig => exact ⟨⟨"text", by decide, rfl⟩, rfl⟩
  | call fc sig => exact ⟨⟨"tool_use", by decide, rfl⟩, rfl⟩

/-- Gemini gets nothing of Anthropic's blocks. -/
theorem Gemini.convertParts_blocks (h : ∀ b ∈ bs, b.type = some "thinking" ∨
    b.type = some "redacted_thinking") :
    convertParts decode (bs ++ ps) = convertParts decode ps := by
  have hnone : bs.filterMap (convertPart decode) = [] := by
    refine List.filterMap_eq_nil_iff.2 fun b hb => ?_
    rcases h b hb with ht | ht <;> simp [convertPart, ht]
  rw [convertParts, List.filterMap_append, hnone]
  rfl

theorem Gemini.roundTrip_type {c : ContentPart} (h : roundTrip decode p = some c) :
    c.part.type = p.type := by
  rw [roundTrip] at h
  split_ifs at h
  rw [← Option.some.inj h]

theorem Gemini.native_convertPart {c : ContentPart} (h : p.Plain)
    (hc : convertPart decode p = some c) : c.part.type = none := by
  cases h with
  | text s sig => exact roundTrip_type (by simpa [convertPart] using hc)
  | call fc sig => exact roundTrip_type (by simpa [convertPart] using hc)

/-- OpenAI gets nothing of Anthropic's blocks. -/
theorem OpenAI.assistantItems_blocks {chunks : List String}
    (h : ∀ b ∈ bs, b.type = some "thinking" ∨ b.type = some "redacted_thinking") :
    assistantItems dumps chunks (bs ++ ps) = assistantItems dumps chunks ps := by
  induction bs with
  | nil => rfl
  | cons b bs ih =>
    obtain ⟨hb, hbs⟩ := List.forall_mem_cons.1 h
    rw [List.cons_append, assistantItems]
    rcases hb with ht | ht
    · rw [if_neg (by simp [ht]), if_pos (by simp [isForeign, ht])]
      exact ih hbs
    · rw [if_neg (by simp [ht]), if_pos (by simp [isForeign, ht])]
      exact ih hbs

theorem OpenAI.assistantItems_unsigned (chunks : List String) (h : ∀ p ∈ ps, p.Plain) :
    assistantItems dumps chunks (ps.map Part.unsigned) = assistantItems dumps chunks ps := by
  induction ps generalizing chunks with
  | nil => rfl
  | cons p ps ih =>
    obtain ⟨hp, hps⟩ := List.forall_mem_cons.1 h
    cases hp with
    | text s sig => exact ih _ hps
    | call fc sig =>
      exact congrArg (fun items => flushText chunks ++ .functionCall (fc.id.getD "")
        (fc.name.getD "") (argumentsText dumps (orEmpty (orValue fc.args fc.input))) :: items)
        (ih [] hps)

theorem OpenAI.native_flushText (chunks : List String) :
    ∀ item ∈ flushText chunks, item.Native := by
  intro item hitem
  rw [flushText] at hitem
  split_ifs at hitem
  · exact absurd hitem List.not_mem_nil
  · rw [List.mem_singleton.1 hitem]
    trivial

theorem OpenAI.native_assistantItems (chunks : List String) (h : ∀ p ∈ ps, p.Plain) :
    ∀ item ∈ assistantItems dumps chunks ps, item.Native := by
  induction ps generalizing chunks with
  | nil => exact native_flushText chunks
  | cons p ps ih =>
    obtain ⟨hp, hps⟩ := List.forall_mem_cons.1 h
    cases hp with
    | text s sig => exact ih _ hps
    | call fc sig =>
      intro item hitem
      rcases List.mem_append.1 hitem with hitem | hitem
      · exact native_flushText chunks item hitem
      · rcases List.mem_cons.1 hitem with rfl | hitem
        · trivial
        · exact ih [] hps item hitem

variable (dumps) in
/-- A chat completion gets nothing of the blocks. -/
theorem Completions.filterMap_blocks (h : ∀ b ∈ bs, b.isReasoning = true)
    (htext : ∀ b ∈ bs, b.text = none) (hcall : ∀ b ∈ bs, b.functionCall = none) :
    (bs ++ ps).filterMap spokenText = ps.filterMap spokenText ∧
      (bs ++ ps).filterMap (callEntry dumps) = ps.filterMap (callEntry dumps) := by
  have huse : ∀ b ∈ bs, b.type ≠ some "tool_use" := by
    intro b hb ht
    have hreasoning := h b hb
    rw [Part.isReasoning, ht] at hreasoning
    exact absurd hreasoning (by decide)
  constructor
  · rw [List.filterMap_append, List.filterMap_eq_nil_iff.2, List.nil_append]
    intro b hb
    simp [spokenText, htext b hb]
  · rw [List.filterMap_append, List.filterMap_eq_nil_iff.2, List.nil_append]
    intro b hb
    simp [callEntry, huse b hb, hcall b hb]

variable (dumps) in
theorem Completions.filterMap_unsigned (h : ∀ p ∈ ps, p.Plain) :
    (ps.map Part.unsigned).filterMap spokenText = ps.filterMap spokenText ∧
      (ps.map Part.unsigned).filterMap (callEntry dumps) = ps.filterMap (callEntry dumps) := by
  constructor
  · rw [List.filterMap_map]
    exact List.filterMap_congr fun p hp => by cases h p hp <;> rfl
  · rw [List.filterMap_map]
    exact List.filterMap_congr fun p hp => by cases h p hp <;> rfl

/-! ### Turns -/

theorem Anthropic.convert_turn (content : Chat.Content) :
    convertMessages dumps [.assistant content] =
      ((turnContent content).toList.map .assistant, .none) := by
  have hempty : ({} : Translation).flush = {} := if_pos rfl
  have hflush : ∀ turns : List Turn,
      ({ converted := turns } : Translation).flush = { converted := turns } := fun _ => if_pos rfl
  rw [convertMessages, List.foldl_cons, List.foldl_nil, step, hempty, hflush]
  rfl

theorem Anthropic.native_turn_iff :
    (Provider.convert dumps decode [.assistant (.parts ps)] .anthropic).Native ↔
      ∀ p ∈ ps, ∃ type ∈ nativeTypes, (convertPart p).type = some type := by
  change (∀ t ∈ (convertMessages dumps [.assistant (.parts ps)]).1, t.Native) ↔ _
  rw [convert_turn, turnContent]
  split_ifs with h
  · rw [h]
    exact ⟨fun _ p hp => absurd hp List.not_mem_nil, fun _ t ht => absurd ht List.not_mem_nil⟩
  · constructor
    · intro hnative p hp
      exact hnative _ (List.mem_singleton.2 rfl) _ (List.mem_map_of_mem hp)
    · intro hps t ht q hq
      rw [List.mem_singleton.1 ht] at hq
      obtain ⟨p, hp, heq⟩ := List.mem_map.1 hq
      rw [← Item.part.inj heq]
      exact hps p hp

theorem Gemini.native_turn_iff :
    (Provider.convert dumps decode [.assistant (.parts ps)] .gemini).Native ↔
      ∀ c ∈ convertParts decode ps, c.part.type = none := by
  change (∀ content ∈ convertMessage decode (.assistant (.parts ps)) ++ [], content.Native) ↔ _
  rw [List.append_nil, convertMessage]
  split_ifs with h
  · rw [show convertParts decode ps = [] from List.isEmpty_iff.1 h]
    exact ⟨fun _ p hp => absurd hp List.not_mem_nil, fun _ t ht => absurd ht List.not_mem_nil⟩
  · constructor
    · exact fun hnative => hnative _ (List.mem_singleton.2 rfl)
    · intro hps content hcontent
      rw [List.mem_singleton.1 hcontent]
      exact hps

variable (decode) in
/-- A reasoning item is passed on to Gemini. -/
theorem Gemini.convertPart_reasoning (ht : p.type = some "reasoning") (himage : p.image = none)
    (hdocument : p.document = none) :
    ∃ c, convertPart decode p = some c ∧ c.part.type = some "reasoning" := by
  have hround : convertPart decode p = roundTrip decode p := by
    simp [convertPart, ht, himage, hdocument]
  refine ⟨{ part := p.unsigned, thoughtSignature := p.thoughtSignature.bind decode }, ?_, ht⟩
  rw [hround, roundTrip, if_neg]
  · rfl
  · simp [Part.isEmpty, ht]

namespace LlmResponse.From

/-- Blocks that are no reasoning items are Anthropic's. -/
theorem foreign (h : resp.From provider)
    (hblocks : ∀ b ∈ resp.reasoningBlocks, b.type ≠ some "reasoning") :
    ∀ b ∈ resp.reasoningBlocks, b.type = some "thinking" ∨ b.type = some "redacted_thinking" := by
  intro b hb
  have hreasoning := h.isReasoning b hb
  rw [Part.isReasoning, Bool.or_eq_true, Bool.or_eq_true] at hreasoning
  rcases hreasoning with (ht | ht) | ht
  · exact .inl (of_decide_eq_true ht)
  · exact .inr (of_decide_eq_true ht)
  · exact absurd (of_decide_eq_true ht) (hblocks b hb)

theorem blocks_eq_nil (h : resp.From provider) (hprovider : provider ≠ .anthropic)
    (hblocks : ∀ b ∈ resp.reasoningBlocks, b.type ≠ some "reasoning") :
    resp.reasoningBlocks = [] := by
  refine List.eq_nil_iff_forall_not_mem.2 fun b hb => ?_
  obtain ⟨type, hmem, htype⟩ := (h.blocks b hb).type
  cases provider with
  | anthropic => exact hprovider rfl
  | openAI => exact hblocks b hb (htype.trans (by rw [List.mem_singleton.1 hmem]))
  | gemini => exact absurd hmem List.not_mem_nil
  | completions => exact absurd hmem List.not_mem_nil

variable (dumps decode)

theorem hygienic_anthropic (h : resp.From provider) (hne : provider ≠ .anthropic)
    (hblocks : ∀ b ∈ resp.reasoningBlocks, b.type ≠ some "reasoning") :
    Hygienic dumps decode .anthropic
      (.assistant (.parts (resp.reasoningBlocks ++ resp.ownParts))) := by
  have hnil := h.blocks_eq_nil hne hblocks
  have hplain := ownParts_plain resp
  constructor
  · rw [hnil, List.nil_append]
    exact Anthropic.native_turn_iff.2 fun p hp => (Anthropic.native_convertPart (hplain p hp)).1
  · rw [bare_parts h.isReasoning hplain, hnil, List.nil_append]
    have hmap : ((resp.ownParts.map Part.unsigned).map fun p =>
        Anthropic.Item.part (Anthropic.convertPart p)) =
        resp.ownParts.map fun p => .part (Anthropic.convertPart p) := by
      rw [List.map_map]
      exact List.map_congr_left fun p hp =>
        congrArg Anthropic.Item.part (Anthropic.native_convertPart (hplain p hp)).2
    have hturn : Anthropic.turnContent (.parts (resp.ownParts.map Part.unsigned)) =
        Anthropic.turnContent (.parts resp.ownParts) := by
      rw [Anthropic.turnContent, Anthropic.turnContent, hmap]
      simp only [List.map_eq_nil_iff]
    rw [Provider.convert, Provider.convert, Anthropic.convert_turn, Anthropic.convert_turn, hturn]

theorem hygienic_gemini (h : resp.From provider) (hne : provider ≠ .gemini)
    (hblocks : ∀ b ∈ resp.reasoningBlocks, b.type ≠ some "reasoning") :
    Hygienic dumps decode .gemini
      (.assistant (.parts (resp.reasoningBlocks ++ resp.ownParts))) := by
  have hplain := ownParts_plain resp
  have hdrop : Gemini.convertParts decode (resp.reasoningBlocks ++ resp.ownParts) =
      Gemini.convertParts decode resp.ownParts := Gemini.convertParts_blocks (h.foreign hblocks)
  constructor
  · refine Gemini.native_turn_iff.2 fun c hc => ?_
    rw [hdrop] at hc
    obtain ⟨p, hp, hpc⟩ := List.mem_filterMap.1 hc
    exact Gemini.native_convertPart (hplain p hp) hpc
  · obtain ⟨hresp, hcalls⟩ := h.unsigned hne
    have hunsigned : resp.ownParts.map Part.unsigned = resp.ownParts :=
      (List.map_congr_left (ownParts_unsigned hresp hcalls)).trans (List.map_id _)
    rw [bare_parts h.isReasoning hplain, hunsigned]
    change Request.gemini (Gemini.convertMessage decode _ ++ []) [] =
      Request.gemini (Gemini.convertMessage decode _ ++ []) []
    rw [Gemini.convertMessage, Gemini.convertMessage, Gemini.turnParts, Gemini.turnParts, hdrop]

theorem hygienic_openAI (h : resp.From provider) (hne : provider ≠ .openAI) :
    Hygienic dumps decode .openAI
      (.assistant (.parts (resp.reasoningBlocks ++ resp.ownParts))) := by
  have hplain := ownParts_plain resp
  have hdrop : OpenAI.assistantItems dumps [] (resp.reasoningBlocks ++ resp.ownParts) =
      OpenAI.assistantItems dumps [] resp.ownParts :=
    OpenAI.assistantItems_blocks (h.foreign (h.ne_reasoning hne))
  constructor
  · change ∀ item ∈ OpenAI.assistantItems dumps [] _ ++ [], item.Native
    rw [List.append_nil, hdrop]
    exact OpenAI.native_assistantItems [] hplain
  · rw [bare_parts h.isReasoning hplain]
    change Request.openAI (OpenAI.assistantItems dumps [] _ ++ []) [] =
      Request.openAI (OpenAI.assistantItems dumps [] _ ++ []) []
    rw [hdrop, OpenAI.assistantItems_unsigned [] hplain]

theorem hygienic_completions (h : resp.From provider) :
    Hygienic dumps decode .completions
      (.assistant (.parts (resp.reasoningBlocks ++ resp.ownParts))) := by
  have hplain := ownParts_plain resp
  constructor
  · change ∀ e ∈ Completions.assistantEntry _ _ ++ [], e.Native
    intro e he
    rw [List.append_nil, Completions.assistantEntry] at he
    split_ifs at he
    · rw [List.mem_singleton.1 he]
      trivial
    · rw [List.mem_singleton.1 he]
      trivial
    · exact absurd he List.not_mem_nil
  · rw [bare_parts h.isReasoning hplain]
    change Request.completions (Completions.assistantEntry _ _ ++ []) =
      Request.completions (Completions.assistantEntry _ _ ++ [])
    obtain ⟨htexts, hcalls⟩ := Completions.filterMap_blocks dumps h.isReasoning
      (fun b hb => (h.blocks b hb).blind.1) fun b hb => (h.blocks b hb).blind.2.1
    obtain ⟨htexts', hcalls'⟩ := Completions.filterMap_unsigned dumps hplain
    rw [htexts, hcalls, htexts', hcalls']

/-- A reasoning item is not kept from Anthropic, nor from Gemini. -/
theorem not_native (h : resp.From provider) {b : Part} (hb : b ∈ resp.reasoningBlocks)
    (ht : b.type = some "reasoning") (hreceiver : receiver = .anthropic ∨ receiver = .gemini)
    (ps : List Part) : ¬ (receiver.convert dumps decode
      [.assistant (.parts (resp.reasoningBlocks ++ ps))]).Native := by
  intro hnative
  have hmem : b ∈ resp.reasoningBlocks ++ ps := List.mem_append_left _ hb
  rcases hreceiver with rfl | rfl
  · obtain ⟨type, htypes, htype⟩ := Anthropic.native_turn_iff.1 hnative b hmem
    have hsame : (Anthropic.convertPart b).type = some "reasoning" := by
      rw [Anthropic.convertPart, if_pos (by rw [ht]; rfl)]
      exact ht
    obtain rfl := Option.some.inj (htype.symm.trans hsame)
    exact absurd htypes (by decide)
  · obtain ⟨-, -, himage, hdocument⟩ := (h.blocks b hb).blind
    obtain ⟨c, hc, htype⟩ := Gemini.convertPart_reasoning decode ht himage hdocument
    have hnone := Gemini.native_turn_iff.1 hnative c (List.mem_filterMap.2 ⟨b, hmem, hc⟩)
    exact absurd (htype.symm.trans hnone) (by simp)

/-- Blocks and signatures are kept from other providers, except for reasoning items. -/
theorem hygienic_iff (h : resp.From provider) (hne : provider ≠ receiver) :
    Hygienic dumps decode receiver (assistantFromResponse resp) ↔
      (receiver = .anthropic ∨ receiver = .gemini →
        ∀ b ∈ resp.reasoningBlocks, b.type ≠ some "reasoning") := by
  rcases assistantFromResponse_cases resp with ⟨hturn, hnil⟩ | hturn
  · rw [hturn, hnil]
    refine ⟨fun _ _ b hb => absurd hb List.not_mem_nil, fun _ => ⟨?_, rfl⟩⟩
    cases receiver with
    | anthropic =>
      change ∀ t ∈ (Anthropic.convertMessages dumps _).1, t.Native
      rw [Anthropic.convert_turn]
      exact fun t ht => absurd ht List.not_mem_nil
    | gemini =>
      intro content hcontent c hc
      rw [List.mem_singleton.1 hcontent] at hc
      rw [List.mem_singleton.1 hc]
    | openAI => exact fun item hitem => absurd hitem List.not_mem_nil
    | completions => exact fun e he => absurd he List.not_mem_nil
  · rw [hturn]
    constructor
    · intro hclean hreceiver b hb ht
      exact h.not_native dumps decode hb ht hreceiver _ hclean.native
    · intro hblocks
      cases receiver with
      | anthropic => exact h.hygienic_anthropic dumps decode hne (hblocks (.inl rfl))
      | gemini => exact h.hygienic_gemini dumps decode hne (hblocks (.inr rfl))
      | openAI => exact h.hygienic_openAI dumps decode hne
      | completions => exact h.hygienic_completions dumps decode

end LlmResponse.From

/-- **A turn is fit for another provider**, unless there is a reasoning item of the Responses API in
it and the other provider is Anthropic or Gemini. -/
theorem turn_hygienic_iff (dumps : Value → String) (decode : String → Option (List UInt8))
    (x : Reply) (receiver : Provider) (h : x.provider ≠ receiver) :
    Hygienic dumps decode receiver (assistantFromResponse x.toNeutral) ↔
      (receiver = .anthropic ∨ receiver = .gemini → x.reasons = false) := by
  rw [x.from_toNeutral.hygienic_iff dumps decode h, ← Bool.not_eq_true, x.reasons_iff]
  simp only [not_exists, not_and]

namespace Sample

/-- A response with a reasoning item, and an answer. -/
def reasoned : OpenAI.Response where
  output := [.reasoning (some "rs_1") (some "gAAA") [] none, .message [.outputText "42"]]

/-- A message with thoughts, and an answer. -/
def mused : Anthropic.Message where
  content := [.thinking "6 times 7" "EqQB", .text "42"]
  stopReason := some "end_turn"
  usage := none

end Sample

/-- Thoughts of Anthropic are kept from Gemini. -/
theorem turn_hygienic_mused :
    Hygienic (fun _ => "") (fun _ => none) .gemini
      (assistantFromResponse (Reply.toNeutral (.anthropic Sample.mused))) :=
  (turn_hygienic_iff _ _ (.anthropic Sample.mused) .gemini (by decide)).2 fun _ => rfl

/-- **Another provider may be sent a reasoning item.** -/
theorem turn_leaks_reasoning : ¬ ∀ (dumps : Value → String) (decode : String → Option (List UInt8))
    (x : Reply) (receiver : Provider), x.provider ≠ receiver →
      Hygienic dumps decode receiver (assistantFromResponse x.toNeutral) := by
  intro hall
  have hclean := (hall (fun _ => "") (fun _ => none) (.openAI (fun _ => none) Sample.reasoned)
    .anthropic (by decide)).native
  obtain ⟨type, hmem, htype⟩ := hclean _ (List.mem_singleton.2 rfl) _ (List.mem_cons_self)
  obtain rfl : type = "reasoning" := (Option.some.inj htype).symm
  exact absurd hmem (by decide)

end Backplane.Chat
