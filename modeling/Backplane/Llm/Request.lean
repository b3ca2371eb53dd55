import Backplane.Data.Transducer
import Backplane.Llm.AnthropicRequest
import Backplane.Llm.CompletionsRequest
import Backplane.Llm.GeminiRequest
import Backplane.Llm.OpenAIRequest

/-!
# Requests to the four providers

A system message may be a string or a list.  Anthropic's adapter and the one for chat completions
carry the texts of both; the others have a place for strings only.

* `Request`, `Provider.convert` : a history as it is sent to a provider.
* `Carries` : each text is in the request once, in order.
* `convert_carries_iff` : this is so but where Gemini or OpenAI is sent a system message that is a
  list with a text.
-/

namespace Backplane.Chat

/-- What a history is translated to. -/
inductive Request
  /-- Turns, and the system value. -/
  | anthropic (turns : List Anthropic.Turn) (system : Anthropic.SystemValue)
  /-- Contents, and the lines of the system instruction. -/
  | gemini (contents : List Gemini.RequestContent) (system : List String)
  /-- Items, and the lines of the instructions. -/
  | openAI (items : List OpenAI.InputItem) (instructions : List String)
  | completions (entries : List Completions.Entry)

variable (dumps : Value → String) (decode : String → Option (List UInt8))

/-- `_convert_messages`, of each adapter -/
def Provider.convert (messages : List Message) : Provider → Request
  | anthropic =>
    .anthropic (Anthropic.convertMessages dumps messages).1
      (Anthropic.convertMessages dumps messages).2
  | gemini =>
    .gemini (Gemini.convertMessages decode messages).1 (Gemini.convertMessages decode messages).2
  | openAI =>
    .openAI (OpenAI.convertMessages dumps messages).1 (OpenAI.convertMessages dumps messages).2
  | completions => .completions (Completions.convertMessages dumps messages)

/-! ### Texts -/

namespace Request

/-- The texts of the system value. -/
def systemTexts : Request → List String
  | anthropic _ system => system.pieces.map Prod.fst
  | gemini _ system => system
  | openAI _ instructions => instructions
  | completions entries => entries.flatMap Completions.Entry.systemTexts

/-- The texts of the conversation. -/
def texts : Request → List String
  | anthropic turns _ => turns.flatMap Anthropic.Turn.texts
  | gemini contents _ => contents.flatMap Gemini.RequestContent.texts
  | openAI items _ => items.flatMap OpenAI.InputItem.texts
  | completions entries => entries.flatMap Completions.Entry.texts

end Request

/-- Each text that is not empty is in the request once, in order. -/
structure Carries (messages : List Message) (request : Request) : Prop where
  system : written request.systemTexts = written (messages.flatMap Message.systemTexts)
  conversation : written request.texts = written (messages.flatMap Message.texts)

/-- If the message is a system message and a list, its texts are empty. -/
def Message.PlainSystem (m : Message) : Prop :=
  ∀ ps, m = .system (.parts ps) → ∀ s ∈ ps.filterMap Part.text, s = ""

variable {dumps : Value → String} {decode : String → Option (List UInt8)}
  {messages : List Message}

/-- The lines of system messages that are strings are all their texts, if lists have none. -/
theorem written_systemLine_iff : written (messages.filterMap Gemini.systemLine) =
    written (messages.flatMap Message.systemTexts) ↔ ∀ m ∈ messages, m.PlainSystem := by
  have hmessage : ∀ m ∈ messages,
      (written (Gemini.systemLine m).toList).Sublist (written m.systemTexts) ∧
        (written (Gemini.systemLine m).toList = written m.systemTexts ↔ m.PlainSystem) := by
    intro m _
    cases m with
    | system content =>
      cases content with
      | text s => exact ⟨List.Sublist.refl _, iff_of_true rfl fun ps hps => by cases hps⟩
      | parts ps =>
        refine ⟨List.nil_sublist _, fun h ps' hps => ?_, fun h => ?_⟩
        · cases hps
          exact written_eq_nil.1 h.symm
        · exact (written_eq_nil.2 (h ps rfl)).symm
    | _ => exact ⟨List.Sublist.refl _, iff_of_true rfl fun ps hps => by cases hps⟩
  rw [List.filterMap_eq_flatMap_toList, written_flatMap, written_flatMap,
    flatMap_eq_iff_of_sublist fun m hm => (hmessage m hm).1]
  exact forall₂_congr fun m hm => (hmessage m hm).2

theorem instructionLine_eq : OpenAI.instructionLine = Gemini.systemLine := by
  funext m
  cases m with
  | system content => cases content <;> rfl
  | _ => rfl

/-- **Each text is carried into the request**, unless it is that of a system message that is a list,
and the request is for Gemini or OpenAI. -/
theorem convert_carries_iff (dumps : Value → String) (decode : String → Option (List UInt8))
    (provider : Provider) {messages : List Message}
    (h : ∀ m ∈ messages, ∀ p ∈ m.toParts, p.Neutral) :
    Carries messages (provider.convert dumps decode messages) ↔
      (provider = .gemini ∨ provider = .openAI → ∀ m ∈ messages, m.PlainSystem) := by
  cases provider with
  | anthropic =>
    refine iff_of_true ⟨?_, ?_⟩ fun hp => by rcases hp with hp | hp <;> cases hp
    · exact Anthropic.systemTexts_convertMessages dumps messages
    · exact Anthropic.texts_convertMessages h
  | gemini =>
    have htexts : written ((messages.flatMap (Gemini.convertMessage decode)).flatMap
        Gemini.RequestContent.texts) = written (messages.flatMap Message.texts) := by
      rw [List.flatMap_assoc]
      exact congrArg written
        (List.flatMap_congr fun m hm => Gemini.texts_convertMessage (h m hm))
    constructor
    · exact fun hcarries _ => written_systemLine_iff.1 hcarries.system
    · exact fun hplain => ⟨written_systemLine_iff.2 (hplain (.inl rfl)), htexts⟩
  | openAI =>
    have htexts : written ((messages.flatMap (OpenAI.convertMessage dumps)).flatMap
        OpenAI.InputItem.texts) = written (messages.flatMap Message.texts) := by
      rw [List.flatMap_assoc]
      exact written_flatMap_congr fun m hm => OpenAI.texts_convertMessage (h m hm)
    have hlines : written (messages.filterMap OpenAI.instructionLine) =
        written (messages.flatMap Message.systemTexts) ↔ ∀ m ∈ messages, m.PlainSystem := by
      rw [instructionLine_eq]
      exact written_systemLine_iff
    constructor
    · exact fun hcarries _ => hlines.1 hcarries.system
    · exact fun hplain => ⟨hlines.2 (hplain (.inr rfl)), htexts⟩
  | completions =>
    refine iff_of_true ⟨?_, ?_⟩ fun hp => by rcases hp with hp | hp <;> cases hp
    · change written ((messages.flatMap _).flatMap _) = _
      rw [List.flatMap_assoc]
      exact written_flatMap_congr fun m hm => Completions.systemTexts_convertMessage (h m hm)
    · change written ((messages.flatMap _).flatMap _) = _
      rw [List.flatMap_assoc]
      exact written_flatMap_congr fun m hm => Completions.texts_convertMessage (h m hm)

namespace Sample

/-- A prompt that is a string, and a question. -/
def asked : List Message := [.system (.text "Be brief."), .user (.text "What is 6 times 7?")]

/-- A prompt that is a list, and a question. -/
def askedInParts : List Message :=
  [.system (.parts [{ type := some "text", text := some "Be brief." }]),
    .user (.text "What is 6 times 7?")]

end Sample

theorem convert_carries_asked :
    Carries Sample.asked (Provider.gemini.convert (fun _ => "") (fun _ => none) Sample.asked) :=
  (convert_carries_iff _ _ .gemini (by simp [Sample.asked, Message.toParts, Content.toParts])).2
    fun _ m hm ps hps => by
      rcases List.mem_cons.1 hm with rfl | hm
      · cases hps
      · rw [List.mem_singleton.1 hm] at hps
        cases hps

/-- **A prompt that is a list is not sent to Gemini.** -/
theorem convert_loses_prompt : ¬ ∀ (dumps : Value → String)
    (decode : String → Option (List UInt8)) (provider : Provider) (messages : List Message),
    (∀ m ∈ messages, ∀ p ∈ m.toParts, p.Neutral) →
      Carries messages (provider.convert dumps decode messages) := by
  intro hall
  have hcarries := hall (fun _ => "") (fun _ => none) .gemini Sample.askedInParts (by
    simp [Sample.askedInParts, Message.toParts, Content.toParts, Part.Neutral])
  exact absurd hcarries.system (by decide)

end Backplane.Chat
