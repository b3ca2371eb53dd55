import Backplane.Llm.AnthropicStream
import Backplane.Llm.CompletionsStream
import Backplane.Llm.GeminiStream
import Backplane.Llm.Messages
import Backplane.Llm.OpenAIStream

/-!
# Replies of the four providers

What an adapter makes of its provider's answer, whole or streamed, holds the reasoning of that
provider and of no other: its blocks are of the provider's types, and only Gemini signs.

* `Reply`, `Reply.toNeutral` : the answers, and what the adapters make of them.
* `LlmResponse.From` : the reasoning of a response is the provider's.
* `Reply.from_toNeutral` : this is so for every reply.
* `Reply.reasons_iff` : the replies that hold a reasoning item of the Responses API.
-/

namespace Backplane.Chat

/-- What a provider answers, whole or streamed; `loads` reads the arguments of calls. -/
inductive Reply
  | anthropic (m : Anthropic.Message)
  | anthropicStream (loads : String → Option Value) (events : List Anthropic.Event)
  | gemini (r : Gemini.Response)
  | geminiStream (chunks : List Gemini.Response)
  | openAI (loads : String → Option Value) (r : OpenAI.Response)
  | openAIStream (loads : String → Option Value) (events : List OpenAI.Event)
  | completions (loads : String → Option Value) (r : Completions.Response)
  | completionsStream (loads : String → Option Value) (chunks : List Completions.Chunk)

namespace Reply

/-- The provider that answers. -/
def provider : Reply → Provider
  | anthropic _ | anthropicStream _ _ => .anthropic
  | gemini _ | geminiStream _ => .gemini
  | openAI _ _ | openAIStream _ _ => .openAI
  | completions _ _ | completionsStream _ _ => .completions

/-- The response that the adapter makes of it. -/
def toNeutral : Reply → LlmResponse
  | anthropic m => Anthropic.convertResponse m
  | anthropicStream loads events => fold (Anthropic.generateStream loads events)
  | gemini r => Gemini.convertResponse r
  | geminiStream chunks => fold (Gemini.generateStream chunks)
  | openAI loads r => OpenAI.convertResponse loads r
  | openAIStream loads events => fold (OpenAI.generateStream loads events)
  | completions loads r => Completions.convertResponse loads r
  | completionsStream loads chunks => fold (Completions.generateStream loads chunks)

end Reply

/-- The types of a provider's reasoning blocks. -/
def Provider.reasoningTypes : Provider → List String
  | anthropic => ["thinking", "redacted_thinking"]
  | openAI => ["reasoning"]
  | gemini | completions => []

/-- A reasoning block of the provider. -/
structure Part.BlockOf (provider : Provider) (b : Part) : Prop where
  /-- The type is one of the provider's. -/
  type : ∃ type ∈ provider.reasoningTypes, b.type = some type
  /-- It holds nothing that a neutral part holds. -/
  blind : b.text = none ∧ b.functionCall = none ∧ b.image = none ∧ b.document = none

/-- The reasoning of the response is the provider's: its blocks are, and only Gemini signs. -/
structure LlmResponse.From (provider : Provider) (resp : LlmResponse) : Prop where
  blocks : ∀ b ∈ resp.reasoningBlocks, b.BlockOf provider
  unsigned : provider ≠ .gemini →
    resp.thoughtSignature = none ∧ ∀ tc ∈ resp.toolCalls, tc.thoughtSignature = none

variable {resp : LlmResponse} {provider : Provider}

/-- Only OpenAI has reasoning items. -/
theorem LlmResponse.From.ne_reasoning (h : resp.From provider) (hprovider : provider ≠ .openAI) :
    ∀ b ∈ resp.reasoningBlocks, b.type ≠ some "reasoning" := by
  intro b hb ht
  obtain ⟨type, hmem, htype⟩ := (h.blocks b hb).type
  obtain rfl := Option.some.inj (htype.symm.trans ht)
  cases provider with
  | openAI => exact hprovider rfl
  | anthropic => exact absurd hmem (by decide)
  | gemini => exact absurd hmem (by decide)
  | completions => exact absurd hmem (by decide)

/-! ### Where responses come from -/

/-- The reasoning that a delta brings is the provider's. -/
structure LlmDelta.From (provider : Provider) (d : LlmDelta) : Prop where
  block : ∀ b, d.reasoningBlock = some b → b.BlockOf provider
  unsigned : provider ≠ .gemini →
    d.thoughtSignature = none ∧ ∀ tc, d.toolCall = some tc → tc.thoughtSignature = none

/-- A delta without reasoning. -/
theorem LlmDelta.From.of_none {d : LlmDelta} (hblock : d.reasoningBlock = none)
    (hsig : d.thoughtSignature = none)
    (hcall : ∀ tc, d.toolCall = some tc → tc.thoughtSignature = none) : d.From provider :=
  ⟨fun b hb => absurd (hblock.symm.trans hb) (by simp), fun _ => ⟨hsig, hcall⟩⟩

/-- What is folded from a provider's deltas is the provider's. -/
theorem from_fold {ds : List LlmDelta} (h : ∀ d ∈ ds, d.From provider) :
    (fold ds).From provider := by
  constructor
  · intro b hb
    rw [fold_reasoningBlocks] at hb
    obtain ⟨d, hd, hblock⟩ := List.mem_filterMap.1 hb
    rw [LlmDelta.block] at hblock
    split_ifs at hblock
    exact (h d hd).block b hblock
  · intro hprovider
    constructor
    · rw [fold_thoughtSignature, List.filterMap_eq_nil_iff.2]
      · rfl
      · intro d hd
        rw [LlmDelta.signature, ((h d hd).unsigned hprovider).1]
        split_ifs <;> rfl
    · intro tc htc
      rw [fold_toolCalls] at htc
      obtain ⟨d, hd, hcall⟩ := List.mem_filterMap.1 htc
      rw [LlmDelta.call] at hcall
      split_ifs at hcall
      exact ((h d hd).unsigned hprovider).2 tc hcall

theorem Anthropic.blockOf_thinking (th sig : String) :
    (thinkingPart th sig).BlockOf .anthropic :=
  ⟨⟨"thinking", by decide, rfl⟩, rfl, rfl, rfl, rfl⟩

theorem Anthropic.blockOf_redacted (data : String) : (redactedPart data).BlockOf .anthropic :=
  ⟨⟨"redacted_thinking", by decide, rfl⟩, rfl, rfl, rfl, rfl⟩

theorem Anthropic.from_convertResponse (m : Message) :
    (convertResponse m).From .anthropic := by
  refine ⟨fun b hb => ?_, fun _ => ⟨rfl, fun tc htc => ?_⟩⟩
  · obtain ⟨block, -, hmem⟩ := List.mem_flatMap.1 hb
    cases block with
    | thinking th sig =>
      rw [List.mem_singleton.1 hmem]
      exact blockOf_thinking th sig
    | redactedThinking data =>
      rw [List.mem_singleton.1 hmem]
      exact blockOf_redacted data
    | text t => exact absurd hmem List.not_mem_nil
    | toolUse id name input => exact absurd hmem List.not_mem_nil
    | other type => exact absurd hmem List.not_mem_nil
  · obtain ⟨block, -, hmem⟩ := List.mem_flatMap.1 htc
    cases block with
    | toolUse id name input => rw [List.mem_singleton.1 hmem]
    | text t => exact absurd hmem List.not_mem_nil
    | thinking th sig => exact absurd hmem List.not_mem_nil
    | redactedThinking data => exact absurd hmem List.not_mem_nil
    | other type => exact absurd hmem List.not_mem_nil

theorem Anthropic.from_close (loads : String → Option Value) (b : BlockState) :
    ∀ d ∈ b.close loads, d.From .anthropic := by
  intro d hd
  cases b with
  | toolUse id name parts =>
    rw [List.mem_singleton.1 hd]
    exact .of_none rfl rfl fun tc htc => by rw [← Option.some.inj htc]
  | thinking chunks sig =>
    rw [List.mem_singleton.1 hd]
    exact ⟨fun b hb => Option.some.inj hb ▸ blockOf_thinking _ _, fun _ => ⟨rfl, by simp⟩⟩
  | redactedThinking data =>
    rw [List.mem_singleton.1 hd]
    exact ⟨fun b hb => Option.some.inj hb ▸ blockOf_redacted _, fun _ => ⟨rfl, by simp⟩⟩
  | plain => exact absurd hd List.not_mem_nil

theorem Anthropic.from_stepEvent (loads : String → Option Value) (s : StreamState) (e : Event) :
    ∀ d ∈ (stepEvent loads s e).2, d.From .anthropic := by
  intro d hd
  cases e with
  | messageStart usage =>
    cases usage with
    | none => exact absurd hd List.not_mem_nil
    | some u =>
      rw [List.mem_singleton.1 hd]
      exact .of_none rfl rfl (by simp)
  | contentBlockStart i block => exact absurd hd List.not_mem_nil
  | contentBlockDelta i delta =>
    have htext : ∀ (t : String) (thought : Bool),
        d ∈ (if t = "" then [] else [({ text := some t, thought := thought } : LlmDelta)]) →
          d.From .anthropic := by
      intro t thought hd
      split_ifs at hd
      · exact absurd hd List.not_mem_nil
      · rw [List.mem_singleton.1 hd]
        exact .of_none rfl rfl (by simp)
    cases delta with
    | text t => exact htext t false hd
    | thinking t => exact htext t true hd
    | signature sig => exact absurd hd List.not_mem_nil
    | inputJson json => exact absurd hd List.not_mem_nil
    | other type => exact absurd hd List.not_mem_nil
  | contentBlockStop i =>
    change d ∈ (s.blocks.lookup i).elim [] (BlockState.close loads) at hd
    cases hi : s.blocks.lookup i with
    | none => exact absurd (hi ▸ hd) List.not_mem_nil
    | some b => exact from_close loads b d (by rwa [hi] at hd)
  | messageDelta stopReason usage =>
    rw [stepEvent] at hd
    split_ifs at hd
    · rw [List.mem_singleton.1 hd]
      exact .of_none rfl rfl (by simp)
    · exact absurd hd List.not_mem_nil
  | other type => exact absurd hd List.not_mem_nil

theorem OpenAI.blockOf_block {item : OutputItem} {b : Part} (h : item.block = some b) :
    b.BlockOf .openAI := by
  cases item with
  | reasoning id encryptedContent summary content =>
    rw [← Option.some.inj h]
    exact ⟨⟨"reasoning", by decide, rfl⟩, rfl, rfl, rfl, rfl⟩
  | _ => cases h

theorem OpenAI.from_convertResponse (loads : String → Option Value) (r : Response) :
    (convertResponse loads r).From .openAI := by
  refine ⟨fun b hb => ?_, fun _ => ⟨rfl, fun tc htc => ?_⟩⟩
  · obtain ⟨item, -, hblock⟩ := List.mem_filterMap.1 hb
    exact blockOf_block hblock
  · obtain ⟨item, -, hcall⟩ := List.mem_filterMap.1 htc
    cases item with
    | functionCall callId name arguments => rw [← Option.some.inj hcall]
    | _ => cases hcall

theorem OpenAI.from_step (loads : String → Option Value) (s : Table ℕ ItemState) (e : Event) :
    ∀ d ∈ ((translator loads).step s e).2, d.From .openAI := by
  have htext : ∀ (t : String) (thought : Bool), ∀ d ∈ textDelta t thought, d.From .openAI := by
    intro t thought d hd
    rw [textDelta] at hd
    split_ifs at hd
    · exact absurd hd List.not_mem_nil
    · rw [List.mem_singleton.1 hd]
      exact .of_none rfl rfl (by simp)
  intro d hd
  cases e with
  | outputItemAdded i item => exact absurd hd List.not_mem_nil
  | argumentsDelta i chunk => exact absurd hd List.not_mem_nil
  | argumentsDone i =>
    rw [List.mem_singleton.1 hd]
    refine .of_none rfl rfl fun tc htc => ?_
    rw [← Option.some.inj htc]
    cases s.lookup i with
    | none => rfl
    | some st => cases st <;> rfl
  | outputTextDelta i text => exact htext _ _ d hd
  | refusalDelta i text => exact htext _ _ d hd
  | outputItemDone i item =>
    obtain ⟨b, hb, rfl⟩ := List.mem_map.1 hd
    refine ⟨fun b' hb' => ?_, fun _ => ⟨rfl, by simp⟩⟩
    rw [← Option.some.inj hb']
    exact blockOf_block (Option.mem_toList.1 hb)
  | completed r =>
    rw [List.mem_singleton.1 hd]
    exact .of_none rfl rfl (by simp [Response.finished])
  | other type => exact absurd hd List.not_mem_nil

theorem Completions.from_convertResponse (loads : String → Option Value) (r : Response) :
    (convertResponse loads r).From .completions := by
  rw [convertResponse]
  split
  · exact ⟨fun b hb => absurd hb List.not_mem_nil,
      fun _ => ⟨rfl, fun tc htc => absurd htc List.not_mem_nil⟩⟩
  · refine ⟨fun _ hb => absurd hb List.not_mem_nil, fun _ => ⟨rfl, fun tc htc => ?_⟩⟩
    obtain ⟨call, -, rfl⟩ := List.mem_map.1 htc
    rfl

theorem Completions.from_emit (q : ChoicePiece) : ∀ d ∈ q.emit, d.From .completions := by
  intro d hd
  rw [ChoicePiece.emit] at hd
  rcases List.mem_append.1 hd with hd | hd
  · split_ifs at hd
    · exact absurd hd List.not_mem_nil
    · rw [List.mem_singleton.1 hd]
      exact .of_none rfl rfl (by simp)
  · split_ifs at hd
    · exact absurd hd List.not_mem_nil
    · rw [List.mem_singleton.1 hd]
      exact .of_none rfl rfl (by simp)

theorem Completions.from_flush (loads : String → Option Value) (s : StreamState) :
    ∀ d ∈ s.flush loads, d.From .completions := by
  intro d hd
  rcases List.mem_append.1 hd with hd | hd
  · obtain ⟨call, hcall, rfl⟩ := List.mem_map.1 hd
    obtain ⟨⟨i, buf⟩, -, hflush⟩ := List.mem_filterMap.1 hcall
    refine .of_none rfl rfl fun tc htc => ?_
    rw [← Option.some.inj htc]
    change buf.flush loads _ = _ at hflush
    rw [CallBuffer.flush] at hflush
    cases hargs : loadArgs loads buf.args with
    | some args =>
      rw [hargs] at hflush
      rw [← Option.some.inj hflush]
    | none =>
      rw [hargs] at hflush
      change (if _ then none else _) = _ at hflush
      split_ifs at hflush
      rw [← Option.some.inj hflush]
  · rw [List.mem_singleton.1 hd]
    exact .of_none rfl rfl (by simp)

theorem Completions.from_generateStream (loads : String → Option Value) (chunks : List Chunk) :
    ∀ d ∈ generateStream loads chunks, d.From .completions := by
  refine List.forall_mem_append.2 ⟨Transducer.forall_out (fun s chunk d hd => ?_) _ _,
    from_flush loads _⟩
  obtain ⟨q, -, hq⟩ := List.mem_flatMap.1 hd
  exact from_emit q d hq

theorem Gemini.from_convertResponse (r : Response) : (convertResponse r).From .gemini :=
  ⟨fun _ hb => absurd hb List.not_mem_nil, fun h => absurd rfl h⟩

theorem Gemini.from_generateStream (chunks : List Response) :
    ∀ d ∈ generateStream chunks, d.From .gemini := by
  intro d hd
  refine ⟨fun _ hb => ?_, fun h => absurd rfl h⟩
  obtain ⟨chunk, -, hd⟩ := List.mem_flatMap.1 hd
  have hnone : d.reasoningBlock = none := by
    rcases List.mem_append.1 hd with hd | hd
    · obtain ⟨q, -, hq⟩ := List.mem_flatMap.1 hd
      rw [ReplyPart.emit] at hq
      split_ifs at hq
      · rw [List.mem_singleton.1 hq]
        rfl
      · exact absurd hq List.not_mem_nil
    · rw [Response.tail] at hd
      split_ifs at hd
      · rw [List.mem_singleton.1 hd]
      · exact absurd hd List.not_mem_nil
  exact absurd (hnone.symm.trans hb) (by simp)

/-- The reasoning of a reply is its provider's. -/
theorem Reply.from_toNeutral (x : Reply) : x.toNeutral.From x.provider := by
  cases x with
  | anthropic m => exact Anthropic.from_convertResponse m
  | anthropicStream loads events =>
    exact from_fold (Transducer.forall_out (Anthropic.from_stepEvent loads) _ _)
  | gemini r => exact Gemini.from_convertResponse r
  | geminiStream chunks => exact from_fold (Gemini.from_generateStream chunks)
  | openAI loads r => exact OpenAI.from_convertResponse loads r
  | openAIStream loads events =>
    exact from_fold (Transducer.forall_out (OpenAI.from_step loads) _ _)
  | completions loads r => exact Completions.from_convertResponse loads r
  | completionsStream loads chunks =>
    exact from_fold (Completions.from_generateStream loads chunks)

/-! ### Where there are reasoning items -/

/-- The block of the item that an event brings to its end. -/
def OpenAI.Event.block : Event → Option Part
  | outputItemDone _ item => item.block
  | _ => none

/-- A reasoning item of the Responses API is in the reply. -/
def Reply.reasons : Reply → Bool
  | openAI _ r => r.output.any fun item => item.block.isSome
  | openAIStream _ events => events.any fun e => e.block.isSome
  | _ => false

/-- The blocks of a stream are those of the items that come to their end. -/
theorem OpenAI.filterMap_block_out {loads : String → Option Value} {s : Table ℕ ItemState}
    {events : List Event} :
    ((translator loads).out s events).filterMap LlmDelta.block = events.filterMap Event.block := by
  have htext : ∀ (t : String) (thought : Bool),
      (textDelta t thought).filterMap LlmDelta.block = [] := by
    intro t thought
    rw [textDelta]
    split_ifs <;> rfl
  have hstep : ∀ (s : Table ℕ ItemState) (e : Event),
      (((translator loads).step s e).2).filterMap LlmDelta.block = e.block.toList := by
    intro s e
    cases e with
    | outputItemDone i item =>
      change item.done.filterMap LlmDelta.block = item.block.toList
      rw [OutputItem.done]
      cases item.block <;> rfl
    | outputTextDelta i text => exact htext _ _
    | refusalDelta i text => exact htext _ _
    | _ => rfl
  induction events generalizing s with
  | nil => rfl
  | cons e events ih =>
    rw [Transducer.out_cons, List.filterMap_append, hstep, ih]
    cases hblock : e.block with
    | none => rw [List.filterMap_cons_none hblock]; rfl
    | some b => rw [List.filterMap_cons_some hblock]; rfl

theorem any_isSome_iff {α : Type} {f : α → Option Part} {l : List α}
    (h : ∀ x b, f x = some b → b.type = some "reasoning") :
    (l.any fun x => (f x).isSome) = true ↔ ∃ b ∈ l.filterMap f, b.type = some "reasoning" := by
  rw [List.any_eq_true]
  constructor
  · rintro ⟨x, hx, hsome⟩
    obtain ⟨b, hb⟩ := Option.isSome_iff_exists.1 hsome
    exact ⟨b, List.mem_filterMap.2 ⟨x, hx, hb⟩, h x b hb⟩
  · rintro ⟨b, hb, -⟩
    obtain ⟨x, hx, hxb⟩ := List.mem_filterMap.1 hb
    exact ⟨x, hx, by rw [hxb]; rfl⟩

theorem OpenAI.type_block {item : OutputItem} {b : Part} (h : item.block = some b) :
    b.type = some "reasoning" := by
  obtain ⟨type, hmem, htype⟩ := (blockOf_block h).type
  rw [htype, List.mem_singleton.1 hmem]

theorem Reply.reasons_iff (x : Reply) :
    x.reasons = true ↔ ∃ b ∈ x.toNeutral.reasoningBlocks, b.type = some "reasoning" := by
  have hnone : ∀ y : Reply, y.provider ≠ .openAI → y.reasons = false →
      (y.reasons = true ↔ ∃ b ∈ y.toNeutral.reasoningBlocks, b.type = some "reasoning") := by
    intro y hprovider hfalse
    rw [hfalse]
    refine ⟨fun h => absurd h Bool.false_ne_true, fun ⟨b, hb, ht⟩ => ?_⟩
    exact absurd ht (y.from_toNeutral.ne_reasoning hprovider b hb)
  cases x with
  | openAI loads r => exact any_isSome_iff fun item b => OpenAI.type_block
  | openAIStream loads events =>
    have hblocks : (toNeutral (.openAIStream loads events)).reasoningBlocks =
        events.filterMap OpenAI.Event.block := by
      rw [toNeutral, fold_reasoningBlocks, OpenAI.generateStream, OpenAI.filterMap_block_out]
    rw [hblocks]
    refine any_isSome_iff fun e b hb => ?_
    cases e with
    | outputItemDone i item => exact OpenAI.type_block hb
    | _ => cases hb
  | _ => exact hnone _ (fun h => by cases h) rfl

end Backplane.Chat
