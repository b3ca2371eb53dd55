import Backplane.Llm.Neutral
import Mathlib.Data.List.Chain

/-!
# Histories

The messages of a conversation, the same for every provider: what agents build and what the adapters
translate into requests.

* `Message`, `assistantFromResponse` : messages, and the turn that repeats a response.
* `Message.texts`, `Message.systemTexts` : the texts of a message.
* `Answered` : the histories in which the calls of each turn are answered before the next turn.
* `joinLines` : texts that are put together with newlines.
-/

namespace Backplane.Chat

/-- The adapters. -/
inductive Provider
  | anthropic
  | gemini
  | openAI
  /-- `openai_compatible` -/
  | completions
  deriving DecidableEq

/-- The content of a message. -/
inductive Content
  | text (s : String)
  | parts (ps : List Part)

/-- The content of a tool result. -/
inductive ToolContent
  | text (s : String)
  | parts (ps : List Part)
  | obj (fields : Dict)

/-- `Message` -/
inductive Message
  | system (content : Content)
  | user (content : Content)
  | assistant (content : Content)
  | tool (content : ToolContent) (name toolCallId : Option String)

/-! ### Values that are missing or empty -/

/-- The literal of a number that is not zero. -/
def nonzero (literal : String) : Bool :=
  (literal.toList.takeWhile fun c => c ≠ 'e' && c ≠ 'E').any fun c => c.isDigit && c ≠ '0'

/-- The value counts as true. -/
def Value.truthy : Value → Bool
  | .null => false
  | .bool b => b
  | .num literal => nonzero literal
  | .str s => s ≠ ""
  | .arr xs => !xs.isEmpty
  | .obj fields => !fields.isEmpty

/-- `x or {}` -/
def orEmpty (x : Option Value) : Value := (x.filter Value.truthy).getD (.obj [])

/-- `x or y` -/
def orValue (x y : Option Value) : Option Value := (x.filter Value.truthy).or y

/-- The part is `{}`. -/
def Part.isEmpty (p : Part) : Bool :=
  p.type.isNone && p.text.isNone && p.image.isNone && p.document.isNone && p.functionCall.isNone &&
    p.thoughtSignature.isNone && p.cacheControl.isNone && p.id.isNone && p.name.isNone &&
    p.input.isNone && p.arguments.isNone && p.inlineData.isNone && p.rest.isEmpty

/-! ### The turn that repeats a response -/

/-- The part of a tool call; only the first carries its signature. -/
def ToolCall.toPart (isFirst : Bool) (tc : ToolCall) : Part where
  functionCall := some
    { id := if tc.id = "" then none else some tc.id, name := some tc.name, args := some tc.args }
  thoughtSignature := if isFirst then tc.thoughtSignature.filter (· ≠ "") else none

/-- The parts of tool calls. -/
def callParts : List ToolCall → List Part
  | [] => []
  | tc :: rest => tc.toPart true :: rest.map (ToolCall.toPart false)

/-- The part of the text, unless it is empty. -/
def LlmResponse.textParts (resp : LlmResponse) : List Part :=
  if resp.text = "" then []
  else [{
    text := some resp.text
    thoughtSignature :=
      if resp.toolCalls.isEmpty then resp.thoughtSignature.filter (· ≠ "") else none }]

/-- `Message.assistant_from_response` -/
def assistantFromResponse (resp : LlmResponse) : Message :=
  match resp.reasoningBlocks ++ resp.textParts ++ callParts resp.toolCalls with
  | [] => .assistant (.text "")
  | part :: parts => .assistant (.parts (part :: parts))

/-! ### The texts of a history -/

/-- A part with a text is a text and nothing else. -/
def Part.Neutral (p : Part) : Prop :=
  p.text.isSome → p.image.isNone ∧ p.document.isNone ∧ p.functionCall.isNone ∧
    (p.type = none ∨ p.type = some "text")

theorem Part.Neutral.text_eq_none {p : Part} (h : p.Neutral)
    (hp : p.functionCall.isSome ∨ ∃ type, p.type = some type ∧ type ≠ "text") : p.text = none := by
  by_contra hne
  obtain ⟨-, -, hcall, htype⟩ := h (Option.isSome_iff_ne_none.2 hne)
  rcases hp with hp | ⟨type, hp, hne⟩
  · exact absurd hp (by simp [Option.isNone_iff_eq_none.1 hcall])
  · rcases htype with htype | htype
    · exact absurd (hp.symm.trans htype) (by simp)
    · exact hne (Option.some.inj (hp.symm.trans htype))

/-- The texts that are not empty. -/
def written (texts : List String) : List String := texts.filter (· ≠ "")

theorem written_append (xs ys : List String) : written (xs ++ ys) = written xs ++ written ys :=
  List.filter_append ..

theorem written_eq_nil {xs : List String} : written xs = [] ↔ ∀ x ∈ xs, x = "" := by
  simp [written]

theorem written_flatMap_congr {α : Type} {l : List α} {f g : α → List String}
    (h : ∀ x ∈ l, written (f x) = written (g x)) :
    written (l.flatMap f) = written (l.flatMap g) := by
  induction l with
  | nil => rfl
  | cons x l ih =>
    rw [List.flatMap_cons, List.flatMap_cons, written_append, written_append,
      h x List.mem_cons_self, ih fun y hy => h y (List.mem_cons_of_mem _ hy)]

theorem written_flatMap {α : Type} (l : List α) (f : α → List String) :
    written (l.flatMap f) = l.flatMap fun x => written (f x) := by
  induction l with
  | nil => rfl
  | cons x l ih => rw [List.flatMap_cons, written_append, ih, List.flatMap_cons]

/-- The parts of a content. -/
def Content.toParts : Content → List Part
  | text _ => []
  | parts ps => ps

/-- The texts of a content. -/
def Content.texts : Content → List String
  | text s => [s]
  | parts ps => ps.filterMap Part.text

/-- The parts of a tool result. -/
def ToolContent.toParts : ToolContent → List Part
  | parts ps => ps
  | _ => []

/-- The texts of a tool result. -/
def ToolContent.texts : ToolContent → List String
  | text s => [s]
  | parts ps => ps.filterMap Part.text
  | obj _ => []

namespace Message

/-- The parts of a message. -/
def toParts : Message → List Part
  | system c => c.toParts
  | user c => c.toParts
  | assistant c => c.toParts
  | tool c _ _ => c.toParts

/-- The texts that a message adds to the conversation. -/
def texts : Message → List String
  | system _ => []
  | user c => c.texts
  | assistant c => c.texts
  | tool c _ _ => c.texts

/-- The texts that a message adds to the system value. -/
def systemTexts : Message → List String
  | system c => c.texts
  | _ => []

/-- The message is a tool result. -/
def isTool : Message → Bool
  | tool _ _ _ => true
  | _ => false

/-- The message is a system message. -/
def isSystem : Message → Bool
  | system _ => true
  | _ => false

/-- The call that a tool result answers. -/
def answers : Message → Option String
  | tool _ _ toolCallId => some (toolCallId.getD "")
  | _ => none

end Message

/-- The calls of a content, by their ids; `call` finds the calls among the parts. -/
def Content.calls (call : Part → Option String) (c : Content) : List String :=
  c.toParts.filterMap call

/-- The calls of a message. -/
def Message.calls (call : Part → Option String) : Message → List String
  | assistant c => c.calls call
  | _ => []

/-- The calls of each assistant turn are answered before the next turn, and nothing else is
answered; `R` says how the answers fit the calls. -/
inductive Answered (call : Part → Option String) (R : List String → List String → Prop) :
    List Message → Prop
  | nil : Answered call R []
  | other {m : Message} {ms : List Message} (hm : m.calls call = []) (ht : m.isTool = false)
      (h : Answered call R ms) : Answered call R (m :: ms)
  /-- A turn with calls, and the answers. -/
  | batch {c : Content} {results ms : List Message} (hc : c.calls call ≠ [])
      (hresults : ∀ m ∈ results, m.isTool = true ∨ m.isSystem = true)
      (hids : R (results.filterMap Message.answers) (c.calls call)) (h : Answered call R ms) :
      Answered call R (.assistant c :: (results ++ ms))

/-! ### What requests are made of -/

/-- The text of a tool result, in a request that has no place for its parts. -/
inductive ToolText
  | text (s : String)
  | dumped (s : String)
  /-- The parts follow elsewhere. -/
  | notice (name : Option String)

/-- The text as it is sent. -/
def ToolText.render : ToolText → String
  | text s => s
  | dumped s => s
  | notice name => "[binary payload from " ++ (name.filter (· ≠ "")).getD "tool" ++
    " tool result follows in next user message]"

/-- The text of a result, where it is sent as it is. -/
def ToolText.texts : ToolText → List String
  | text s => [s]
  | _ => []

/-- A URL that holds the data. -/
def dataUrl (mime data : String) : String := "data:" ++ mime ++ ";base64," ++ data

/-- `display_name`, or the name of a document that has none. -/
def Blob.filename (b : Blob) : String := (b.displayName.filter (· ≠ "")).getD "document.pdf"

/-! ### Texts with newlines between them -/

/-- `f"{s}\n{t}" if s else t` -/
def addLine (s t : String) : String := if s = "" then t else s ++ "\n" ++ t

/-- Texts that are put together line by line. -/
def joinLines : List String → String
  | [] => ""
  | t :: ts => ts.foldl addLine t

theorem foldl_addLine_eq_empty {ts : List String} {s : String} (h : ts.foldl addLine s = "") :
    s = "" ∧ ∀ t ∈ ts, t = "" := by
  induction ts generalizing s with
  | nil => exact ⟨h, fun t ht => absurd ht List.not_mem_nil⟩
  | cons t ts ih =>
    obtain ⟨hst, hts⟩ := ih h
    rw [addLine] at hst
    split_ifs at hst with hs
    · exact ⟨hs, List.forall_mem_cons.2 ⟨hst, hts⟩⟩
    · exact absurd (String.append_eq_empty_iff.1 (String.append_eq_empty_iff.1 hst).1).1 hs

/-- Only empty texts make an empty text. -/
theorem eq_empty_of_joinLines {ts : List String} (h : joinLines ts = "") : ∀ t ∈ ts, t = "" := by
  cases ts with
  | nil => exact fun t ht => absurd ht List.not_mem_nil
  | cons s ts => exact List.forall_mem_cons.2 (foldl_addLine_eq_empty h)

end Backplane.Chat
