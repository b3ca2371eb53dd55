import Backplane.Llm.Messages

/-!
# Requests to Gemini

Each message becomes a content of its own; the system instruction is one string, made of the system
messages that are strings.

* `convertPart`, `convertMessages` : the translation.
* `texts` : the texts of the contents.
* `texts_convertMessages` : the texts of the conversation are carried over.
-/

namespace Backplane.Chat.Gemini

/-! ### The translation -/

/-- A part of a content. -/
structure ContentPart where
  /-- All keys but the signature. -/
  part : Part
  /-- `thought_signature`, in bytes -/
  thoughtSignature : Option (List UInt8) := none

/-- `response`, of a result -/
inductive ResponseValue
  /-- `result`: the text. -/
  | result (s : String)
  /-- `result`: a string that refers to the parts. -/
  | stub
  /-- `result`: the names of the parts. -/
  | refs (names : List String)
  | obj (fields : Dict)

/-- `function_response` -/
structure FunctionResponse where
  name : String
  id : Option String
  response : ResponseValue
  parts : Option (List ContentPart) := none

/-- A content. -/
inductive RequestContent
  | user (parts : List ContentPart)
  | model (parts : List ContentPart)
  | tool (response : FunctionResponse)

/-- `inline_data`, of an image or a document -/
def inlineData (b : Blob) : Blob where
  mimeType := some (b.mimeType.getD "application/octet-stream")
  data := some (b.data.getD "")
  displayName := b.displayName.filter (· ≠ "")

variable (decode : String → Option (List UInt8))

/-- A part as it is, but for its signature; `{}`: nothing is left. -/
def roundTrip (p : Part) : Option ContentPart :=
  let signature := p.thoughtSignature.bind decode
  let part := { p with thoughtSignature := none }
  if part.isEmpty && signature.isNone then none
  else some { part := part, thoughtSignature := signature }

/-- `_convert_part`; `{}`: the part is left out. -/
def convertPart (p : Part) : Option ContentPart :=
  if p.type = some "thinking" || p.type = some "redacted_thinking" then none
  else match p.image with
  | some b => some { part := { inlineData := some (inlineData b) } }
  | none => match p.document with
    | some b => some { part := { inlineData := some (inlineData b) } }
    | none => roundTrip decode p

/-- The parts that are not left out. -/
def convertParts (ps : List Part) : List ContentPart := ps.filterMap (convertPart decode)

/-- The names of the parts that have one. -/
def displayNames (ps : List ContentPart) : List String :=
  ps.filterMap fun c => c.part.inlineData.bind fun b => b.displayName.filter (· ≠ "")

/-- A result. -/
def functionResponse (content : ToolContent) (name toolCallId : Option String) :
    FunctionResponse :=
  let id := toolCallId.filter (· ≠ "")
  match content with
  | .text s => { name := name.getD "", id := id, response := .result s }
  | .obj fields => { name := name.getD "", id := id, response := .obj fields }
  | .parts ps =>
    let parts := convertParts decode ps
    let names := displayNames parts
    { name := name.getD "", id := id, parts := some parts
      response := if names.isEmpty then .stub else .refs names.eraseDups }

/-- The parts of a turn. -/
def turnParts : Content → List ContentPart
  | .text s => [{ part := { text := some s } }]
  | .parts ps => convertParts decode ps

/-- A message, in the body of `_convert_messages`. -/
def convertMessage : Message → List RequestContent
  | .system _ => []
  | .tool content name toolCallId => [.tool (functionResponse decode content name toolCallId)]
  | .user content =>
    if (turnParts decode content).isEmpty then [] else [.user (turnParts decode content)]
  | .assistant content =>
    if (turnParts decode content).isEmpty then [] else [.model (turnParts decode content)]

/-- The line that a message adds to the system instruction. -/
def systemLine : Message → Option String
  | .system (.text s) => some s
  | _ => none

/-- `_convert_messages`: the contents, and the lines of the system instruction; no line: `None`. -/
def convertMessages (messages : List Message) : List RequestContent × List String :=
  (messages.flatMap (convertMessage decode), messages.filterMap systemLine)

/-! ### Texts -/

/-- The texts of a content. -/
def RequestContent.texts : RequestContent → List String
  | user parts => parts.filterMap fun c => c.part.text
  | model parts => parts.filterMap fun c => c.part.text
  | tool r => (match r.response with
    | .result s => [s]
    | _ => []) ++ (r.parts.getD []).filterMap fun c => c.part.text

variable {decode : String → Option (List UInt8)} {p : Part} {ps : List Part}

theorem convertPart_text (h : p.Neutral) :
    (convertPart decode p).bind (fun c => c.part.text) = p.text := by
  obtain ⟨type, text, image, document, call, sig, cache, id, name, input, args, inline, rest⟩ := p
  cases text with
  | none =>
    rw [convertPart]
    split_ifs
    · rfl
    · cases image <;> cases document <;> try rfl
      simp only [roundTrip]
      split_ifs <;> rfl
  | some t =>
    obtain ⟨himage, hdocument, -, htype⟩ := h rfl
    obtain rfl := Option.isNone_iff_eq_none.1 himage
    obtain rfl := Option.isNone_iff_eq_none.1 hdocument
    rcases htype with rfl | rfl <;> simp [convertPart, roundTrip, Part.isEmpty]

theorem convertParts_texts (h : ∀ p ∈ ps, p.Neutral) :
    (convertParts decode ps).filterMap (fun c => c.part.text) = ps.filterMap Part.text := by
  rw [convertParts, List.filterMap_filterMap]
  exact List.filterMap_congr fun p hp => convertPart_text (h p hp)

theorem turnParts_texts {content : Content} (h : ∀ p ∈ content.toParts, p.Neutral) :
    (turnParts decode content).filterMap (fun c => c.part.text) = content.texts := by
  cases content with
  | text s => rfl
  | parts ps => exact convertParts_texts h

/-- **A message's texts are carried over.** -/
theorem texts_convertMessage {m : Message} (h : ∀ p ∈ m.toParts, p.Neutral) :
    (convertMessage decode m).flatMap RequestContent.texts = m.texts := by
  have hturn : ∀ (content : Content) (f : List ContentPart → RequestContent),
      (∀ ps, (f ps).texts = ps.filterMap fun c => c.part.text) →
      (∀ p ∈ content.toParts, p.Neutral) →
      (if (turnParts decode content).isEmpty then []
        else [f (turnParts decode content)]).flatMap RequestContent.texts = content.texts := by
    intro content f hf hneutral
    have htexts : (turnParts decode content).filterMap (fun c => c.part.text) = content.texts :=
      turnParts_texts hneutral
    rw [← htexts]
    split_ifs with hempty
    · rw [List.isEmpty_iff.1 hempty]
      rfl
    · rw [List.flatMap_singleton, hf]
  cases m with
  | system content => rfl
  | user content => exact hturn content .user (fun _ => rfl) h
  | assistant content => exact hturn content .model (fun _ => rfl) h
  | tool content name toolCallId =>
    rw [convertMessage, List.flatMap_singleton]
    cases content with
    | text s => rfl
    | obj fields => rfl
    | parts ps =>
      change (match (if _ then ResponseValue.stub else _) with
        | .result s => [s]
        | _ => []) ++ (convertParts decode ps).filterMap _ = _
      have hps : ∀ p ∈ ps, p.Neutral := h
      rw [convertParts_texts hps]
      split_ifs <;> rfl

end Backplane.Chat.Gemini
