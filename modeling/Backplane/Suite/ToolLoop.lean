import Backplane.Concur.Trace
import Backplane.Data.Repr
import Backplane.Data.Transcript
import Backplane.Protocol.Types

/-!
# The loop of calls to a model

An agent asks its model, carries out the calls of tools in the answer, and asks again with the
results, until the answer has no calls, has a call that ends the loop, or a limit is reached.  Then
it asks once more, without tools.

* `Message`, `ToolCall`, `LlmResponse` : what is said to a model, and its answers.
* `LoopAct`, `Loop` : the steps, and programs that may raise.
* `dispatchToolCall`, `generateResilient`, `runLlmLoop` : the loop.
* `runOrchestratorMessage` : a turn of the orchestrator, with the loop that it runs when a hand-off
  is refused.
-/

namespace Backplane.ToolLoop

open Concur Prog Transcript

/-! ### Messages -/

/-- Who speaks. -/
inductive MessageRole
  | system | user | assistant | tool
  deriving DecidableEq, Repr

/-- The arguments of a call; those that are texts. -/
abbrev Args := List (String × String)

/-- A part of a content. -/
inductive Part
  | text (s : String)
  /-- A call of a tool, without its `id` if that is empty. -/
  | functionCall (id : Option String) (name : String) (args : Args)
  | fileRef (name : String)
  | reasoning (block : String)
  deriving DecidableEq, Repr

/-- What a message says. -/
inductive Content
  | text (s : String)
  | parts (ps : List Part)
  | json (fields : Args)
  deriving DecidableEq, Repr

/-- A message. -/
structure Message where
  role : MessageRole
  content : Content
  name : Option String := none
  toolCallId : Option String := none
  deriving DecidableEq, Repr

/-- A call of a tool, as the model makes it. -/
structure ToolCall where
  /-- `id`, which may be empty. -/
  id : String
  name : String
  args : Args := []
  deriving DecidableEq, Repr

/-- An answer of the model. -/
structure LlmResponse where
  text : String := ""
  toolCalls : List ToolCall := []
  reasoningBlocks : List String := []
  deriving DecidableEq, Repr

/-- The parts of an answer. -/
def responseParts (resp : LlmResponse) : List Part :=
  resp.reasoningBlocks.map .reasoning ++ (if resp.text = "" then [] else [.text resp.text]) ++
    resp.toolCalls.map fun tc =>
      .functionCall (if tc.id = "" then none else some tc.id) tc.name tc.args

/-- `Message.assistant_from_response` -/
def assistantFromResponse (resp : LlmResponse) : Message :=
  if responseParts resp = [] then { role := .assistant, content := .text "" }
  else { role := .assistant, content := .parts (responseParts resp) }

/-- `Message.tool_response`, for a call. -/
def toolResponse (tc : ToolCall) (response : Content) : Message :=
  { role := .tool, content := response, name := some tc.name, toolCallId := some tc.id }

/-- The `id` of a part, if it is a call. -/
def Part.callId : Part → Option String
  | functionCall id _ _ => some (id.getD "")
  | _ => none

/-- The calls a message makes, by `id`. -/
def Message.callIds (m : Message) : List String :=
  match m.role, m.content with
  | .assistant, .parts ps => ps.filterMap Part.callId
  | _, _ => []

/-- A message as an entry of a transcript: a reply to a call, or a turn. -/
def Message.entry (m : Message) : Entry String :=
  if m.role = .tool then .reply (m.toolCallId.getD "") else .turn m.callIds

/-- **A prompt is complete**: every call of every turn has its one answer, in order, before the next
turn. -/
abbrev CompletePrompt (messages : List Message) : Prop := Complete (messages.map Message.entry)

/-- A file that a model cannot be shown. -/
def unfeedableNote (isPrintable : Char → Bool) (name : String) : String :=
  "[The file " ++ pyRepr isPrintable name ++ " could not be shown to the model — " ++
  "this backend can't read that file type directly. " ++
  "Convert it to text or Markdown first (e.g. with a " ++
  "document-conversion tool) and read the result.]"

/-- A part without the file it attaches. -/
def Part.strip (isPrintable : Char → Bool) : Part → Part
  | fileRef name => .text (unfeedableNote isPrintable (if name = "" then "file" else name))
  | p => p

/-- The part attaches a file. -/
def Part.attaches : Part → Bool
  | fileRef _ => true
  | _ => false

/-- A message without the files it attaches. -/
def Message.strip (isPrintable : Char → Bool) (m : Message) : Message :=
  match m.content with
  | .parts ps => { m with content := .parts (ps.map (Part.strip isPrintable)) }
  | _ => m

/-- The message attaches a file. -/
def Message.attaches (m : Message) : Bool :=
  match m.content with
  | .parts ps => ps.any Part.attaches
  | _ => false

/-! ### Steps -/

/-- What a step raises. -/
inductive Fault
  /-- `CancelledError`, `CancellationError` -/
  | cancelled
  | failed (text : String)
  deriving DecidableEq, Repr

/-- What a call to a model raises. -/
inductive LlmFault
  /-- `LlmCallError` -/
  | rejected (retriable : Bool) (text : String)
  | fault (f : Fault)
  deriving DecidableEq, Repr

/-- What a step on files raises. -/
inductive FileFault
  | store (code : String)
  | fault (f : Fault)
  deriving DecidableEq, Repr

/-- How a task of another agent has ended. -/
structure ChildResult where
  status : TaskStatus
  content : Option String := none
  files : List String := []
  /-- `error["code"]` -/
  errorCode : Option String := none
  /-- `error["message"]` -/
  errorMessage : Option String := none
  deriving DecidableEq, Repr

/-- What the router answers to a hand-off. -/
inductive DelegateReply
  | accepted
  /-- `PeerCallError` -/
  | refused
  | raised (f : Fault)
  deriving DecidableEq, Repr

/-- What a turn of the orchestrator begins with. -/
structure ThreadStart where
  system : String
  /-- The rows of its thread: whether they are the user's, and what they say. -/
  rows : List (Bool × String)
  deriving DecidableEq, Repr

/-- Why a model is asked. -/
inductive Asking
  /-- In a round of a loop, after so many attempts; with tools, or without. -/
  | round (attempts : ℕ) (tools : Bool)
  | vision
  deriving DecidableEq, Repr

/-- The steps of the loop, by the type of the answer. -/
inductive LoopAct : Type → Type 1
  /-- `ctx.llm.generate` -/
  | generate (why : Asking) (messages : List Message) : LoopAct (Except LlmFault LlmResponse)
  | runLocalTool (tc : ToolCall) : LoopAct (Except String Content)
  /-- `ctx.files.stat`, for the type of a file. -/
  | stat (name : String) : LoopAct (Except FileFault (Option String))
  | runFileTool (tc : ToolCall) : LoopAct (Except FileFault Content)
  /-- `peers.spawn_from_tool_call`, and the result of the task. -/
  | spawn (tc : ToolCall) : LoopAct (Except Fault ChildResult)
  /-- The configuration, the thread and the row of the session. -/
  | reload : LoopAct (Except Fault ThreadStart)
  | statement : LoopAct (Except Fault Unit)
  | delegate (dest : String) : LoopAct DelegateReply

/-- What a model is sent at a step, and why. -/
def LoopAct.prompt {β : Type} : LoopAct β → Option (Asking × List Message)
  | generate why messages => some (why, messages)
  | _ => none

/-- Programs that may raise. -/
abbrev Loop (α : Type) := ExceptT Fault (Prog LoopAct) α

/-- A step that may raise. -/
def Loop.step {α : Type} (a : LoopAct (Except Fault α)) : Loop α := ExceptT.mk (perform a)

/-- A step whose faults are looked at. -/
def Loop.ask {α : Type} (a : LoopAct α) : Loop α := ExceptT.lift (perform a)

/-! ### Tools -/

/-- What a loop is run with. -/
structure LoopConfig where
  localTools : List String := []
  terminalTools : List String := []
  /-- There are tools on files. -/
  fileTools : Bool := false
  /-- A preset that reads images for a model that cannot. -/
  multimodalPreset : Bool := false
  maxRounds : ℕ := 8
  guessType : String → Option String := fun _ => none
  isPrintable : Char → Bool := fun _ => true

/-- `is_file_tool` -/
def isFileTool (name : String) : Bool :=
  name ∈ ["list_session_file", "list_persist_file", "stat_file", "read_file", "write_file",
    "delete_file", "copy_file"]

/-- A text without blanks at its ends. -/
def stripped (s : String) : String :=
  String.ofList ((s.toList.dropWhile Char.isWhitespace).reverse.dropWhile Char.isWhitespace).reverse

/-- The last `limit` characters of a text. -/
def tailOf (limit : ℕ) (s : String) : String := String.ofList (s.toList.drop (s.length - limit))

/-- `_is_visual` -/
def isVisual (cfg : LoopConfig) (mime : Option String) (name : String) : Bool :=
  let m := ((mime.filter (· ≠ "")).or (cfg.guessType name)).getD ""
  m.startsWith "image/" || m = "application/pdf"

/-- The text of a part. -/
def Part.textOf : Part → Option String
  | .text s => some s
  | _ => none

/-- The text of a message of the user. -/
def Message.userText (m : Message) : Option String :=
  match m.role, m.content with
  | .user, .text s => some s
  | .user, .parts ps => some ("\n".intercalate (ps.filterMap Part.textOf))
  | _, _ => none

/-- `_last_user_text` -/
def lastUserText (messages : List Message) : String :=
  tailOf 1000 ((messages.filterMap Message.userText).getLast?.getD "")

/-- `_VISION_SYSTEM` -/
def visionSystem : String :=
  "You are a vision model reading a file on behalf of a text-only " ++
  "assistant that cannot see it. Transcribe and describe the file " ++
  "FAITHFULLY: copy all text verbatim (numbers, URLs, labels, code " ++
  "exactly as written), preserve structure (render tables as Markdown), " ++
  "and describe relevant visual layout. If the information the goal asks " ++
  "for is NOT present in the file, say so explicitly. Flag anything " ++
  "illegible or uncertain — never guess or invent content. Your reply is " ++
  "the assistant's only window onto this file."

/-- What the model that reads a file is asked. -/
def visionPrompt (name purpose visionContext : String) : List Message :=
  let goal := if purpose = "" then "Read this file and report all of its content." else purpose
  let ctxBlock :=
    if visionContext = "" then "" else "\n\nTask context (for relevance):\n" ++ visionContext
  [{ role := .system, content := .text visionSystem },
    { role := .user, content := .parts [.text ("Goal: " ++ goal ++ ctxBlock), .fileRef name] }]

/-- What a file says, as it was read. -/
def visionReport (name purpose text : String) : String :=
  "[Contents of '" ++ name ++ "', read by the vision model" ++
    (if purpose = "" then "]" else " for: " ++ purpose ++ "]") ++ "\n" ++
    (if stripped text = "" then "(the vision model returned no text)" else stripped text)

/-- What is said of a file that could not be read. -/
def visionFailure (name text : String) : String :=
  "[Could not read '" ++ name ++ "' with the vision model: " ++ text ++ ". " ++
    "Tell the user the file couldn't be read, or try again.]"

/-- The type of a file, if it is known; `none`: there is no such file. -/
def visionMime (name : String) : Loop (Option (Option String)) := do
  match ← Loop.ask (.stat name) with
  | .ok mime => pure (some mime)
  | .error (.store _) => pure none
  | .error (.fault .cancelled) => throw .cancelled
  | .error (.fault (.failed _)) => pure (some none)

/-- `_vision_read_file`; `none`: it is left to the tool. -/
def visionReadFile (cfg : LoopConfig) (visionContext : String) (tc : ToolCall) :
    Loop (Option Message) := do
  let name := stripped ((tc.args.lookup "name").getD "")
  if name = "" then
    pure (some (toolResponse tc (.json [("error", "read_file requires a 'name'")])))
  else
    match ← visionMime name with
    | none => pure none
    | some mime =>
      if ¬ isVisual cfg mime name then pure none
      else
        let purpose := stripped ((tc.args.lookup "purpose").getD "")
        match ← Loop.ask (.generate .vision (visionPrompt name purpose visionContext)) with
        | .ok resp => pure (some (toolResponse tc (.text (visionReport name purpose resp.text))))
        | .error (.rejected _ text) | .error (.fault (.failed text)) =>
          pure (some (toolResponse tc (.text (visionFailure name text))))
        | .error (.fault .cancelled) => throw .cancelled

/-- `_failed_tool_text` -/
def failedToolText (toolName : String) (child : ChildResult) : String :=
  let code := ((child.errorCode.filter (· ≠ "")).getD child.status.value)
  let message := stripped (child.errorMessage.getD "")
  let detail := if message ≠ "" ∧ message ≠ code then code ++ ": " ++ message else code
  "The " ++ toolName ++ " call did not succeed (" ++ detail ++ ")."

/-- `Message.tool_response_from_result`, for a call. -/
def toolResponseFromResult (tc : ToolCall) (child : ChildResult) : Message :=
  let text := child.content.getD ""
  if child.files = [] then toolResponse tc (.text text)
  else toolResponse tc (.parts ((if text = "" then [] else [.text text]) ++ child.files.map .fileRef))

/-- A file that is read for a model that cannot; `none`: the tool reads it. -/
def readVisually (cfg : LoopConfig) (visionContext : String) (tc : ToolCall) :
    Loop (Option Message) :=
  if cfg.multimodalPreset ∧ tc.name = "read_file" then visionReadFile cfg visionContext tc
  else pure none

/-- `dispatch_file_tool` -/
def dispatchFileTool (tc : ToolCall) : Loop Message := do
  match ← Loop.ask (.runFileTool tc) with
  | .ok result => pure (toolResponse tc result)
  | .error (.store code) => pure (toolResponse tc (.json [("error", code)]))
  | .error (.fault f) => throw f

/-- The work of `_dispatch_tool_call`. -/
def dispatchBody (cfg : LoopConfig) (visionContext : String) (tc : ToolCall) : Loop Message := do
  if tc.name ∈ cfg.localTools then
    match ← Loop.ask (.runLocalTool tc) with
    | .ok result => pure (toolResponse tc result)
    | .error text => pure (toolResponse tc (.text ("tool error: " ++ text)))
  else if cfg.fileTools ∧ isFileTool tc.name then
    match ← readVisually cfg visionContext tc with
    | some m => pure m
    | none => dispatchFileTool tc
  else if tc.name.startsWith "call_" then
    let child ← Loop.step (.spawn tc)
    if child.status ≠ .succeeded then
      pure (toolResponse tc (.text (failedToolText tc.name child)))
    else pure (toolResponseFromResult tc child)
  else pure (toolResponse tc (.text ("unknown tool: " ++ tc.name)))

/-- `_dispatch_tool_call`: what fails becomes the result of the call. -/
def dispatchToolCall (cfg : LoopConfig) (visionContext : String) (tc : ToolCall) : Loop Message :=
  ExceptT.mk do
    match ← (dispatchBody cfg visionContext tc).run with
    | .ok m => pure (.ok m)
    | .error .cancelled => pure (.error .cancelled)
    | .error (.failed text) =>
      pure (.ok (toolResponse tc (.text ("The " ++ tc.name ++ " call failed: " ++ text))))

/-- The calls of an answer, one after the other. -/
def dispatchToolCalls (cfg : LoopConfig) (visionContext : String) :
    List ToolCall → List Message → Loop (List Message)
  | [], messages => pure messages
  | tc :: tcs, messages => do
    let m ← dispatchToolCall cfg visionContext tc
    dispatchToolCalls cfg visionContext tcs (messages ++ [m])

/-! ### Rounds -/

/-- `_MAX_ATTACHMENT_RECOVERIES` -/
def maxAttachmentRecoveries : ℕ := 2

/-- What a call to the model raises, to the agent. -/
def LlmFault.upstream : LlmFault → Fault
  | .rejected _ text => .failed ("LLM call failed: " ++ text)
  | .fault f => f

/-- `_generate_resilient`, with so many recoveries left; it returns the messages as it has left
them. -/
def generateResilient (cfg : LoopConfig) (tools : Bool) :
    ℕ → List Message → Loop (LlmResponse × List Message)
  | 0, messages => do
    match ← Loop.ask (.generate (.round maxAttachmentRecoveries tools) messages) with
    | .ok resp => pure (resp, messages)
    | .error e => throw e.upstream
  | left + 1, messages => do
    match ← Loop.ask (.generate (.round (maxAttachmentRecoveries - (left + 1)) tools) messages) with
    | .ok resp => pure (resp, messages)
    | .error (.rejected retriable text) =>
      if retriable ∨ ¬ messages.any Message.attaches then
        throw (LlmFault.rejected retriable text).upstream
      else generateResilient cfg tools left (messages.map (Message.strip cfg.isPrintable))
    | .error (.fault f) => throw f

/-- `_FINAL_ANSWER_NUDGE` -/
def finalAnswerNudge : String :=
  "You've reached the tool-use limit for this turn. Do not call any more " ++
  "tools. Give your best final answer now using the information already " ++
  "gathered; if it's incomplete, say what you found and what's still open."

/-- The rounds that are left, and the final answer; `last` is the answer of the round before. -/
def loopRounds (cfg : LoopConfig) (visionContext : String) :
    ℕ → Option LlmResponse → List Message → Loop (LlmResponse × List Message)
  | 0, none, _ => throw (.failed "AssertionError")
  | 0, some last, messages =>
    if last.toolCalls = [] then pure (last, messages)
    else do
      let (resp, messages) ← generateResilient cfg false maxAttachmentRecoveries
        (messages ++ [{ role := .user, content := .text finalAnswerNudge }])
      pure (resp, messages ++ [assistantFromResponse resp])
  | n + 1, _, messages => do
    let (resp, messages) ← generateResilient cfg true maxAttachmentRecoveries messages
    let messages := messages ++ [assistantFromResponse resp]
    if resp.toolCalls = [] then pure (resp, messages)
    else if resp.toolCalls.any fun tc => decide (tc.name ∈ cfg.terminalTools) then
      pure (resp, messages)
    else do
      let messages ← dispatchToolCalls cfg visionContext resp.toolCalls messages
      loopRounds cfg visionContext n (some resp) messages

/-- `run_llm_loop`: the last answer, and the messages as the loop has left them. -/
def runLlmLoop (cfg : LoopConfig) (messages : List Message) : Loop (LlmResponse × List Message) :=
  loopRounds cfg
    (if cfg.multimodalPreset && cfg.fileTools then lastUserText messages else "")
    cfg.maxRounds none messages

/-! ### A turn of the orchestrator -/

/-- `_HAND_OFF_TOOL` -/
def handOffTool : String := "hand_off"

/-- The messages that a turn begins with. -/
def startMessages (start : ThreadStart) (prompt : String) : List Message :=
  let rows := start.rows.map fun r =>
    ({ role := if r.1 then .user else .assistant, content := .text r.2 } : Message)
  [{ role := .system, content := .text start.system }] ++ rows ++
    if (start.rows.getLast?.map Prod.fst).getD false then []
    else [{ role := .user, content := .text prompt }]

/-- `_do_hand_off`; `false`: `PeerCallError`. -/
def doHandOff (dest : String) : Loop Bool := do
  Loop.step .statement
  match ← Loop.ask (.delegate dest) with
  | .accepted =>
    Loop.step .statement
    pure true
  | .refused =>
    Loop.step .statement
    pure false
  | .raised f => throw f

/-- The answer to a hand-off that is refused. -/
def unavailable (handOff : ToolCall) : Message :=
  { role := .tool, name := some handOffTool, toolCallId := some handOff.id,
    content := .text "The specialist is unavailable right now. Answer the user directly." }

/-- `_run_hand_off_fallback` -/
def runHandOffFallback (cfg : LoopConfig) (messages : List Message) (handOff : ToolCall) :
    Loop LlmResponse := do
  let (resp, _) ← runLlmLoop { cfg with terminalTools := [], maxRounds := 8 }
    (messages ++ [unavailable handOff])
  Loop.step .statement
  pure resp

/-- `run_orchestrator_message`, where hand-offs may be made to these; `none`: a specialist
answers. -/
def runOrchestratorMessage (cfg : LoopConfig) (destinations : List String) (prompt : String) :
    Loop (Option LlmResponse) := do
  let start ← Loop.step .reload
  let (resp, messages) ← runLlmLoop { cfg with
    terminalTools := if destinations = [] then [] else [handOffTool], maxRounds := 8 }
    (startMessages start prompt)
  match resp.toolCalls.find? fun tc => tc.name = handOffTool with
  | some handOff =>
    match (handOff.args.lookup "agent_id").filter (· ∈ destinations) with
    | some dest =>
      if ← doHandOff dest then pure none
      else some <$> runHandOffFallback cfg messages handOff
    | none =>
      Loop.step .statement
      pure (some resp)
  | none =>
    Loop.step .statement
    pure (some resp)

end Backplane.ToolLoop
