import Backplane.Suite.ToolLoop

/-!
# What is recorded of a loop

After a turn its exchanges with tools are read back from the messages that its loop has left, and
written to the history: a call, whose name and arguments are looked up by the `id` of the result,
and the result.

* `extractToolExchanges`, `persistToolExchanges` : what is written.
* `Ran` : what a loop does to the messages; `dispatched` : the calls that it has carried out.
* `leaves_runLlmLoop` : every loop does that.
* `tool_calls_recorded_iff` : exactly when each call is recorded with its own result.
-/

namespace Backplane.ToolLoop

open Concur Prog Discipline

/-! ### What is written -/

/-- The call that a part is, if it has an `id`. -/
def Part.call : Part → Option (String × String × Args)
  | functionCall id name args => (id.filter (· ≠ "")).map fun id => (id, name, args)
  | _ => none

/-- The calls of a message of the assistant. -/
def Message.calls (m : Message) : List (String × String × Args) :=
  match m.role, m.content with
  | .assistant, .parts ps => ps.filterMap Part.call
  | _, _ => []

/-- All calls, by their `id`. -/
def callTable (messages : List Message) : List (String × String × Args) :=
  messages.flatMap Message.calls

/-- The call with that `id`; of several, the last. -/
def lastCall (table : List (String × String × Args)) (id : String) : Option (String × Args) :=
  table.reverse.lookup id

/-- What is stored of a part of a result. -/
def Part.piece : Part → Option String
  | text s => some s
  | fileRef name =>
    if name = "" then none else some ("[file result: " ++ name ++ " — re-open with read_file]")
  | _ => none

/-- `_result_text` -/
def resultText : Content → String
  | .text s => s
  | .parts ps => "\n".intercalate ((ps.filterMap Part.piece).filter (· ≠ ""))
  -- an object is iterated by its keys, and none of them is a part
  | .json _ => ""

/-- `ToolExchange` -/
structure ToolExchange where
  name : String
  args : Args
  result : String
  deriving DecidableEq, Repr

/-- The first text that is not empty. -/
def firstOf (s t u : String) : String := if s ≠ "" then s else if t ≠ "" then t else u

/-- The exchange that a message ends, if it is a result with an `id`. -/
def exchangeOf (table : List (String × String × Args)) (m : Message) : Option ToolExchange :=
  if m.role ≠ .tool then none
  else (m.toolCallId.filter (· ≠ "")).map fun id =>
    let call := (lastCall table id).getD (m.name.getD "", [])
    ⟨firstOf call.1 (m.name.getD "") "tool", call.2, resultText m.content⟩

/-- `extract_tool_exchanges` -/
def extractToolExchanges (messages : List Message) : List ToolExchange :=
  messages.filterMap (exchangeOf (callTable messages))

/-- `RECALL_TOOL_NAME` -/
def recallToolName : String := "recall_tool_history"

/-- A label of an exchange stands at the beginning: `\[\d+ exchanges? back\]`. -/
def startsLabel (isDecimal : Char → Bool) : List Char → Bool
  | '[' :: cs =>
    let digits := cs.takeWhile isDecimal
    let rest := cs.drop digits.length
    !digits.isEmpty && (" exchange back]".toList.isPrefixOf rest ||
      " exchanges back]".toList.isPrefixOf rest)
  | _ => false

/-- `_recall_marker` -/
def recallMarker (isDecimal : Char → Bool) (result : String) : String :=
  let n := (result.toList.tails.filter (startsLabel isDecimal)).length
  if n = 0 then "(recalled earlier tool history — nothing matched.)"
  else "(recalled " ++ toString n ++ " earlier tool exchange" ++ (if n ≠ 1 then "s" else "") ++
    " — content was shown in that turn's context, not re-stored here.)"

/-- `_storable_result` -/
def storableResult (isDecimal : Char → Bool) (ex : ToolExchange) : String :=
  if ex.name = recallToolName then recallMarker isDecimal ex.result else ex.result

/-- A row of the history. -/
inductive StoredRow
  | toolCall (name : String) (args : Args)
  | toolResult (text : String)
  deriving DecidableEq, Repr

/-- The rows of an exchange. -/
def ToolExchange.rows (isDecimal : Char → Bool) (ex : ToolExchange) : List StoredRow :=
  [.toolCall ex.name ex.args, .toolResult (storableResult isDecimal ex)]

/-- `persist_tool_exchanges` -/
def persistToolExchanges (isDecimal : Char → Bool) (messages : List Message) : List StoredRow :=
  (extractToolExchanges messages).flatMap (ToolExchange.rows isDecimal)

/-! ### What a loop does -/

/-- A content without the files it attaches. -/
def Content.strip (isPrintable : Char → Bool) : Content → Content
  | .parts ps => .parts (ps.map (Part.strip isPrintable))
  | c => c

/-- What a loop does to the messages it is started with: it adds answers, results of the calls that
it has logged, and a last nudge, and may take files out of all of them. -/
inductive Ran (cfg : LoopConfig) (init : List Message) :
    List Message → List (ToolCall × Content) → List Message → Prop
  | start : Ran cfg init init [] init
  | answer (resp : LlmResponse) {start messages : List Message} {log : List (ToolCall × Content)} :
      Ran cfg init start log messages →
      Ran cfg init start log (messages ++ [assistantFromResponse resp])
  | result (tc : ToolCall) (c : Content) {start messages : List Message}
      {log : List (ToolCall × Content)} : Ran cfg init start log messages →
      Ran cfg init start (log ++ [(tc, c)]) (messages ++ [toolResponse tc c])
  | nudge {start messages : List Message} {log : List (ToolCall × Content)} :
      Ran cfg init start log messages → Ran cfg init start log
        (messages ++ [{ role := .user, content := .text finalAnswerNudge }])
  /-- The model has refused the files. -/
  | strip {start messages : List Message} {log : List (ToolCall × Content)} :
      Ran cfg init start log messages →
      Ran cfg init (start.map (Message.strip cfg.isPrintable))
        (log.map fun x => (x.1, x.2.strip cfg.isPrintable))
        (messages.map (Message.strip cfg.isPrintable))

/-- The calls that are carried out after a step: those of an answer, unless one of them ends the
loop. -/
def dispatches (cfg : LoopConfig) {β : Type} (a : LoopAct β) (b : β) : List ToolCall :=
  match a, b with
  | .generate (.round _ true) _, .ok resp =>
    if resp.toolCalls.any fun tc => decide (tc.name ∈ cfg.terminalTools) then []
    else resp.toolCalls
  | _, _ => []

/-- What is known of a past: the calls that are carried out. -/
def dispatching (cfg : LoopConfig) : Discipline LoopAct (List ToolCall) where
  ok _ _ := True
  ans _ _ := True
  next w a b := w ++ dispatches cfg a b

/-- The calls that are carried out, in their order. -/
def dispatched (cfg : LoopConfig) (tr : List (Event LoopAct)) : List ToolCall :=
  (dispatching cfg).after [] tr

/-! ### What is claimed -/

/-- The text of a result: that of an object is its JSON. -/
def ownText (quote : String → String) : Content → String
  | .json fields =>
    "\x7b" ++ ", ".intercalate (fields.map fun f => quote f.1 ++ ": " ++ quote f.2) ++ "\x7d"
  | c => resultText c

/-- The rows that a call should have: its own name, arguments and result, or the marker. -/
def ownRows (isDecimal : Char → Bool) (quote : String → String) (x : ToolCall × Content) :
    List StoredRow :=
  [.toolCall x.1.name x.1.args, .toolResult (if x.1.name = recallToolName then
    recallMarker isDecimal (resultText x.2) else ownText quote x.2)]

/-- After what was there at the start, the rows of each call are written, in their order. -/
def Recorded (isDecimal : Char → Bool) (quote : String → String) (start : List Message)
    (log : List (ToolCall × Content)) (messages : List Message) : Prop :=
  persistToolExchanges isDecimal messages =
    (start.filterMap (exchangeOf (callTable messages))).flatMap (ToolExchange.rows isDecimal) ++
      log.flatMap (ownRows isDecimal quote)

/-- The call has an `id` and a name, the last call with that `id` is the same, and the result is not
an object, unless it is that of a recall. -/
structure Recordable (table : List (String × String × Args)) (x : ToolCall × Content) : Prop where
  id : x.1.id ≠ ""
  name : x.1.name ≠ ""
  /-- The last call with that `id` has its name, or none. -/
  lastName : ((lastCall table x.1.id).getD (x.1.name, [])).1 ∈ [x.1.name, ""]
  lastArgs : ((lastCall table x.1.id).getD (x.1.name, [])).2 = x.1.args
  result : x.1.name = recallToolName ∨ ∀ fields, x.2 ≠ .json fields

section

variable {cfg : LoopConfig} {visionContext : String} {tc : ToolCall}
  {init start messages : List Message} {log : List (ToolCall × Content)} {w : List ToolCall}
  {α β : Type}

/-! ### Runs -/

theorem obeys_dispatching_ask {a : LoopAct α} {f : α → Loop β}
    {fin : List ToolCall → Except Fault β → Prop} :
    (dispatching cfg).Obeys w (Loop.ask a >>= f).run fin ↔
      ∀ b, (dispatching cfg).Obeys (w ++ dispatches cfg a b) (f b).run fin := by
  refine obeys_lift_bind.trans ?_
  exact ⟨fun h b => h.2 b trivial, fun h => ⟨trivial, fun b _ => h b⟩⟩

/-- A step after which no call is carried out. -/
theorem obeys_dispatching_quiet {a : LoopAct α} {f : α → Loop β}
    {fin : List ToolCall → Except Fault β → Prop} (ha : ∀ b, dispatches cfg a b = [])
    (hf : ∀ b, (dispatching cfg).Obeys w (f b).run fin) :
    (dispatching cfg).Obeys w (Loop.ask a >>= f).run fin :=
  obeys_dispatching_ask.2 fun b => by rw [ha b, List.append_nil]; exact hf b

theorem obeys_dispatching_step {a : LoopAct (Except Fault α)} {f : α → Loop β}
    {fin : List ToolCall → Except Fault β → Prop} (ha : ∀ b, dispatches cfg a b = [])
    (hraise : ∀ x, fin w (.error x)) (hf : ∀ v, (dispatching cfg).Obeys w (f v).run fin) :
    (dispatching cfg).Obeys w (Loop.step a >>= f).run fin := by
  refine obeys_except_bind.2 ⟨trivial, fun b _ => ?_⟩
  have hnone : (dispatching cfg).next w a b = w := by
    change w ++ dispatches cfg a b = w
    rw [ha b, List.append_nil]
  rw [hnone]
  cases b with
  | error x => exact hraise x
  | ok v => exact hf v

/-- The program has made the result of the call, or has raised. -/
def Results (tc : ToolCall) (w w' : List ToolCall) (r : Except Fault Message) : Prop :=
  w' = w ∧ ∀ m, r = .ok m → ∃ c, m = toolResponse tc c

theorem Results.response {c : Content} : Results tc w w (.ok (toolResponse tc c)) :=
  ⟨rfl, fun _ hm => ⟨c, (Except.ok.inj hm).symm⟩⟩

theorem Results.raise {f : Fault} : Results tc w w (.error f) := ⟨rfl, fun _ hm => nomatch hm⟩

theorem toolResponseFromResult_eq (tc : ToolCall) (child : ChildResult) :
    ∃ c, toolResponseFromResult tc child = toolResponse tc c := by
  unfold toolResponseFromResult
  dsimp only
  split
  · exact ⟨_, rfl⟩
  · exact ⟨_, rfl⟩

theorem obeys_dispatching_visionMime (name : String) :
    (dispatching cfg).Obeys w (visionMime name).run fun w' _ => w' = w := by
  refine obeys_dispatching_quiet (fun _ => rfl) fun mime => ?_
  rcases mime with (_ | _ | _) | mime
  · exact rfl
  · exact rfl
  · exact rfl
  · exact rfl

theorem obeys_dispatching_visionReadFile :
    (dispatching cfg).Obeys w (visionReadFile cfg visionContext tc).run
      fun w' r => w' = w ∧ ∀ m, r = .ok (some m) → ∃ c, m = toolResponse tc c := by
  unfold visionReadFile
  dsimp only
  generalize stripped ((tc.args.lookup "name").getD "") = name
  generalize stripped ((tc.args.lookup "purpose").getD "") = purpose
  split
  · exact ⟨rfl, fun _ hm => by cases hm; exact ⟨_, rfl⟩⟩
  refine obeys_except_bind.2 ((obeys_dispatching_visionMime _).mono fun w' r hw => ?_)
  subst hw
  rcases r with f | _ | mime
  · exact ⟨rfl, fun _ hm => by cases hm⟩
  · exact ⟨rfl, fun _ hm => by cases hm⟩
  dsimp only
  split
  · exact ⟨rfl, fun _ hm => by cases hm⟩
  refine obeys_dispatching_quiet (fun _ => rfl) fun reply => ?_
  rcases reply with (_ | _ | _) | resp
  · exact ⟨rfl, fun _ hm => by cases hm; exact ⟨_, rfl⟩⟩
  · exact ⟨rfl, fun _ hm => by cases hm⟩
  · exact ⟨rfl, fun _ hm => by cases hm; exact ⟨_, rfl⟩⟩
  · exact ⟨rfl, fun _ hm => by cases hm; exact ⟨_, rfl⟩⟩

theorem obeys_dispatching_readVisually :
    (dispatching cfg).Obeys w (readVisually cfg visionContext tc).run
      fun w' r => w' = w ∧ ∀ m, r = .ok (some m) → ∃ c, m = toolResponse tc c := by
  unfold readVisually
  split
  · exact obeys_dispatching_visionReadFile
  · exact ⟨rfl, fun _ hm => by cases hm⟩

theorem obeys_dispatching_fileTool :
    (dispatching cfg).Obeys w (dispatchFileTool tc).run (Results tc w) := by
  refine obeys_dispatching_quiet (fun _ => rfl) fun result => ?_
  rcases result with (_ | _) | result
  · exact .response
  · exact .raise
  · exact .response

theorem obeys_dispatching_body :
    (dispatching cfg).Obeys w (dispatchBody cfg visionContext tc).run (Results tc w) := by
  unfold dispatchBody
  split
  · refine obeys_dispatching_quiet (fun _ => rfl) fun result => ?_
    cases result with
    | error => exact .response
    | ok => exact .response
  split
  · refine obeys_except_bind.2 (obeys_dispatching_readVisually.mono fun w' r hr => ?_)
    obtain ⟨rfl, hr⟩ := hr
    rcases r with f | _ | m
    · exact .raise
    · exact obeys_dispatching_fileTool
    · exact ⟨rfl, fun m' hm => by cases hm; exact hr m rfl⟩
  split
  · refine obeys_dispatching_step (fun _ => rfl) (fun _ => .raise) fun child => ?_
    split
    · exact .response
    · exact ⟨rfl, fun m hm => by cases hm; exact toolResponseFromResult_eq _ _⟩
  · exact .response

/-- A call is carried out, or the loop ends. -/
theorem obeys_dispatching_toolCall :
    (dispatching cfg).Obeys w (dispatchToolCall cfg visionContext tc).run (Results tc w) := by
  refine obeys_bind.2 (obeys_dispatching_body.mono fun w' r hr => ?_)
  obtain ⟨rfl, hr⟩ := hr
  rcases r with (_ | _) | m
  · exact .raise
  · exact .response
  · exact ⟨rfl, hr⟩

/-- What a program leaves of messages that a loop has come to. -/
def Leaves (cfg : LoopConfig) (init : List Message) (w : List ToolCall) (messages : List Message) :
    Prop :=
  ∃ start log, Ran cfg init start log messages ∧ log.map Prod.fst = w

theorem obeys_dispatching_toolCalls (tcs : List ToolCall) {w : List ToolCall}
    (h : ∃ start log, Ran cfg init start log messages ∧ log.map Prod.fst ++ tcs = w) :
    (dispatching cfg).Obeys w (dispatchToolCalls cfg visionContext tcs messages).run
      fun w' r => ∀ ms, r = .ok ms → Leaves cfg init w' ms := by
  obtain ⟨start, log, hran, hlog⟩ := h
  induction tcs generalizing messages log with
  | nil =>
    rw [List.append_nil] at hlog
    exact fun ms hms => by cases hms; exact ⟨start, log, hran, hlog⟩
  | cons tc tcs ih =>
    refine obeys_except_bind.2 (obeys_dispatching_toolCall.mono fun w' r hr => ?_)
    obtain ⟨rfl, hr⟩ := hr
    cases r with
    | error => exact fun _ hms => by cases hms
    | ok m =>
      obtain ⟨c, rfl⟩ := hr m rfl
      refine ih (log ++ [(tc, c)]) (hran.result tc c) ?_
      rw [List.map_append, List.append_assoc]
      exact hlog

/-- The messages of a round, when the model has answered. -/
theorem obeys_dispatching_generate {tools : Bool} (left : ℕ) (h : Leaves cfg init w messages) :
    (dispatching cfg).Obeys w (generateResilient cfg tools left messages).run fun w' r =>
      ∀ resp ms, r = .ok (resp, ms) → Leaves cfg init w ms ∧
        w' = w ++ if tools ∧ ¬ resp.toolCalls.any fun tc => decide (tc.name ∈ cfg.terminalTools)
          then resp.toolCalls else [] := by
  have hanswer : ∀ (attempts : ℕ) (messages : List Message) (resp : LlmResponse),
      dispatches cfg (.generate (.round attempts tools) messages) (.ok resp) =
        if tools ∧ ¬ resp.toolCalls.any fun tc => decide (tc.name ∈ cfg.terminalTools)
          then resp.toolCalls else [] := by
    intro attempts messages resp
    cases tools with
    | false => simp [dispatches]
    | true =>
      simp only [dispatches]
      split_ifs with h h' h'
      · exact absurd h h'.2
      · rfl
      · rfl
      · exact absurd ⟨trivial, h⟩ h'
  have hfault : ∀ (attempts : ℕ) (messages : List Message) (e : LlmFault),
      dispatches cfg (.generate (.round attempts tools) messages) (.error e) = [] := by
    intro attempts messages e
    cases tools with
    | false => rfl
    | true => rfl
  induction left generalizing messages with
  | zero =>
    unfold generateResilient
    refine obeys_dispatching_ask.2 fun reply => ?_
    cases reply with
    | error => exact fun _ _ hr => by cases hr
    | ok resp =>
      rintro _ _ ⟨⟩
      exact ⟨h, congrArg (w ++ ·) (hanswer _ _ resp)⟩
  | succ left ih =>
    unfold generateResilient
    refine obeys_dispatching_ask.2 fun reply => ?_
    rcases reply with (⟨retriable, text⟩ | f) | resp
    · rw [hfault, List.append_nil]
      dsimp only
      split
      · exact fun _ _ hr => by cases hr
      · obtain ⟨start, log, hran, hlog⟩ := h
        refine ih ⟨_, _, hran.strip, ?_⟩
        rw [List.map_map, ← hlog]
        rfl
    · exact fun _ _ hr => by cases hr
    · rintro _ _ ⟨⟩
      exact ⟨h, congrArg (w ++ ·) (hanswer _ _ resp)⟩

theorem obeys_dispatching_rounds (n : ℕ) (last : Option LlmResponse)
    (h : Leaves cfg init w messages) :
    (dispatching cfg).Obeys w (loopRounds cfg visionContext n last messages).run fun w' r =>
      ∀ resp ms, r = .ok (resp, ms) → Leaves cfg init w' ms := by
  induction n generalizing w last messages with
  | zero =>
    cases last with
    | none => exact fun _ _ hr => by cases hr
    | some last =>
      unfold loopRounds
      split
      · rintro _ _ ⟨⟩
        exact h
      · obtain ⟨start, log, hran, hlog⟩ := h
        refine obeys_except_bind.2 ((obeys_dispatching_generate _
          ⟨start, log, hran.nudge, hlog⟩).mono fun w' r hr => ?_)
        cases r with
        | error => exact fun _ _ hr => by cases hr
        | ok x =>
          obtain ⟨⟨start', log', hran', hlog'⟩, rfl⟩ := hr x.1 x.2 rfl
          rintro _ _ ⟨⟩
          refine ⟨start', log', hran'.answer _, ?_⟩
          rw [if_neg (by simp), List.append_nil]
          exact hlog'
  | succ n ih =>
    unfold loopRounds
    refine obeys_except_bind.2 ((obeys_dispatching_generate _ h).mono fun w' r hr => ?_)
    cases r with
    | error => exact fun _ _ hr => by cases hr
    | ok x =>
      obtain ⟨resp, ms⟩ := x
      obtain ⟨⟨start', log', hran', hlog'⟩, hw⟩ := hr resp ms rfl
      dsimp only
      split
      · rename_i hnil
        rw [hnil, ite_self, List.append_nil] at hw
        rintro _ _ ⟨⟩
        exact ⟨start', log', hran'.answer _, hlog'.trans hw.symm⟩
      split
      · rename_i hterminal
        rw [if_neg (fun hc => hc.2 hterminal), List.append_nil] at hw
        rintro _ _ ⟨⟩
        exact ⟨start', log', hran'.answer _, hlog'.trans hw.symm⟩
      · rename_i hterminal
        rw [if_pos ⟨rfl, hterminal⟩] at hw
        refine obeys_except_bind.2 ((obeys_dispatching_toolCalls _
          ⟨start', log', hran'.answer resp, by rw [hlog', hw]⟩).mono fun w'' r hr => ?_)
        cases r with
        | error => exact fun _ _ hr => by cases hr
        | ok ms' => exact ih (some resp) (hr ms' rfl)

/-- **What a loop has done** to the messages when it has returned. -/
theorem leaves_runLlmLoop {tr : List (Event LoopAct)} {resp : LlmResponse}
    (h : After (runLlmLoop cfg init).run tr (.ret (.ok (resp, messages)))) :
    Leaves cfg init (dispatched cfg tr) messages := by
  have hstart : Leaves cfg init [] init := ⟨init, [], .start, rfl⟩
  have hobeys : (dispatching cfg).Obeys [] (runLlmLoop cfg init).run fun w' r =>
      ∀ resp ms, r = .ok (resp, ms) → Leaves cfg init w' ms :=
    obeys_dispatching_rounds _ none hstart
  exact h.obeys hobeys (fun _ _ => trivial) resp messages rfl

/-! ### Reading back -/

variable {table : List (String × String × Args)} {isDecimal : Char → Bool}
  {quote : String → String} {x : ToolCall × Content} {m : Message}

theorem strip_toolResponse (c : Content) : (toolResponse tc c).strip cfg.isPrintable =
    toolResponse tc (c.strip cfg.isPrintable) := by
  cases c with
  | _ => rfl

theorem role_strip : (m.strip cfg.isPrintable).role = m.role := by
  unfold Message.strip
  split
  · rfl
  · rfl

/-- The results among the messages are those of the start and those of the log. -/
theorem Ran.results (h : Ran cfg init start log messages) :
    messages.filter (fun m => m.role = .tool) =
      start.filter (fun m => m.role = .tool) ++ log.map fun x => toolResponse x.1 x.2 := by
  induction h with
  | start => rw [List.map_nil, List.append_nil]
  | answer resp _ ih =>
    have hrole : (assistantFromResponse resp).role = .assistant := by
      unfold assistantFromResponse
      split
      · rfl
      · rfl
    rw [List.filter_append, ih, List.filter_singleton, hrole]
    exact List.append_nil _
  | result tc c _ ih =>
    rw [List.filter_append, ih, List.map_append, List.append_assoc]
    rfl
  | nudge _ ih =>
    rw [List.filter_append, ih]
    exact List.append_nil _
  | strip _ ih =>
    have hrole : (fun m => decide (m.role = .tool)) ∘ Message.strip cfg.isPrintable =
        fun m => decide (m.role = .tool) := funext fun m => by
      rw [Function.comp_apply, role_strip]
    rw [List.filter_map, List.filter_map, hrole, ih, List.map_append, List.map_map, List.map_map]
    congr 1
    exact List.map_congr_left fun x _ => strip_toolResponse x.2

/-- Only results end an exchange. -/
theorem filterMap_exchangeOf (table : List (String × String × Args)) (messages : List Message) :
    messages.filterMap (exchangeOf table) =
      (messages.filter fun m => m.role = .tool).filterMap (exchangeOf table) := by
  rw [List.filterMap_filter]
  refine List.filterMap_congr fun m _ => ?_
  by_cases hrole : m.role = .tool
  · rw [if_pos (decide_eq_true hrole)]
  · rw [if_neg (by simpa using hrole), exchangeOf, if_pos hrole]

theorem Ran.extract (h : Ran cfg init start log messages) :
    messages.filterMap (exchangeOf table) = start.filterMap (exchangeOf table) ++
      log.filterMap fun x => exchangeOf table (toolResponse x.1 x.2) := by
  rw [filterMap_exchangeOf, h.results, List.filterMap_append, ← filterMap_exchangeOf,
    List.filterMap_map]
  rfl

theorem firstOf_eq_iff {s t : String} : firstOf s t "tool" = t ↔ t ≠ "" ∧ s ∈ [t, ""] := by
  unfold firstOf
  grind

/-- The text of an object is lost, and only that. -/
theorem resultText_eq_ownText_iff (c : Content) :
    resultText c = ownText quote c ↔ ∀ fields, c ≠ .json fields := by
  cases c with
  | text s => exact iff_of_true rfl (by simp)
  | parts ps => exact iff_of_true rfl (by simp)
  | json fields =>
    refine iff_of_false (fun h => ?_) fun h => h fields rfl
    have hlength := congrArg String.toList h
    simp [resultText, ownText] at hlength

/-- The result of a call that has no `id` is passed over. -/
theorem exchangeOf_toolResponse (table : List (String × String × Args)) (x : ToolCall × Content) :
    exchangeOf table (toolResponse x.1 x.2) =
      if x.1.id = "" then none
      else
        let call := (lastCall table x.1.id).getD (x.1.name, [])
        some ⟨firstOf call.1 x.1.name "tool", call.2, resultText x.2⟩ := by
  unfold exchangeOf
  rw [if_neg (by simp [toolResponse])]
  split_ifs with hid
  · simp [toolResponse, hid]
  · simp [toolResponse, hid]

/-- **When a call is recorded.** -/
theorem rows_eq_iff (table : List (String × String × Args)) (x : ToolCall × Content) :
    (∃ ex, exchangeOf table (toolResponse x.1 x.2) = some ex ∧
      ex.rows isDecimal = ownRows isDecimal quote x) ↔ Recordable table x := by
  rw [exchangeOf_toolResponse]
  by_cases hid : x.1.id = ""
  · rw [if_pos hid]
    exact iff_of_false (fun ⟨_, h, _⟩ => nomatch h) fun h => h.id hid
  · rw [if_neg hid]
    simp only [Option.some.injEq, exists_eq_left', ToolExchange.rows, ownRows, storableResult,
      List.cons.injEq, StoredRow.toolCall.injEq, StoredRow.toolResult.injEq, and_true]
    constructor
    · rintro ⟨⟨hname, hargs⟩, hresult⟩
      rw [hname] at hresult
      obtain ⟨hne, hlast⟩ := firstOf_eq_iff.1 hname
      refine ⟨hid, hne, hlast, hargs, ?_⟩
      by_cases hrecall : x.1.name = recallToolName
      · exact .inl hrecall
      · rw [if_neg hrecall, if_neg hrecall] at hresult
        exact .inr ((resultText_eq_ownText_iff x.2).1 hresult)
    · rintro ⟨-, hne, hlast, hargs, hresult⟩
      have hname := firstOf_eq_iff.2 ⟨hne, hlast⟩
      refine ⟨⟨hname, hargs⟩, ?_⟩
      rw [hname]
      split_ifs with hrecall
      · rfl
      · exact (resultText_eq_ownText_iff x.2).2 (hresult.resolve_left hrecall)

/-- Exchanges have two rows each, and none may be missing. -/
theorem flatMap_rows_eq_iff (f : ToolCall × Content → Option ToolExchange)
    (log : List (ToolCall × Content)) :
    (log.filterMap f).flatMap (ToolExchange.rows isDecimal) =
        log.flatMap (ownRows isDecimal quote) ↔
      ∀ x ∈ log, ∃ ex, f x = some ex ∧ ex.rows isDecimal = ownRows isDecimal quote x := by
  have hle : ∀ log : List (ToolCall × Content),
      ((log.filterMap f).flatMap (ToolExchange.rows isDecimal)).length ≤ 2 * log.length := by
    intro log
    have hfound := List.length_filterMap_le f log
    have htwo : ∀ exs : List ToolExchange,
        (exs.flatMap (ToolExchange.rows isDecimal)).length = 2 * exs.length := by
      intro exs
      induction exs with
      | nil => rfl
      | cons ex exs ih =>
        rw [List.flatMap_cons, List.length_append, ih, List.length_cons]
        change 2 + 2 * exs.length = _
        omega
    rw [htwo]
    omega
  have hown : ∀ log : List (ToolCall × Content),
      (log.flatMap (ownRows isDecimal quote)).length = 2 * log.length := by
    intro log
    induction log with
    | nil => rfl
    | cons x log ih =>
      rw [List.flatMap_cons, List.length_append, ih, List.length_cons]
      change 2 + 2 * log.length = _
      omega
  induction log with
  | nil => simp
  | cons x log ih =>
    rw [List.forall_mem_cons, List.flatMap_cons]
    cases hx : f x with
    | none =>
      rw [List.filterMap_cons_none hx]
      refine iff_of_false (fun h => ?_) fun h => by simp at h
      have hlength := congrArg List.length h
      rw [List.length_append, hown] at hlength
      change _ = 2 + 2 * log.length at hlength
      have := hle log
      omega
    | some ex =>
      rw [List.filterMap_cons_some hx, List.flatMap_cons]
      constructor
      · intro h
        obtain ⟨hhead, htail⟩ := List.append_inj h rfl
        exact ⟨⟨ex, rfl, hhead⟩, ih.1 htail⟩
      · rintro ⟨⟨ex', hex, hhead⟩, htail⟩
        obtain rfl := Option.some.inj hex
        rw [hhead, ih.2 htail]

end

/-- **When every call is recorded.**  A loop that has returned has carried out the calls of its log,
and after what was there at the start the history gets a pair of rows for each, with its own name,
arguments and result, if and only if each has an `id` and a name, the last call with its `id` is the
same, and its result is not an object. -/
theorem tool_calls_recorded_iff (cfg : LoopConfig) (init : List Message)
    {tr : List (Event LoopAct)} {resp : LlmResponse} {messages : List Message}
    (h : After (runLlmLoop cfg init).run tr (.ret (.ok (resp, messages))))
    (isDecimal : Char → Bool) (quote : String → String) :
    ∃ start log, Ran cfg init start log messages ∧ log.map Prod.fst = dispatched cfg tr ∧
      (Recorded isDecimal quote start log messages ↔
        ∀ x ∈ log, Recordable (callTable messages) x) := by
  obtain ⟨start, log, hran, hlog⟩ := leaves_runLlmLoop h
  refine ⟨start, log, hran, hlog, ?_⟩
  rw [Recorded, persistToolExchanges, extractToolExchanges, hran.extract, List.flatMap_append,
    List.append_cancel_left_eq, flatMap_rows_eq_iff]
  exact forall₂_congr fun x _ => rows_eq_iff (callTable messages) x

namespace Sample

/-- A loop with a tool that tells the time. -/
def timed : LoopConfig where
  localTools := ["time"]

/-- The model asks for the time in two rounds, under this `id`, and of these places. -/
def asked (id first second : String) : List (Event LoopAct) :=
  let call (place : String) : ToolCall := { id, name := "time", args := [("place", place)] }
  let turn (place : String) := assistantFromResponse { toolCalls := [call place] }
  let told (place : String) := toolResponse (call place) (.text place)
  [⟨.generate (.round 0 true) [], .ok { toolCalls := [call first] }⟩,
    ⟨.runLocalTool (call first), .ok (.text first)⟩,
    ⟨.generate (.round 0 true) [turn first, told first], .ok { toolCalls := [call second] }⟩,
    ⟨.runLocalTool (call second), .ok (.text second)⟩,
    ⟨.generate (.round 0 true) [turn first, told first, turn second, told second],
      .ok { text := "Done." }⟩]

def askedMessages (id first second : String) : List Message :=
  let call (place : String) : ToolCall := { id, name := "time", args := [("place", place)] }
  let turn (place : String) := assistantFromResponse { toolCalls := [call place] }
  let told (place : String) := toolResponse (call place) (.text place)
  [turn first, told first, turn second, told second, assistantFromResponse { text := "Done." }]

/-- The calls of these rounds, with their results. -/
def askedLog (id first second : String) : List (ToolCall × Content) :=
  let call (place : String) : ToolCall := { id, name := "time", args := [("place", place)] }
  [(call first, .text first), (call second, .text second)]

/-- The loop returns these messages. -/
theorem after_asked (id first second : String) :
    After (runLlmLoop timed []).run (asked id first second)
      (.ret (.ok ({ text := "Done." }, askedMessages id first second))) :=
  .cons (.cons (.cons (.cons (.cons (.nil _)))))

theorem ran_asked (id first second : String) :
    Ran timed [] [] (askedLog id first second) (askedMessages id first second) :=
  (((((Ran.start.answer _).result _ _).answer _).result _ _).answer _)

end Sample

/-- The time is asked for once in the same place in each of two rounds, and both are recorded. -/
theorem tool_calls_recorded_of_same :
    ∃ start log, Ran Sample.timed [] start log (Sample.askedMessages "c1" "Rome" "Rome") ∧
      log.map Prod.fst = dispatched Sample.timed (Sample.asked "c1" "Rome" "Rome") ∧
      (Recorded Char.isDigit id start log (Sample.askedMessages "c1" "Rome" "Rome") ↔
        ∀ x ∈ log, Recordable (callTable (Sample.askedMessages "c1" "Rome" "Rome")) x) :=
  tool_calls_recorded_iff Sample.timed [] (Sample.after_asked "c1" "Rome" "Rome") Char.isDigit id

/-- The second round reuses the `id` of the first, and its arguments are recorded of both calls. -/
theorem reused_id_misattributed :
    ¬ ∀ tr resp messages start log, After (runLlmLoop Sample.timed []).run tr
      (.ret (.ok (resp, messages))) → Ran Sample.timed [] start log messages →
      log.map Prod.fst = dispatched Sample.timed tr →
      Recorded Char.isDigit id start log messages := by
  intro h
  have hrecorded := h _ _ _ _ _ (Sample.after_asked "c1" "Paris" "Rome")
    (Sample.ran_asked "c1" "Paris" "Rome") rfl
  revert hrecorded
  unfold Recorded
  decide

end Backplane.ToolLoop
