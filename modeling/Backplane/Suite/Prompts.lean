import Backplane.Suite.ToolLoop

/-!
# What a model is sent

A prompt in which a call of a tool has no answer is refused by every provider.

* `Watch`, `watched` : what is of interest of the past of a task.
* `prompting` : a discipline for the programs that ask a model.
* `loop_prompts` : the prompts of a loop are complete if the first one is.
* `prompts_complete_iff` : exactly when all prompts of a turn are complete.
-/

namespace Backplane.ToolLoop

open Concur Prog Discipline Transcript

/-! ### Entries -/

theorem callIds_assistantFromResponse (resp : LlmResponse) :
    (assistantFromResponse resp).callIds = resp.toolCalls.map ToolCall.id := by
  have hcalls : (responseParts resp).filterMap Part.callId = resp.toolCalls.map ToolCall.id := by
    have hid (tc : ToolCall) : (if tc.id = "" then none else some tc.id).getD "" = tc.id := by
      split
      · rename_i h
        rw [h]
        rfl
      · rfl
    simp only [responseParts, List.filterMap_append, List.filterMap_map]
    split <;> simp [Part.callId, Function.comp_def, hid]
  unfold assistantFromResponse
  split
  · rename_i hnil
    rw [← hcalls, hnil]
    rfl
  · exact hcalls

@[simp] theorem entry_assistantFromResponse (resp : LlmResponse) :
    (assistantFromResponse resp).entry = .turn (resp.toolCalls.map ToolCall.id) := by
  have hrole : (assistantFromResponse resp).role = .assistant := by
    unfold assistantFromResponse
    split <;> rfl
  rw [Message.entry, if_neg (by rw [hrole]; decide), callIds_assistantFromResponse]

@[simp] theorem entry_toolResponse (tc : ToolCall) (content : Content) :
    (toolResponse tc content).entry = .reply tc.id := rfl

@[simp] theorem entry_toolResponseFromResult (tc : ToolCall) (child : ChildResult) :
    (toolResponseFromResult tc child).entry = .reply tc.id := by
  unfold toolResponseFromResult
  dsimp only
  split <;> rfl

/-- Files are taken out of messages, never calls. -/
@[simp] theorem entry_strip (isPrintable : Char → Bool) (m : Message) :
    (m.strip isPrintable).entry = m.entry := by
  obtain ⟨role, content, name, toolCallId⟩ := m
  cases content with
  | text | json => rfl
  | parts ps =>
    have hcalls : (ps.map (Part.strip isPrintable)).filterMap Part.callId =
        ps.filterMap Part.callId := by
      rw [List.filterMap_map]
      refine List.filterMap_congr fun p _ => ?_
      cases p <;> rfl
    cases role with
    | assistant => exact congrArg Entry.turn hcalls
    | _ => rfl

theorem complete_startMessages (start : ThreadStart) (prompt : String) :
    CompletePrompt (startMessages start prompt) := by
  refine complete_of_plain fun e he => ?_
  obtain ⟨m, hm, rfl⟩ := List.mem_map.1 he
  simp only [startMessages, List.mem_append, List.mem_singleton, List.mem_map] at hm
  obtain (rfl | ⟨⟨user, text⟩, -, rfl⟩) | hm := hm
  · rfl
  · cases user <;> rfl
  · split at hm
    · cases hm
    · obtain rfl := List.mem_singleton.1 hm
      rfl

/-! ### What is watched -/

/-- What is of interest of the past of a task. -/
structure Watch where
  calls : List ToolCall := []
  /-- The calls of the answer whose hand-off was refused. -/
  refused : Option (List ToolCall) := none
  rounds : ℕ := 0

namespace Watch

/-- What is known after a step. -/
def next {β : Type} (w : Watch) (a : LoopAct β) (b : β) : Watch :=
  match a, b with
  | .generate (.round attempts _) _, reply =>
    { w with
      calls := (reply.toOption.map LlmResponse.toolCalls).getD w.calls
      rounds := if attempts = 0 then w.rounds + 1 else w.rounds }
  | .delegate _, .refused => { w with refused := some w.calls }
  | _, _ => w

/-- The hand-off that was refused was the only call of its answer. -/
def Unmixed (w : Watch) : Prop := ∀ calls ∈ w.refused, calls.length = 1

end Watch

/-- What is known of a past. -/
def watched (tr : List (Event LoopAct)) : Watch := tr.foldl (fun w x => w.next x.act x.ans) {}

/-- Programs that ask a model: in at most `bound` rounds, with complete prompts, unless the hand-off
that was refused was not the only call; `handsOff` says whether there are any. -/
def prompting (bound : ℕ) (handsOff : Bool) : Discipline LoopAct Watch where
  ok w a := match a with
    | .generate (.round attempts _) messages =>
      (CompletePrompt messages ↔ w.Unmixed) ∧ (attempts = 0 → w.rounds < bound)
    | .generate .vision messages => CompletePrompt messages
    | .delegate _ => handsOff = true
    | _ => True
  ans _ _ := True
  next w a b := w.next a b

section

variable {bound : ℕ} {handsOff : Bool} {cfg : LoopConfig} {w : Watch} {visionContext : String} {tc : ToolCall}
  {messages : List Message} {α β : Type}

theorem obeys_ask {a : LoopAct α} {f : α → Loop β} {fin : Watch → Except Fault β → Prop} :
    (prompting bound handsOff).Obeys w (Loop.ask a >>= f).run fin ↔ (prompting bound handsOff).ok w a ∧
      ∀ b, (prompting bound handsOff).Obeys (w.next a b) (f b).run fin := by
  refine obeys_lift_bind.trans (and_congr_right fun _ => forall_congr' fun b => ?_)
  exact ⟨fun h => h trivial, fun h _ => h⟩

theorem obeys_step {a : LoopAct (Except Fault α)} {f : α → Loop β}
    {fin : Watch → Except Fault β → Prop} (ha : (prompting bound handsOff).ok w a)
    (hraise : ∀ x, fin (w.next a (.error x)) (.error x))
    (hf : ∀ v, (prompting bound handsOff).Obeys (w.next a (.ok v)) (f v).run fin) :
    (prompting bound handsOff).Obeys w (Loop.step a >>= f).run fin := by
  refine obeys_except_bind.2 ⟨ha, fun b _ => ?_⟩
  cases b with
  | error x => exact hraise x
  | ok v => exact hf v

/-! ### Tools -/

/-- The program has answered the call, or has raised; nothing has become known. -/
def Answers (tc : ToolCall) (w w' : Watch) (r : Except Fault Message) : Prop :=
  w' = w ∧ ∀ m, r = .ok m → m.entry = .reply tc.id

theorem Answers.response {content : Content} : Answers tc w w (.ok (toolResponse tc content)) :=
  ⟨rfl, fun _ hm => by cases hm; rfl⟩

theorem Answers.raise {f : Fault} : Answers tc w w (.error f) := ⟨rfl, fun _ hm => by cases hm⟩

theorem complete_visionPrompt (name purpose context : String) :
    CompletePrompt (visionPrompt name purpose context) :=
  ⟨[[], []], rfl⟩

theorem obeys_visionMime (name : String) :
    (prompting bound handsOff).Obeys w (visionMime name).run fun w' _ => w' = w := by
  refine obeys_ask.2 ⟨trivial, fun mime => ?_⟩
  rcases mime with (_ | _ | _) | mime <;> exact rfl

theorem obeys_visionReadFile : (prompting bound handsOff).Obeys w (visionReadFile cfg visionContext tc).run
    fun w' r => w' = w ∧ ∀ m, r = .ok (some m) → m.entry = .reply tc.id := by
  unfold visionReadFile
  dsimp only
  generalize stripped ((tc.args.lookup "name").getD "") = name
  generalize stripped ((tc.args.lookup "purpose").getD "") = purpose
  split
  · exact ⟨rfl, fun _ hm => by cases hm; rfl⟩
  refine obeys_except_bind.2 ((obeys_visionMime _).mono fun w' r hw => ?_)
  subst hw
  rcases r with f | _ | mime
  · exact ⟨rfl, fun _ hm => by cases hm⟩
  · exact ⟨rfl, fun _ hm => by cases hm⟩
  dsimp only
  split
  · exact ⟨rfl, fun _ hm => by cases hm⟩
  refine obeys_ask.2 ⟨complete_visionPrompt _ _ _, fun reply => ?_⟩
  rcases reply with (_ | _ | _) | resp <;> exact ⟨rfl, fun _ hm => by cases hm <;> rfl⟩

theorem obeys_readVisually : (prompting bound handsOff).Obeys w
    (readVisually cfg visionContext tc).run
    fun w' r => w' = w ∧ ∀ m, r = .ok (some m) → m.entry = .reply tc.id := by
  unfold readVisually
  split
  · exact obeys_visionReadFile
  · exact ⟨rfl, fun _ hm => by cases hm⟩

theorem obeys_dispatchFileTool :
    (prompting bound handsOff).Obeys w (dispatchFileTool tc).run (Answers tc w) := by
  refine obeys_ask.2 ⟨trivial, fun result => ?_⟩
  rcases result with (_ | _) | result
  · exact .response
  · exact .raise
  · exact .response

theorem obeys_dispatchBody :
    (prompting bound handsOff).Obeys w (dispatchBody cfg visionContext tc).run (Answers tc w) := by
  unfold dispatchBody
  split
  · refine obeys_ask.2 ⟨trivial, fun result => ?_⟩
    cases result <;> exact .response
  split
  · refine obeys_except_bind.2 (obeys_readVisually.mono fun w' r hr => ?_)
    obtain ⟨rfl, hr⟩ := hr
    rcases r with f | _ | m
    · exact .raise
    · exact obeys_dispatchFileTool
    · exact ⟨rfl, fun m' hm => by cases hm; exact hr m rfl⟩
  split
  · refine obeys_step trivial (fun x => .raise) fun child => ?_
    split
    · exact .response
    · exact ⟨rfl, fun m hm => by cases hm; exact entry_toolResponseFromResult _ _⟩
  · exact .response

/-- **A call of a tool is answered, or the task ends.** -/
theorem obeys_dispatchToolCall :
    (prompting bound handsOff).Obeys w (dispatchToolCall cfg visionContext tc).run (Answers tc w) := by
  refine obeys_bind.2 (obeys_dispatchBody.mono fun w' r hr => ?_)
  obtain ⟨rfl, hr⟩ := hr
  rcases r with (_ | _) | m
  · exact .raise
  · exact .response
  · exact ⟨rfl, hr⟩

theorem obeys_dispatchToolCalls (tcs : List ToolCall) (messages : List Message) :
    (prompting bound handsOff).Obeys w (dispatchToolCalls cfg visionContext tcs messages).run fun w' r =>
      w' = w ∧ ∀ ms, r = .ok ms → ms.map Message.entry =
        messages.map Message.entry ++ tcs.map fun tc => .reply tc.id := by
  induction tcs generalizing messages with
  | nil => exact ⟨rfl, fun ms hms => by cases hms; simp⟩
  | cons tc tcs ih =>
    refine obeys_except_bind.2 (obeys_dispatchToolCall.mono fun w' r hr => ?_)
    obtain ⟨rfl, hr⟩ := hr
    cases r with
    | error => exact ⟨rfl, fun _ hms => by cases hms⟩
    | ok m =>
      refine (ih (messages ++ [m])).mono fun w'' r' hr' => ⟨hr'.1, fun ms hms => ?_⟩
      rw [hr'.2 ms hms, List.map_append, List.map_singleton, hr m rfl]
      simp

/-! ### Rounds -/

/-- Attempts of one round: they are sent the same calls and answers. -/
theorem obeys_generateResilient {tools : Bool} (left : ℕ) (hleft : left ≤ maxAttachmentRecoveries)
    (messages : List Message) (hmix : CompletePrompt messages ↔ w.Unmixed)
    (hround : maxAttachmentRecoveries - left = 0 → w.rounds < bound) :
    (prompting bound handsOff).Obeys w (generateResilient cfg tools left messages).run fun w' r =>
      w'.refused = w.refused ∧
      w'.rounds = (if maxAttachmentRecoveries - left = 0 then w.rounds + 1 else w.rounds) ∧
      ∀ resp ms, r = .ok (resp, ms) → w'.calls = resp.toolCalls ∧
        ms.map Message.entry = messages.map Message.entry := by
  induction left generalizing w messages with
  | zero =>
    unfold generateResilient
    refine obeys_ask.2 ⟨⟨hmix, hround⟩, fun reply => ?_⟩
    rcases reply with (_ | _) | resp
    · exact ⟨rfl, rfl, fun _ _ h => by cases h⟩
    · exact ⟨rfl, rfl, fun _ _ h => by cases h⟩
    · exact ⟨rfl, rfl, fun _ _ h => by cases h; exact ⟨rfl, rfl⟩⟩
  | succ left ih =>
    unfold generateResilient
    refine obeys_ask.2 ⟨⟨hmix, hround⟩, fun reply => ?_⟩
    rcases reply with (⟨retriable, text⟩ | _) | resp
    · dsimp only
      split
      · exact ⟨rfl, rfl, fun _ _ h => by cases h⟩
      · -- The next attempt, without the files.
        have hentries : (messages.map (Message.strip cfg.isPrintable)).map Message.entry =
            messages.map Message.entry := by
          rw [List.map_map]
          exact List.map_congr_left fun m _ => entry_strip _ m
        have hagain : maxAttachmentRecoveries - left ≠ 0 := by omega
        refine (ih (by omega) _ ?_ fun h => absurd h hagain).mono fun w' r h => ?_
        · rw [CompletePrompt, hentries]
          exact hmix
        · obtain ⟨hrefused, hrounds, hok⟩ := h
          rw [if_neg hagain] at hrounds
          refine ⟨hrefused, hrounds, fun resp ms hr => ?_⟩
          rw [← hentries]
          exact hok resp ms hr
    · exact ⟨rfl, rfl, fun _ _ h => by cases h⟩
    · exact ⟨rfl, rfl, fun _ _ h => by cases h; exact ⟨rfl, rfl⟩⟩

/-- How a loop ends, that had so many rounds left: with a turn after messages that are complete if
the first were. -/
structure Ended (w w' : Watch) (n : ℕ) (r : Except Fault (LlmResponse × List Message)) : Prop where
  /-- Hand-offs are not the loop's. -/
  refused : w'.refused = w.refused
  /-- It has not taken more rounds. -/
  rounds : w'.rounds ≤ w.rounds + n
  /-- The last answer is the last turn. -/
  last : ∀ resp ms, r = .ok (resp, ms) → w'.calls = resp.toolCalls ∧
    ∃ before, ms.map Message.entry = before ++ [.turn (resp.toolCalls.map ToolCall.id)] ∧
      (Complete before ↔ w.Unmixed)

theorem Ended.of_answer {w' : Watch} {n : ℕ} {resp : LlmResponse} {ms : List Message}
    (hmix : CompletePrompt messages ↔ w.Unmixed) (hrefused : w'.refused = w.refused)
    (hrounds : w'.rounds ≤ w.rounds + n) (hcalls : w'.calls = resp.toolCalls)
    (hentries : ms.map Message.entry = messages.map Message.entry) :
    Ended w w' n (.ok (resp, ms ++ [assistantFromResponse resp])) := by
  refine ⟨hrefused, hrounds, fun resp' ms' h => ?_⟩
  cases h
  refine ⟨hcalls, messages.map Message.entry, ?_, hmix⟩
  rw [List.map_append, List.map_singleton, entry_assistantFromResponse, hentries]

/-- **The rounds of a loop.** -/
theorem obeys_loopRounds (n : ℕ) (last : Option LlmResponse) (messages : List Message)
    (hlast : ∀ resp ∈ last, resp.toolCalls ≠ []) (hmix : CompletePrompt messages ↔ w.Unmixed)
    (hbound : w.rounds + (n + 1) ≤ bound) :
    (prompting bound handsOff).Obeys w (loopRounds cfg visionContext n last messages).run
      fun w' r => Ended w w' (n + 1) r := by
  induction n generalizing w last messages with
  | zero =>
    cases last with
    | none => exact ⟨rfl, by omega, fun _ _ h => by cases h⟩
    | some last =>
      unfold loopRounds
      rw [if_neg (hlast last rfl)]
      have hnudge : CompletePrompt (messages ++
          [{ role := .user, content := .text finalAnswerNudge }]) ↔ w.Unmixed := by
        rw [CompletePrompt, List.map_append]
        exact (complete_append_block []).trans hmix
      refine obeys_except_bind.2 ((obeys_generateResilient _ (Nat.le_refl _) _ hnudge
        fun _ => by omega).mono fun w' r h => ?_)
      obtain ⟨hrefused, hrounds, hok⟩ := h
      have hle : w'.rounds ≤ w.rounds + 1 := by rw [hrounds]; split <;> omega
      cases r with
      | error => exact ⟨hrefused, hle, fun _ _ h => by cases h⟩
      | ok x => exact .of_answer hnudge hrefused hle (hok _ _ rfl).1 (hok _ _ rfl).2
  | succ n ih =>
    unfold loopRounds
    refine obeys_except_bind.2 ((obeys_generateResilient _ (Nat.le_refl _) _ hmix
      fun _ => by omega).mono fun w' r h => ?_)
    obtain ⟨hrefused, hrounds, hok⟩ := h
    have hle : w'.rounds ≤ w.rounds + 1 := by rw [hrounds]; split <;> omega
    cases r with
    | error => exact ⟨hrefused, by omega, fun _ _ h => by cases h⟩
    | ok x =>
      obtain ⟨resp, ms⟩ := x
      obtain ⟨hcalls, hentries⟩ := hok _ _ rfl
      dsimp only
      split
      · exact .of_answer hmix hrefused (by omega) hcalls hentries
      split
      · exact .of_answer hmix hrefused (by omega) hcalls hentries
      · rename_i hsome _
        refine obeys_except_bind.2 ((obeys_dispatchToolCalls _ _).mono fun w'' r h => ?_)
        obtain ⟨rfl, hanswered⟩ := h
        cases r with
        | error => exact ⟨hrefused, by omega, fun _ _ h => by cases h⟩
        | ok ms' =>
          -- The turn and its answers are a block.
          have hunmixed : w''.Unmixed ↔ w.Unmixed := by rw [Watch.Unmixed, hrefused]; rfl
          have hmix' : CompletePrompt ms' ↔ w''.Unmixed := by
            rw [CompletePrompt, hanswered ms' rfl, List.map_append, List.map_singleton,
              entry_assistantFromResponse, hentries, List.append_assoc, hunmixed, ← hmix]
            have hblock : ([Entry.turn (resp.toolCalls.map ToolCall.id)] ++
                resp.toolCalls.map fun tc => Entry.reply tc.id) =
                block (resp.toolCalls.map ToolCall.id) := by
              simp [block, Function.comp_def]
            rw [hblock]
            exact complete_append_block _
          refine (ih (some resp) ms' (fun r hr => ?_) hmix' (by omega)).mono fun w₃ r h => ?_
          · obtain rfl := Option.some.inj hr
            exact hsome
          · refine ⟨h.refused.trans hrefused, by have := h.rounds; omega, fun resp' ms₃ hr => ?_⟩
            obtain ⟨hcalls', before, hbefore, hcomplete⟩ := h.last resp' ms₃ hr
            exact ⟨hcalls', before, hbefore, hcomplete.trans hunmixed⟩

/-- **A loop asks in at most one round more than its limit**, and its prompts are complete if the
first one is. -/
theorem obeys_runLlmLoop (messages : List Message) (hmix : CompletePrompt messages ↔ w.Unmixed)
    (hbound : w.rounds + (cfg.maxRounds + 1) ≤ bound) :
    (prompting bound handsOff).Obeys w (runLlmLoop cfg messages).run
      fun w' r => Ended w w' (cfg.maxRounds + 1) r :=
  obeys_loopRounds _ none messages (fun _ h => by cases h) hmix hbound

/-! ### A turn of the orchestrator -/

/-- The answer to one call completes a prompt if it was the only call. -/
theorem complete_fallback {before : List (Entry String)} {calls : List ToolCall} {tc : ToolCall}
    (hbefore : Complete before) (htc : tc ∈ calls) :
    Complete (before ++ [.turn (calls.map ToolCall.id)] ++ [.reply tc.id]) ↔ calls.length = 1 := by
  rw [complete_reply (by rw [pending_turn, if_pos hbefore])]
  constructor
  · intro h
    rw [← List.length_map (f := ToolCall.id), h]
    rfl
  · intro h
    obtain ⟨x, rfl⟩ := List.length_eq_one_iff.1 h
    rw [List.mem_singleton.1 htc]
    rfl

theorem obeys_statement {f : Unit → Loop β} {fin : Watch → Except Fault β → Prop}
    (hraise : ∀ x, fin w (.error x)) (hf : (prompting bound handsOff).Obeys w (f ()).run fin) :
    (prompting bound handsOff).Obeys w (Loop.step .statement >>= f).run fin :=
  obeys_step trivial hraise fun _ => hf

/-- What a hand-off leaves known: if it is refused, which calls it came with. -/
theorem obeys_doHandOff (dest : String) :
    (prompting bound true).Obeys w (doHandOff dest).run fun w' r =>
      r = .ok false → w' = { w with refused := some w.calls } := by
  refine obeys_statement (fun _ h => by cases h) (obeys_ask.2 ⟨rfl, fun reply => ?_⟩)
  cases reply with
  | accepted => exact obeys_statement (fun _ h => by cases h) fun h => by cases h
  | refused => exact obeys_statement (fun _ h => by cases h) fun _ => rfl
  | raised => exact fun h => by cases h

/-- The loop of the fallback. -/
theorem obeys_runHandOffFallback {handOff : ToolCall} {before : List (Entry String)}
    {calls : List ToolCall} (hbefore : Complete before) (hmem : handOff ∈ calls)
    (hmessages : messages.map Message.entry = before ++ [.turn (calls.map ToolCall.id)])
    (hcalls : w.refused = some calls) (hbound : w.rounds + 9 ≤ bound) :
    (prompting bound handsOff).Obeys w (runHandOffFallback cfg messages handOff).run fun _ _ => True := by
  have hmix : CompletePrompt (messages ++ [unavailable handOff]) ↔ w.Unmixed := by
    rw [CompletePrompt, List.map_append, hmessages, Watch.Unmixed, hcalls]
    exact (complete_fallback hbefore hmem).trans (by simp)
  refine obeys_except_bind.2 ((obeys_runLlmLoop _ hmix hbound).mono fun w' r _ => ?_)
  cases r with
  | error => trivial
  | ok => exact obeys_statement (fun _ => trivial) trivial

/-- **A turn of the orchestrator** asks in two loops at most. -/
theorem obeys_runOrchestratorMessage (destinations : List String) (prompt : String) :
    (prompting 18 true).Obeys {} (runOrchestratorMessage cfg destinations prompt).run
      fun _ _ => True := by
  refine obeys_step trivial (fun _ => trivial) fun start => ?_
  have hstart : CompletePrompt (startMessages start prompt) ↔ ({} : Watch).Unmixed :=
    iff_of_true (complete_startMessages _ _) fun _ h => by cases h
  refine obeys_except_bind.2 ((obeys_runLlmLoop _ hstart (show 0 + (8 + 1) ≤ 18 by omega)).mono fun w r h => ?_)
  cases r with
  | error => trivial
  | ok x =>
    obtain ⟨resp, messages⟩ := x
    obtain ⟨hcalls, before, hmessages, hcomplete⟩ := h.last _ _ rfl
    have hbefore : Complete before := hcomplete.2 fun _ h => by cases h
    dsimp only
    split
    · rename_i handOff hfind
      have hmem := List.mem_of_find?_eq_some hfind
      split
      · refine obeys_except_bind.2 ((obeys_doHandOff _).mono fun w' r hw => ?_)
        rcases r with _ | _ | _
        · trivial
        · obtain rfl := hw rfl
          refine obeys_bind.2 ((obeys_runHandOffFallback hbefore hmem hmessages ?_ ?_).mono
            fun _ r _ => by cases r <;> trivial)
          · rw [hcalls]
          · have hrounds := h.rounds
            show w.rounds + 9 ≤ 18
            have : w.rounds ≤ 0 + (8 + 1) := hrounds
            omega
        · trivial
      · exact obeys_statement (fun _ => trivial) trivial
    · exact obeys_statement (fun _ => trivial) trivial

end

/-! ### Prompts of a past -/

/-- Every prompt is complete. -/
def PromptsComplete (tr : List (Event LoopAct)) : Prop :=
  ∀ x ∈ tr, ∀ why messages, x.act.prompt = some (why, messages) → CompletePrompt messages

/-- **No round follows the refusal of a hand-off that was not the only call of its answer.** -/
def NeverMixed (tr : List (Event LoopAct)) : Prop :=
  ∀ tr₁ x tr₂, tr = tr₁ ++ x :: tr₂ → ∀ attempts tools messages,
    x.act.prompt = some (.round attempts tools, messages) → (watched tr₁).Unmixed

section

variable {bound : ℕ} {handsOff : Bool} {α : Type} {p p' : Prog LoopAct α} {tr : List (Event LoopAct)}
  {fin : Watch → α → Prop}

/-- What is permitted at a step of a past. -/
theorem permitted_prompt {x : Event LoopAct} {w : Watch} (h : (prompting bound handsOff).ok w x.act)
    {why : Asking} {messages : List Message} (hx : x.act.prompt = some (why, messages)) :
    match why with
    | .round _ _ => CompletePrompt messages ↔ w.Unmixed
    | .vision => CompletePrompt messages := by
  obtain ⟨a, b⟩ := x
  cases a with
  | generate why' messages' =>
    obtain ⟨rfl, rfl⟩ := Prod.mk.inj (Option.some.inj hx)
    cases why' with
    | round => exact h.1
    | vision => exact h
  | _ => cases hx

theorem promptsComplete_iff (h : After p tr p') (hp : (prompting bound handsOff).Obeys {} p fin) :
    PromptsComplete tr ↔ NeverMixed tr := by
  constructor
  · rintro hall tr₁ x tr₂ rfl attempts tools messages hx
    have hok := h.permitted hp fun _ _ => trivial
    exact (permitted_prompt hok hx).1 (hall x (by simp) _ _ hx)
  · intro hnever x hmem why messages hx
    obtain ⟨tr₁, tr₂, rfl⟩ := List.append_of_mem hmem
    have hok := h.permitted hp fun _ _ => trivial
    cases why with
    | round => exact (permitted_prompt hok hx).2 (hnever tr₁ x tr₂ rfl _ _ _ hx)
    | vision => exact permitted_prompt hok hx

theorem rounds_le (h : After p tr p') (hp : (prompting bound handsOff).Obeys {} p fin) :
    (watched tr).rounds ≤ bound := by
  refine h.known (I := fun w => w.rounds ≤ bound) hp (fun _ _ => trivial) (Nat.zero_le _) ?_
  intro β w a b hw hok
  cases a with
  | generate why messages =>
    cases why with
    | round attempts tools =>
      show (if attempts = 0 then w.rounds + 1 else w.rounds) ≤ bound
      split
      · rename_i hfirst
        have := hok.2 hfirst
        omega
      · exact hw
    | vision => exact hw
  | delegate dest => cases b <;> exact hw
  | _ => exact hw

/-- Where nothing is handed off, nothing is refused. -/
theorem neverMixed_of_loop (h : After p tr p') (hp : (prompting bound false).Obeys {} p fin) :
    NeverMixed tr := by
  rintro tr₁ x tr₂ rfl attempts tools messages -
  obtain ⟨_, h₁, -⟩ := h.split
  have hnone := h₁.known (I := fun w => w.refused = none) hp (fun _ _ => trivial) rfl ?_
  · intro calls hcalls
    rw [show (watched tr₁).refused = none from hnone] at hcalls
    cases hcalls
  · intro β w a b hw hok
    cases a with
    | generate why messages => cases why <;> exact hw
    | delegate dest => cases hok
    | _ => exact hw

end

/-- **Exactly when the prompts are complete**: those of a loop always, if it is given a complete one,
and those of a turn of the orchestrator unless the router refuses a hand-off that the model has
called together with other tools, and the turn goes on. -/
theorem prompts_complete_iff (cfg : LoopConfig) :
    (∀ messages : List Message, CompletePrompt messages →
      ∀ tr p', After (runLlmLoop cfg messages).run tr p' →
        PromptsComplete tr ∧ (watched tr).rounds ≤ cfg.maxRounds + 1) ∧
    ∀ (destinations : List String) (prompt : String) (tr) (p'),
      After (runOrchestratorMessage cfg destinations prompt).run tr p' →
        (PromptsComplete tr ↔ NeverMixed tr) ∧ (watched tr).rounds ≤ 18 := by
  refine ⟨fun messages hmessages tr p' h => ?_, fun destinations prompt tr p' h => ?_⟩
  · have hmix : CompletePrompt messages ↔ ({} : Watch).Unmixed :=
      iff_of_true hmessages fun _ h => by cases h
    have hp : (prompting (cfg.maxRounds + 1) false).Obeys {} (runLlmLoop cfg messages).run _ :=
      obeys_runLlmLoop messages hmix (Nat.le_of_eq (Nat.zero_add _))
    exact ⟨(promptsComplete_iff h hp).2 (neverMixed_of_loop h hp), rounds_le h hp⟩
  · have hp : (prompting 18 true).Obeys {} (runOrchestratorMessage cfg destinations prompt).run _ :=
      obeys_runOrchestratorMessage destinations prompt
    exact ⟨promptsComplete_iff h hp, rounds_le h hp⟩

namespace Sample

/-- An agent with one local tool. -/
def clocked : LoopConfig where
  localTools := ["current_time"]

/-- A thread with one message. -/
def greeted : ThreadStart where
  system := "You are helpful."
  rows := [(true, "hi")]

def handOffCall : ToolCall where
  id := "c1"
  name := "hand_off"
  args := [("agent_id", "research")]

def clockCall : ToolCall where
  id := "c2"
  name := "current_time"

end Sample

/-- What happens when the model makes these calls, and the hand-off is refused. -/
def Sample.refusal (calls : List ToolCall) : List (Event LoopAct) :=
  let start := startMessages Sample.greeted "hi"
  let resp : LlmResponse := { toolCalls := calls }
  [⟨.reload, .ok Sample.greeted⟩, ⟨.generate (.round 0 true) start, .ok resp⟩,
    ⟨.statement, .ok ()⟩, ⟨.delegate "research", .refused⟩, ⟨.statement, .ok ()⟩,
    ⟨.generate (.round 0 true)
      (start ++ [assistantFromResponse resp] ++ [unavailable Sample.handOffCall]),
      .ok { text := "Hello." }⟩]

/-- Two calls at once, with the same empty `id`. -/
def Sample.parallel : List (Event LoopAct) :=
  let start := startMessages Sample.greeted "hi"
  let call : ToolCall := { id := "", name := "current_time" }
  let resp : LlmResponse := { toolCalls := [call, call] }
  [⟨.generate (.round 0 true) start, .ok resp⟩, ⟨.runLocalTool call, .ok (.text "noon")⟩,
    ⟨.runLocalTool call, .error "no clock"⟩,
    ⟨.generate (.round 0 true) (start ++ [assistantFromResponse resp] ++
      [toolResponse call (.text "noon")] ++ [toolResponse call (.text "tool error: no clock")]),
      .ok { text := "Noon." }⟩]

/-- Parallel calls of a loop are answered, and so is a hand-off that was the only call. -/
theorem prompts_complete_of_calls :
    (PromptsComplete Sample.parallel ∧ (watched Sample.parallel).rounds ≤ 9) ∧
    NeverMixed (Sample.refusal [Sample.handOffCall]) := by
  have hloop : ∃ p', After (runLlmLoop Sample.clocked (startMessages Sample.greeted "hi")).run
      Sample.parallel p' :=
    ⟨_, .cons (.cons (.cons (.cons (.nil _))))⟩
  have hturn : ∃ p', After (runOrchestratorMessage Sample.clocked ["research"] "hi").run
      (Sample.refusal [Sample.handOffCall]) p' :=
    ⟨_, .cons (.cons (.cons (.cons (.cons (.cons (.nil _))))))⟩
  obtain ⟨p, hloop⟩ := hloop
  obtain ⟨p', hturn⟩ := hturn
  refine ⟨(prompts_complete_iff _).1 _ (complete_startMessages _ _) _ _ hloop,
    ((prompts_complete_iff _).2 _ _ _ _ hturn).1.1 ?_⟩
  intro x hx why messages hprompt
  simp only [Sample.refusal, List.mem_cons, List.not_mem_nil, or_false] at hx
  rcases hx with rfl | rfl | rfl | rfl | rfl | rfl <;> cases hprompt <;> decide

/-- The model hands off and reads the clock at once; the hand-off is refused, and the next prompt has
a call without an answer. -/
theorem mixed_handOff_unanswered : ∃ tr p',
    After (runOrchestratorMessage Sample.clocked ["research"] "hi").run tr p' ∧
      ¬ PromptsComplete tr := by
  have hrun : ∃ p', After (runOrchestratorMessage Sample.clocked ["research"] "hi").run
      (Sample.refusal [Sample.handOffCall, Sample.clockCall]) p' :=
    ⟨_, .cons (.cons (.cons (.cons (.cons (.cons (.nil _))))))⟩
  obtain ⟨p', hrun⟩ := hrun
  refine ⟨_, p', hrun, fun hall => ?_⟩
  have hlast := hall _ (List.mem_of_getLast? rfl) _ _ rfl
  revert hlast
  decide

end Backplane.ToolLoop
