import Backplane.Llm.Messages

/-!
# Requests to Anthropic

The translation of a history keeps state: results wait for the next user turn, and come first in
it; system messages are taken out of the conversation, and their value is a string until one of them
is made of blocks.

* `convertPart`, `toolResultBlock` : parts and results.
* `step`, `convertMessages` : the translation, message after message.
* `conversation` : what the translation adds to the conversation, with results that wait.
* `Paired` : a turn with calls is followed by a turn that starts with the results.
* `anthropic_well_formed` : what holds of the request for every history.
-/

namespace Backplane.Chat.Anthropic

/-! ### Parts and results -/

/-- A block with a payload. -/
def sourceBlock (type : String) (b : Blob) : Part where
  type := some type
  rest := [("source", .obj [("type", .str "base64"),
    ("media_type", .str (b.mimeType.getD "application/octet-stream")),
    ("data", .str (b.data.getD ""))])]

/-- A block with a text. -/
def textBlock (text : String) : Part := { type := some "text", text := some text }

/-- `_convert_part` -/
def convertPart (p : Part) : Part :=
  if p.type.isSome then { p with thoughtSignature := none }
  else match p.image with
  | some img => sourceBlock "image" img
  | none => match p.document with
    | some doc => sourceBlock "document" doc
    | none => match p.text with
      | some text => textBlock text
      | none => match p.functionCall with
        | some fc => {
          type := some "tool_use"
          id := some (fc.id.getD "")
          name := some (fc.name.getD "")
          input := some (orEmpty (orValue fc.args fc.input)) }
        | none => p

/-- `content`, of a result -/
inductive ResultContent
  | text (s : String)
  | blocks (ps : List Part)
  | dumped (s : String)

/-- `tool_result` -/
structure ToolResult where
  toolUseId : String
  content : ResultContent

variable (dumps : Value → String)

/-- `_tool_result_block` -/
def toolResultBlock (content : ToolContent) (toolCallId : Option String) : ToolResult where
  toolUseId := toolCallId.getD ""
  content := match content with
    | .text s => .text s
    | .parts ps => .blocks (ps.map convertPart)
    | .obj fields => .dumped (dumps (.obj fields))

/-! ### The translation -/

/-- A block of a turn. -/
inductive Item
  /-- `tool_result`, of a tool message -/
  | result (r : ToolResult)
  | part (p : Part)

/-- `content`, of a turn -/
inductive TurnContent
  | text (s : String)
  | items (xs : List Item)

/-- A message of the request. -/
inductive Turn
  | user (content : TurnContent)
  | assistant (content : TurnContent)

/-- A block of the system value. -/
inductive SystemBlock
  /-- A text block made of strings. -/
  | strings (pieces : List String)
  | block (p : Part)

/-- The system value. -/
inductive SystemValue
  | none
  /-- A string, by the strings it is put together from. -/
  | text (pieces : List String)
  | blocks (bs : List SystemBlock)

/-- What the translation keeps. -/
structure Translation where
  converted : List Turn := []
  /-- `system_str`, by the strings it is put together from; `None`: there is none. -/
  systemStr : List String := []
  systemBlocks : Option (List SystemBlock) := none
  pending : List ToolResult := []

/-- A block of a system message; neither a type nor a text: it is left out. -/
def systemBlock (p : Part) : Option SystemBlock :=
  if p.type.isSome then some (.block p)
  else p.text.map fun text =>
    .block { type := some "text", text := some text, cacheControl := p.cacheControl }

namespace Translation

/-- `_promote_system_to_blocks` -/
def promote (s : Translation) : List SystemBlock :=
  s.systemBlocks.getD (if joinLines s.systemStr = "" then [] else [.strings s.systemStr])

/-- `flush_pending_alone` -/
def flush (s : Translation) : Translation :=
  if s.pending = [] then s
  else { s with
    converted := s.converted ++ [.user (.items (s.pending.map .result))]
    pending := [] }

end Translation

/-- The content of a turn, unless it is empty. -/
def turnContent : Chat.Content → Option TurnContent
  | .text s => if s = "" then none else some (.text s)
  | .parts ps => if ps = [] then none else some (.items (ps.map fun p => .part (convertPart p)))

/-- The blocks of a user message that comes after results. -/
def ownItems : Chat.Content → List Item
  | .text s => if s = "" then [] else [.part (textBlock s)]
  | .parts ps => ps.map fun p => .part (convertPart p)

/-- A message, in the body of `_convert_messages`. -/
def step (s : Translation) : Chat.Message → Translation
  | .system (.text text) =>
    match s.systemBlocks with
    | some bs =>
      if text = "" then s else { s with systemBlocks := some (bs ++ [.strings [text]]) }
    | none => { s with systemStr := s.systemStr ++ [text] }
  | .system (.parts ps) =>
    { s with systemStr := [], systemBlocks := some (s.promote ++ ps.filterMap systemBlock) }
  | .tool content _ toolCallId =>
    { s with pending := s.pending ++ [toolResultBlock dumps content toolCallId] }
  | .user content =>
    if s.pending ≠ [] then
      { s with
        converted := s.converted ++ [.user (.items (s.pending.map .result ++ ownItems content))]
        pending := [] }
    else { s with converted := s.converted ++ (turnContent content).toList.map .user }
  | .assistant content =>
    { s.flush with
      converted := s.flush.converted ++ (turnContent content).toList.map .assistant }

/-- The system value at the end. -/
def Translation.system (s : Translation) : SystemValue :=
  match s.systemBlocks with
  | some bs => if bs.isEmpty then .none else .blocks bs
  | none => if s.systemStr.isEmpty then .none else .text s.systemStr

/-- `_convert_messages` -/
def convertMessages (messages : List Chat.Message) : List Turn × SystemValue :=
  let s := messages.foldl (step dumps) {}
  (s.flush.converted, s.system)

/-! ### The conversation -/

/-- The results that wait, as a turn. -/
def flushed (pending : List ToolResult) : List Turn :=
  if pending = [] then [] else [.user (.items (pending.map .result))]

/-- What the messages add to the conversation, when results wait. -/
def conversation (pending : List ToolResult) : List Chat.Message → List Turn
  | [] => flushed pending
  | .system _ :: ms => conversation pending ms
  | .tool content _ toolCallId :: ms =>
    conversation (pending ++ [toolResultBlock dumps content toolCallId]) ms
  | .user content :: ms =>
    (if pending ≠ [] then [.user (.items (pending.map .result ++ ownItems content))]
    else (turnContent content).toList.map .user) ++ conversation [] ms
  | .assistant content :: ms =>
    flushed pending ++ ((turnContent content).toList.map .assistant ++ conversation [] ms)

variable {dumps : Value → String} {s : Translation} {ms : List Chat.Message}
  {pending : List ToolResult}

theorem flush_converted : s.flush.converted = s.converted ++ flushed s.pending := by
  rw [Translation.flush, flushed]
  split_ifs
  · exact (List.append_nil _).symm
  · rfl

theorem flush_pending : s.flush.pending = [] := by
  rw [Translation.flush]
  split_ifs with h
  · exact h
  · rfl

/-- The translation adds the conversation. -/
theorem foldl_step_converted : (ms.foldl (step dumps) s).flush.converted =
    s.converted ++ conversation dumps s.pending ms := by
  induction ms generalizing s with
  | nil => exact flush_converted
  | cons m ms ih =>
    rw [List.foldl_cons, ih]
    cases m with
    | system content =>
      cases content with
      | text text =>
        rw [step]
        cases s.systemBlocks with
        | none => rfl
        | some bs =>
          change (if text = "" then s else _ : Translation).converted ++ conversation dumps
            (if text = "" then s else _ : Translation).pending ms = _
          split_ifs <;> rfl
      | parts ps => rfl
    | tool content name toolCallId => rfl
    | user content =>
      rw [step, conversation]
      split_ifs with h
      · exact List.append_assoc ..
      · rw [Decidable.not_not.1 h]
        exact List.append_assoc ..
    | assistant content =>
      rw [step, conversation]
      change (s.flush.converted ++ _) ++ conversation dumps s.flush.pending ms = _
      rw [flush_converted, flush_pending, List.append_assoc, List.append_assoc]

/-! ### What turns hold -/

/-- The content is not empty. -/
def Turn.Filled : Turn → Prop
  | user (.text s) => s ≠ ""
  | user (.items xs) => xs ≠ []
  | assistant (.text s) => s ≠ ""
  | assistant (.items xs) => xs ≠ []

/-- The id of the call that a part holds, once it is converted. -/
def callId (p : Part) : Option String :=
  if (convertPart p).type = some "tool_use" then some ((convertPart p).id.getD "") else none

/-- The id of a `tool_use` block. -/
def Item.use : Item → Option String
  | part p => if p.type = some "tool_use" then some (p.id.getD "") else none
  | result _ => none

/-- The result that a block is. -/
def Item.toResult : Item → Option ToolResult
  | result r => some r
  | part _ => none

/-- The blocks of a content. -/
def TurnContent.toItems : TurnContent → List Item
  | text _ => []
  | items xs => xs

/-- The calls of an assistant turn. -/
def Turn.uses : Turn → List String
  | assistant c => c.toItems.filterMap Item.use
  | user _ => []

/-- The results of a turn. -/
def Turn.results : Turn → List ToolResult
  | user c => c.toItems.filterMap Item.toResult
  | assistant c => c.toItems.filterMap Item.toResult

/-- A user turn that starts with these results, and holds no other. -/
def Turn.StartsWith (t : Turn) (rs : List ToolResult) : Prop :=
  ∃ own : List Item, t = .user (.items (rs.map .result ++ own)) ∧ own.filterMap Item.toResult = []

/-- Each assistant turn with calls is followed by a user turn that starts with the results; `R` says
how these fit the calls. -/
def Paired (R : List String → List String → Prop) : List Turn → Prop
  | [] => True
  | t :: ts => (t.uses ≠ [] → ∃ rs u us, ts = u :: us ∧ u.StartsWith rs ∧
    R (rs.map ToolResult.toolUseId) t.uses) ∧ Paired R ts

/-- The result that a message is. -/
def toolResult (dumps : Value → String) : Chat.Message → Option ToolResult
  | .tool content _ toolCallId => some (toolResultBlock dumps content toolCallId)
  | _ => none

theorem turnContent_filled {content : Chat.Content} {c : TurnContent}
    (h : c ∈ (turnContent content).toList) :
    (Turn.user c).Filled ∧ (Turn.assistant c).Filled := by
  cases content with
  | text s =>
    rw [turnContent] at h
    split_ifs at h with hs
    · exact absurd h List.not_mem_nil
    · rw [List.mem_singleton.1 h]
      exact ⟨hs, hs⟩
  | parts ps =>
    rw [turnContent] at h
    split_ifs at h with hps
    · exact absurd h List.not_mem_nil
    · rw [List.mem_singleton.1 h]
      exact ⟨fun hnil => hps (List.map_eq_nil_iff.1 hnil),
        fun hnil => hps (List.map_eq_nil_iff.1 hnil)⟩

theorem flushed_filled : ∀ t ∈ flushed pending, t.Filled := by
  intro t ht
  rw [flushed] at ht
  split_ifs at ht with h
  · exact absurd ht List.not_mem_nil
  · rw [List.mem_singleton.1 ht]
    exact fun hnil => h (List.map_eq_nil_iff.1 hnil)

/-- No turn is empty. -/
theorem conversation_filled : ∀ t ∈ conversation dumps pending ms, t.Filled := by
  induction ms generalizing pending with
  | nil => exact flushed_filled
  | cons m ms ih =>
    intro t ht
    cases m with
    | system content => exact ih t ht
    | tool content name toolCallId => exact ih t ht
    | user content =>
      rcases List.mem_append.1 ht with ht | ht
      · split_ifs at ht with h
        · rw [List.mem_singleton.1 ht]
          exact fun hnil => h (List.map_eq_nil_iff.1 (List.append_eq_nil_iff.1 hnil).1)
        · obtain ⟨c, hc, rfl⟩ := List.mem_map.1 ht
          exact (turnContent_filled hc).1
      · exact ih t ht
    | assistant content =>
      rcases List.mem_append.1 ht with ht | ht
      · exact flushed_filled t ht
      · rcases List.mem_append.1 ht with ht | ht
        · obtain ⟨c, hc, rfl⟩ := List.mem_map.1 ht
          exact (turnContent_filled hc).2
        · exact ih t ht

theorem filterMap_toResult_map (rs : List ToolResult) :
    (rs.map Item.result).filterMap Item.toResult = rs := by
  rw [List.filterMap_map]
  exact List.filterMap_some

theorem filterMap_toResult_parts (ps : List Part) :
    (ps.map fun p => Item.part (convertPart p)).filterMap Item.toResult = [] := by
  rw [List.filterMap_map]
  exact List.filterMap_eq_nil_iff.2 fun p _ => rfl

theorem ownItems_results (content : Chat.Content) :
    (ownItems content).filterMap Item.toResult = [] := by
  cases content with
  | text s =>
    rw [ownItems]
    split_ifs <;> rfl
  | parts ps => exact filterMap_toResult_parts ps

theorem turnContent_results {content : Chat.Content} {c : TurnContent}
    (h : c ∈ (turnContent content).toList) : c.toItems.filterMap Item.toResult = [] := by
  cases content with
  | text s =>
    rw [turnContent] at h
    split_ifs at h
    · exact absurd h List.not_mem_nil
    · rw [List.mem_singleton.1 h]
      rfl
  | parts ps =>
    rw [turnContent] at h
    split_ifs at h
    · exact absurd h List.not_mem_nil
    · rw [List.mem_singleton.1 h]
      exact filterMap_toResult_parts ps

theorem flushed_results : (flushed pending).flatMap Turn.results = pending := by
  rw [flushed]
  split_ifs with h
  · exact h.symm
  · change (pending.map Item.result).filterMap Item.toResult ++ [] = _
    rw [filterMap_toResult_map, List.append_nil]

/-- **Each tool message contributes its result, once and in its place.** -/
theorem conversation_results : (conversation dumps pending ms).flatMap Turn.results =
    pending ++ ms.filterMap (toolResult dumps) := by
  induction ms generalizing pending with
  | nil => rw [List.filterMap_nil, List.append_nil]; exact flushed_results
  | cons m ms ih =>
    have hturn : ∀ (content : Chat.Content) (f : TurnContent → Turn),
        (∀ c, (f c).results = c.toItems.filterMap Item.toResult) →
        ((turnContent content).toList.map f).flatMap Turn.results = [] := by
      intro content f hf
      refine List.flatMap_eq_nil_iff.2 fun t ht => ?_
      obtain ⟨c, hc, rfl⟩ := List.mem_map.1 ht
      rw [hf, turnContent_results hc]
    cases m with
    | system content => exact ih
    | tool content name toolCallId =>
      rw [conversation, ih, List.filterMap_cons_some (rfl : toolResult dumps _ = some _),
        List.append_assoc, List.singleton_append]
    | user content =>
      rw [conversation, List.flatMap_append, ih, List.filterMap_cons_none rfl, List.nil_append]
      split_ifs with h
      · change ((pending.map Item.result ++ ownItems content).filterMap Item.toResult ++ []) ++ _ = _
        rw [List.filterMap_append, filterMap_toResult_map, ownItems_results, List.append_nil,
          List.append_nil]
      · rw [hturn _ _ fun _ => rfl, Decidable.not_not.1 h]
    | assistant content =>
      rw [conversation, List.flatMap_append, List.flatMap_append, flushed_results, ih,
        hturn _ _ fun _ => rfl, List.filterMap_cons_none rfl]
      rfl

/-! ### Calls and results -/

variable {R : List String → List String → Prop} {t : Turn} {ts us : List Turn}

theorem paired_cons (h : t.uses = []) : Paired R (t :: ts) ↔ Paired R ts :=
  and_iff_right fun hne => absurd h hne

theorem paired_append (h : ∀ t ∈ us, t.uses = []) : Paired R (us ++ ts) ↔ Paired R ts := by
  induction us with
  | nil => rfl
  | cons u us ih =>
    obtain ⟨hu, hus⟩ := List.forall_mem_cons.1 h
    exact (paired_cons hu).trans (ih hus)

theorem flushed_uses : ∀ t ∈ flushed pending, t.uses = [] := by
  intro t ht
  rw [flushed] at ht
  split_ifs at ht
  · exact absurd ht List.not_mem_nil
  · rw [List.mem_singleton.1 ht]
    rfl

theorem uses_user (content : Chat.Content) :
    ∀ t ∈ (turnContent content).toList.map Turn.user, t.uses = [] := by
  intro t ht
  obtain ⟨c, -, rfl⟩ := List.mem_map.1 ht
  rfl

/-- The calls of a turn are the calls of the message. -/
theorem uses_turnContent {content : Chat.Content} {c : TurnContent}
    (h : c ∈ (turnContent content).toList) : (Turn.assistant c).uses = content.calls callId := by
  cases content with
  | text s =>
    rw [turnContent] at h
    split_ifs at h
    · exact absurd h List.not_mem_nil
    · rw [List.mem_singleton.1 h]
      rfl
  | parts ps =>
    rw [turnContent] at h
    split_ifs at h
    · exact absurd h List.not_mem_nil
    · rw [List.mem_singleton.1 h]
      exact List.filterMap_map

/-- A message with calls is a turn. -/
theorem turnContent_of_calls {content : Chat.Content} (h : content.calls callId ≠ []) :
    ∃ c, turnContent content = some c := by
  cases content with
  | text s => exact absurd rfl h
  | parts ps =>
    rw [turnContent]
    split_ifs with hps
    · rw [hps] at h
      exact absurd rfl h
    · exact ⟨_, rfl⟩

/-- Results and system messages are collected until the next turn. -/
theorem conversation_collect {results : List Chat.Message}
    (h : ∀ m ∈ results, m.isTool = true ∨ m.isSystem = true) :
    conversation dumps pending (results ++ ms) =
      conversation dumps (pending ++ results.filterMap (toolResult dumps)) ms := by
  induction results generalizing pending with
  | nil => rw [List.filterMap_nil, List.append_nil]; rfl
  | cons m results ih =>
    obtain ⟨hm, hrest⟩ := List.forall_mem_cons.1 h
    cases m with
    | system content => rw [List.filterMap_cons_none rfl]; exact ih hrest
    | tool content name toolCallId =>
      rw [List.filterMap_cons_some (rfl : toolResult dumps _ = some _), List.append_cons]
      exact ih hrest
    | _ => exact absurd hm (by simp [Chat.Message.isTool, Chat.Message.isSystem])

variable (dumps) in
theorem map_toolUseId (results : List Chat.Message) :
    (results.filterMap (toolResult dumps)).map ToolResult.toolUseId =
      results.filterMap Chat.Message.answers := by
  rw [List.map_filterMap]
  refine List.filterMap_congr fun m _ => ?_
  cases m <;> rfl

/-- Results that wait come first in the next turn. -/
theorem startsWith_flushed (h : pending ≠ []) :
    ∃ u, flushed pending = [u] ∧ u.StartsWith pending :=
  ⟨_, if_neg h, [], by rw [List.append_nil], rfl⟩

/-- **Each turn with calls is followed by a turn that starts with the results**, and results that
wait come first in the next turn. -/
theorem conversation_paired (hR : ∀ us, R [] us → us = []) (h : Answered callId R ms) :
    Paired R (conversation dumps [] ms) ∧ ∀ pending ≠ [], ∃ u ts,
      conversation dumps pending ms = u :: ts ∧ u.StartsWith pending ∧ u.uses = [] ∧ Paired R ts := by
  have hflush : ∀ {pending : List ToolResult} {ts : List Turn}, pending ≠ [] → Paired R ts →
      ∃ u ts', flushed pending ++ ts = u :: ts' ∧ u.StartsWith pending ∧ u.uses = [] ∧
        Paired R ts' := by
    intro pending ts hne hts
    obtain ⟨u, hu, hstarts⟩ := startsWith_flushed hne
    exact ⟨u, ts, by rw [hu]; rfl, hstarts, flushed_uses u (hu ▸ List.mem_singleton.2 rfl), hts⟩
  induction h with
  | nil =>
    refine ⟨trivial, fun pending hne => ?_⟩
    obtain ⟨u, hu, hstarts⟩ := startsWith_flushed hne
    exact ⟨u, [], hu, hstarts, flushed_uses u (hu ▸ List.mem_singleton.2 rfl), trivial⟩
  | @other m ms hm ht h ih =>
    cases m with
    | system content => exact ih
    | tool content name toolCallId => exact absurd ht (by simp [Chat.Message.isTool])
    | user content =>
      refine ⟨?_, fun pending hne => ?_⟩
      · rw [conversation, if_neg (by simp)]
        exact (paired_append (uses_user content)).2 ih.1
      · rw [conversation, if_pos hne]
        exact ⟨_, _, rfl, ⟨_, rfl, ownItems_results content⟩, rfl, ih.1⟩
    | assistant content =>
      have hrest : Paired R ((turnContent content).toList.map Turn.assistant ++
          conversation dumps [] ms) := by
        refine (paired_append fun t ht => ?_).2 ih.1
        obtain ⟨c, hc, rfl⟩ := List.mem_map.1 ht
        rw [uses_turnContent hc]
        exact hm
      exact ⟨hrest, fun pending hne => hflush hne hrest⟩
  | @batch content results ms hc hresults hids h ih =>
    obtain ⟨c, hcontent⟩ := turnContent_of_calls hc
    have huses : (Turn.assistant c).uses = content.calls callId :=
      uses_turnContent (by rw [hcontent]; exact List.mem_singleton.2 rfl)
    have hne : results.filterMap (toolResult dumps) ≠ [] := by
      intro hnil
      have hmap := map_toolUseId dumps results
      rw [hnil] at hmap
      rw [← hmap] at hids
      exact hc (hR _ hids)
    obtain ⟨u, ts, hconv, hstarts, hidle, hts⟩ := ih.2 _ hne
    have hrest : Paired R ((turnContent content).toList.map Turn.assistant ++
        conversation dumps [] (results ++ ms)) := by
      rw [hcontent, conversation_collect hresults, List.nil_append, hconv]
      refine ⟨fun _ => ⟨_, u, ts, rfl, hstarts, ?_⟩, (paired_cons hidle).2 hts⟩
      rw [huses, map_toolUseId]
      exact hids
    exact ⟨hrest, fun pending hne => hflush hne hrest⟩

/-! ### The system value -/

/-- The texts of a block, with their cache markers. -/
def SystemBlock.pieces : SystemBlock → List (String × Option Value)
  | strings pieces => pieces.map (·, none)
  | block p => p.text.toList.map (·, p.cacheControl)

/-- The texts of the system value, with their cache markers. -/
def SystemValue.pieces : SystemValue → List (String × Option Value)
  | none => []
  | text pieces => pieces.map (·, Option.none)
  | blocks bs => bs.flatMap SystemBlock.pieces

/-- The texts of a system message, with their cache markers. -/
def systemPieces : Chat.Message → List (String × Option Value)
  | .system (.text s) => [(s, none)]
  | .system (.parts ps) => ps.filterMap fun p => p.text.map (·, p.cacheControl)
  | _ => []

/-- The texts that are not empty. -/
def texted (pieces : List (String × Option Value)) : List (String × Option Value) :=
  pieces.filter (·.1 ≠ "")

/-- The texts that the translation has kept. -/
def Translation.pieces (s : Translation) : List (String × Option Value) :=
  s.systemBlocks.elim (s.systemStr.map (·, none)) (·.flatMap SystemBlock.pieces)

theorem texted_append (ps qs : List (String × Option Value)) :
    texted (ps ++ qs) = texted ps ++ texted qs := List.filter_append ..

theorem flush_systemStr : s.flush.systemStr = s.systemStr := by
  rw [Translation.flush]
  split_ifs <;> rfl

theorem flush_systemBlocks : s.flush.systemBlocks = s.systemBlocks := by
  rw [Translation.flush]
  split_ifs <;> rfl

theorem texted_promote : texted (s.promote.flatMap SystemBlock.pieces) = texted s.pieces := by
  rw [Translation.promote, Translation.pieces]
  cases s.systemBlocks with
  | some bs => rfl
  | none =>
    change texted ((if joinLines s.systemStr = "" then [] else _).flatMap _) = _
    split_ifs with h
    · refine (List.filter_eq_nil_iff.2 fun x hx => ?_).symm
      obtain ⟨t, ht, rfl⟩ := List.mem_map.1 hx
      simp [eq_empty_of_joinLines h t ht]
    · change texted (_ ++ []) = _
      rw [List.append_nil]
      rfl

theorem systemBlock_pieces (ps : List Part) :
    (ps.filterMap systemBlock).flatMap SystemBlock.pieces =
      ps.filterMap fun p => p.text.map (·, p.cacheControl) := by
  rw [List.filterMap_eq_flatMap_toList, List.filterMap_eq_flatMap_toList, List.flatMap_assoc]
  refine List.flatMap_congr fun p _ => ?_
  rw [systemBlock]
  cases p.type <;> cases h : p.text <;> simp [SystemBlock.pieces, h]

theorem texted_step (m : Chat.Message) :
    texted (step dumps s m).pieces = texted s.pieces ++ texted (systemPieces m) := by
  cases m with
  | system content =>
    cases content with
    | text text =>
      rw [step, Translation.pieces, Translation.pieces, ← texted_append]
      cases hb : s.systemBlocks with
      | none => simp [systemPieces]
      | some bs =>
        by_cases ht : text = ""
        · simp [ht, hb, systemPieces, texted]
        · simp [ht, systemPieces, SystemBlock.pieces]
    | parts ps =>
      rw [← texted_promote (s := s), ← texted_append]
      change texted ((s.promote ++ ps.filterMap systemBlock).flatMap SystemBlock.pieces) = _
      rw [List.flatMap_append, systemBlock_pieces]
      rfl
  | tool content name toolCallId => exact (List.append_nil _).symm
  | user content =>
    rw [step]
    split_ifs <;> exact (List.append_nil _).symm
  | assistant content =>
    refine Eq.trans ?_ (List.append_nil _).symm
    change texted (s.flush.systemBlocks.elim (s.flush.systemStr.map _) _) = _
    rw [flush_systemStr, flush_systemBlocks]
    rfl

theorem texted_foldl_step :
    texted (ms.foldl (step dumps) s).pieces = texted s.pieces ++ texted (ms.flatMap systemPieces) := by
  induction ms generalizing s with
  | nil => exact (List.append_nil _).symm
  | cons m ms ih =>
    rw [List.foldl_cons, ih, texted_step, List.flatMap_cons, texted_append, List.append_assoc]

theorem system_pieces : s.system.pieces = s.pieces := by
  rw [Translation.system, Translation.pieces]
  cases s.systemBlocks with
  | none =>
    cases s.systemStr <;> rfl
  | some bs =>
    cases bs <;> rfl

/-! ### Texts -/

/-- The texts of a result. -/
def ResultContent.texts : ResultContent → List String
  | text s => [s]
  | blocks ps => ps.filterMap Part.text
  | dumped _ => []

/-- The texts of a block. -/
def Item.texts : Item → List String
  | result r => r.content.texts
  | part p => p.text.toList

/-- The texts of the content of a turn. -/
def TurnContent.texts : TurnContent → List String
  | text s => [s]
  | items xs => xs.flatMap Item.texts

/-- The texts of a turn. -/
def Turn.texts : Turn → List String
  | user c => c.texts
  | assistant c => c.texts

section Texts

variable {p : Part} {ps : List Part}

theorem convertPart_text (h : p.Neutral) : (convertPart p).text = p.text := by
  obtain ⟨type, text, image, document, call, sig, cache, id, name, input, args, inline, rest⟩ := p
  cases text with
  | none => cases type <;> cases image <;> cases document <;> cases call <;> rfl
  | some t =>
    obtain ⟨himage, hdocument, -, -⟩ := h rfl
    obtain rfl := Option.isNone_iff_eq_none.1 himage
    obtain rfl := Option.isNone_iff_eq_none.1 hdocument
    cases type <;> rfl

theorem convertParts_texts (h : ∀ p ∈ ps, p.Neutral) :
    (ps.map fun p => Item.part (convertPart p)).flatMap Item.texts = ps.filterMap Part.text := by
  rw [List.flatMap_map, List.filterMap_eq_flatMap_toList]
  exact List.flatMap_congr fun p hp => congrArg Option.toList (convertPart_text (h p hp))

theorem toolResultBlock_texts {content : ToolContent} {toolCallId : Option String}
    (h : ∀ p ∈ content.toParts, p.Neutral) :
    (toolResultBlock dumps content toolCallId).content.texts = content.texts := by
  cases content with
  | text s => rfl
  | obj fields => rfl
  | parts ps =>
    change (ps.map convertPart).filterMap Part.text = ps.filterMap Part.text
    rw [List.filterMap_map]
    exact List.filterMap_congr fun p hp => convertPart_text (h p hp)

theorem turnContent_texts {content : Chat.Content} (h : ∀ p ∈ content.toParts, p.Neutral) :
    written ((turnContent content).toList.flatMap TurnContent.texts) = written content.texts := by
  cases content with
  | text s =>
    rw [turnContent]
    split_ifs with hs
    · simp [Chat.Content.texts, written, hs]
    · rfl
  | parts ps =>
    have hps : ∀ p ∈ ps, p.Neutral := h
    change _ = written (ps.filterMap Part.text)
    rw [turnContent, ← convertParts_texts hps]
    split_ifs with hnil
    · rw [hnil]
      rfl
    · exact congrArg written (List.append_nil _)

theorem ownItems_texts {content : Chat.Content} (h : ∀ p ∈ content.toParts, p.Neutral) :
    written ((ownItems content).flatMap Item.texts) = written content.texts := by
  cases content with
  | text s =>
    rw [ownItems]
    split_ifs with hs
    · simp [Chat.Content.texts, written, hs]
    · rfl
  | parts ps => exact congrArg written (convertParts_texts h)

/-- The texts of results. -/
def resultTexts (rs : List ToolResult) : List String := rs.flatMap fun r => r.content.texts

theorem results_texts (rs : List ToolResult) :
    (rs.map Item.result).flatMap Item.texts = resultTexts rs := List.flatMap_map ..

theorem flushed_texts : (flushed pending).flatMap Turn.texts = resultTexts pending := by
  rw [flushed]
  split_ifs with hnil
  · rw [hnil]
    rfl
  · exact (List.append_nil _).trans (results_texts pending)

/-- The texts of results that wait come first, and then the texts of the messages. -/
theorem conversation_texts (h : ∀ m ∈ ms, ∀ p ∈ m.toParts, p.Neutral) :
    written ((conversation dumps pending ms).flatMap Turn.texts) =
      written (resultTexts pending ++ ms.flatMap Chat.Message.texts) := by
  induction ms generalizing pending with
  | nil =>
    rw [List.flatMap_nil, List.append_nil]
    exact congrArg written flushed_texts
  | cons m ms ih =>
    obtain ⟨hm, hms⟩ := List.forall_mem_cons.1 h
    cases m with
    | system content => exact ih hms
    | tool content name toolCallId =>
      rw [conversation, ih hms, resultTexts, List.flatMap_append, List.flatMap_singleton,
        toolResultBlock_texts hm, List.flatMap_cons, List.append_assoc]
      rfl
    | user content =>
      have hturn : written ((if pending ≠ [] then
            [Turn.user (.items (pending.map .result ++ ownItems content))]
          else (turnContent content).toList.map .user).flatMap Turn.texts) =
          written (resultTexts pending ++ content.texts) := by
        split_ifs with hpending
        · change written ((pending.map Item.result ++ ownItems content).flatMap Item.texts ++ []) = _
          rw [List.append_nil, List.flatMap_append, results_texts, written_append, written_append,
            ownItems_texts hm]
        · rw [not_not.1 hpending, List.flatMap_map]
          exact turnContent_texts hm
      rw [conversation, List.flatMap_append, written_append, hturn, ih hms, ← written_append,
        List.append_assoc]
      rfl
    | assistant content =>
      rw [conversation, List.flatMap_append, List.flatMap_append, flushed_texts, written_append,
        written_append, ih hms, List.flatMap_map]
      change _ ++ (written ((turnContent content).toList.flatMap TurnContent.texts) ++ _) = _
      rw [turnContent_texts hm, ← written_append, ← written_append]
      rfl

/-- **The texts of the conversation are carried over.** -/
theorem texts_convertMessages (h : ∀ m ∈ ms, ∀ p ∈ m.toParts, p.Neutral) :
    written ((convertMessages dumps ms).1.flatMap Turn.texts) =
      written (ms.flatMap Chat.Message.texts) := by
  have hconv : (convertMessages dumps ms).1 = conversation dumps [] ms := foldl_step_converted
  rw [hconv, conversation_texts h]
  rfl

theorem written_map_fst (pieces : List (String × Option Value)) :
    written (pieces.map Prod.fst) = (texted pieces).map Prod.fst := List.filter_map

variable (dumps ms) in
/-- The texts of system messages are carried over. -/
theorem systemTexts_convertMessages :
    written ((convertMessages dumps ms).2.pieces.map Prod.fst) =
      written (ms.flatMap Chat.Message.systemTexts) := by
  have hpieces : (ms.flatMap systemPieces).map Prod.fst = ms.flatMap Chat.Message.systemTexts := by
    rw [List.map_flatMap]
    refine List.flatMap_congr fun m _ => ?_
    cases m with
    | system content =>
      cases content with
      | text s => rfl
      | parts ps =>
        change (ps.filterMap fun p => p.text.map (·, p.cacheControl)).map Prod.fst =
          ps.filterMap Part.text
        rw [List.map_filterMap]
        refine List.filterMap_congr fun p _ => ?_
        cases p.text <;> rfl
    | _ => rfl
  rw [written_map_fst, ← hpieces, written_map_fst]
  change (texted (ms.foldl (step dumps) {}).system.pieces).map Prod.fst = _
  rw [system_pieces, texted_foldl_step]
  rfl

end Texts

/-- What holds of a request, whatever the history: no turn is empty, each tool message contributes
one result, and each system text is in the system value, in order, with its cache marker. -/
structure WellFormed (dumps : Value → String) (messages : List Chat.Message)
    (request : List Turn × SystemValue) : Prop where
  /-- No turn is empty. -/
  filled : ∀ t ∈ request.1, t.Filled
  /-- Each tool message contributes one result. -/
  results : request.1.flatMap Turn.results = messages.filterMap (toolResult dumps)
  /-- The system texts, with their cache markers. -/
  system : texted request.2.pieces = texted (messages.flatMap systemPieces)

/-- **A request is well formed, and each turn with calls is followed by a turn that starts with the
results**: in any order if the calls are answered in any order, in the order of the calls if they are
answered in this order. -/
theorem anthropic_well_formed (dumps : Value → String) {messages : List Chat.Message}
    (h : Answered callId List.Perm messages) :
    WellFormed dumps messages (convertMessages dumps messages) ∧
      Paired List.Perm (convertMessages dumps messages).1 ∧
      (Answered callId Eq messages → Paired Eq (convertMessages dumps messages).1) := by
  have hconv : (convertMessages dumps messages).1 = conversation dumps [] messages :=
    foldl_step_converted
  refine ⟨⟨?_, ?_, ?_⟩, ?_, fun heq => ?_⟩
  · rw [hconv]
    exact conversation_filled
  · rw [hconv]
    exact conversation_results
  · change texted (messages.foldl (step dumps) {}).system.pieces = _
    rw [system_pieces, texted_foldl_step]
    rfl
  · rw [hconv]
    exact (conversation_paired (fun us hus => List.nil_perm.1 hus) h).1
  · rw [hconv]
    exact (conversation_paired (fun us hus => hus.symm) heq).1

namespace Sample

/-- A system prompt that is cached. -/
def prompt : Chat.Message :=
  .system (.parts [{ text := some "Be brief.", cacheControl := some (.str "ephemeral") }])

def callOf (id : String) : Part :=
  { functionCall := some { id := some id, name := some "weather" } }

/-- A turn with two calls. -/
def twoCalls : Chat.Message := .assistant (.parts [{ text := some "Wait." }, callOf "a", callOf "b"])

def resultOf (id : String) : Chat.Message := .tool (.text "Rain.") (some "weather") (some id)

/-- Two calls that are answered, with a prompt before the second answer. -/
def answered : List Chat.Message :=
  .system (.text "You are an agent.") ::
    twoCalls :: ([resultOf "a", prompt, resultOf "b"] ++ [.user (.text "Thanks.")])

theorem answered_in_order : Answered callId Eq answered :=
  .other rfl rfl (.batch (by decide) (by decide) rfl (.other rfl rfl .nil))

theorem answered_in_any_order : Answered callId List.Perm answered :=
  .other rfl rfl (.batch (by decide) (by decide) (by decide) (.other rfl rfl .nil))

end Sample

/-- A history with a prompt that is cached, and two calls that are answered in their order. -/
theorem anthropic_well_formed_answered :
    WellFormed (fun _ => "") Sample.answered (convertMessages (fun _ => "") Sample.answered) ∧
      Paired Eq (convertMessages (fun _ => "") Sample.answered).1 :=
  have h := anthropic_well_formed (fun _ => "") Sample.answered_in_any_order
  ⟨h.1, h.2.2 Sample.answered_in_order⟩

end Backplane.Chat.Anthropic
