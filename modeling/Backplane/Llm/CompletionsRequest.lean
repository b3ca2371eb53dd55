import Backplane.Llm.Messages
import Mathlib.Data.List.Perm.Basic

/-!
# Requests for chat completions

A history becomes a list of entries, message after message.  The endpoint wants each assistant entry
with calls to be followed by an entry for each result; but results that are made of parts have no
place in such an entry, and are added as a user entry of their own.

* `convertMessages` : the entries of a history.
* `Paired` : the results follow the calls, before any entry of another role.
* `completions_paired_iff` : this is so exactly where nothing else is added between the results of a
  turn.
-/

namespace Backplane.Chat.Completions

/-! ### The translation -/

/-- A block of a user entry. -/
inductive UserBlock
  | native (p : Part)
  | imageUrl (url : String)
  | file (filename fileData : String)
  | text (s : String)

/-- `_convert_user_part` -/
def convertUserPart (p : Part) : Option UserBlock :=
  if p.type = some "text" || p.type = some "image_url" then some (.native p)
  else match p.image with
  | some img => some (.imageUrl (dataUrl (img.mimeType.getD "image/jpeg") (img.data.getD "")))
  | none => match p.document with
    | some doc => some (.file doc.filename
      (dataUrl (doc.mimeType.getD "application/pdf") (doc.data.getD "")))
    | none => match p.text with
      | some s => some (.text s)
      | none =>
        if p.type = some "thinking" || p.type = some "redacted_thinking" ||
          p.type = some "reasoning" then none
        else some (.native p)

namespace UserBlock

/-- The block is not `{}`. -/
def truthy : UserBlock → Bool
  | native p => !p.isEmpty
  | _ => true

/-- The type of the block is `text`. -/
def isText : UserBlock → Bool
  | native p => p.type = some "text"
  | text _ => true
  | _ => false

/-- The text of the block. -/
def toText : UserBlock → Option String
  | native p => p.text
  | text s => some s
  | _ => none

end UserBlock

/-- `content`, of a system entry or a user entry -/
inductive EntryContent
  /-- A string, by the pieces it is put together from. -/
  | text (pieces : List String)
  | blocks (bs : List UserBlock)

/-- A call of an assistant entry. -/
structure CallEntry where
  id : String
  name : String
  arguments : String

/-- An entry of a request. -/
inductive Entry
  | system (content : EntryContent)
  | user (content : EntryContent)
  /-- `assistant`; the content is a string, by its pieces, or missing. -/
  | assistant (content : Option (List String)) (toolCalls : List CallEntry)
  | tool (toolCallId : String) (content : ToolText)

variable (dumps : Value → String)

/-- The arguments of a call, as text. -/
def argumentsText (fc : FunctionCall) : String :=
  match fc.args with
  | none => dumps (orEmpty fc.input)
  | some .null => dumps (orEmpty fc.input)
  | some (.str s) => s
  | some v => dumps v

/-- The call that a part holds, if it holds one. -/
def callEntry (p : Part) : Option CallEntry :=
  if p.type = some "tool_use" then
    some { id := p.id.getD "", name := p.name.getD "", arguments := dumps (orEmpty p.input) }
  else p.functionCall.map fun fc =>
    { id := fc.id.getD "", name := fc.name.getD "", arguments := argumentsText dumps fc }

/-- The text of a part that holds no call. -/
def spokenText (p : Part) : Option String :=
  if p.type = some "tool_use" || p.functionCall.isSome then none else p.text

/-- An assistant entry, unless there is nothing in it. -/
def assistantEntry (pieces : List String) (toolCalls : List CallEntry) : List Entry :=
  if String.join pieces ≠ "" then [.assistant (some pieces) toolCalls]
  else if toolCalls ≠ [] then [.assistant none toolCalls]
  else []

/-- The content of a system message or a user message, unless there is nothing in it. -/
def entryContent : Chat.Content → Option EntryContent
  | .text s => if s = "" then none else some (.text [s])
  | .parts ps =>
    let blocks := ps.filterMap convertUserPart
    if blocks.all UserBlock.isText then
      let pieces := blocks.map fun b => b.toText.getD ""
      if String.join pieces = "" then none else some (.text pieces)
    else some (.blocks blocks)

/-- The blocks of a result. -/
def resultBlocks (ps : List Part) : List UserBlock :=
  (ps.filterMap convertUserPart).filter UserBlock.truthy

/-- A message, in the body of `_convert_messages`. -/
def convertMessage : Chat.Message → List Entry
  | .tool (.parts ps) name toolCallId =>
    .tool (toolCallId.getD "") (.notice name) ::
      if resultBlocks ps = [] then [] else [.user (.blocks (resultBlocks ps))]
  | .tool (.text s) _ toolCallId => [.tool (toolCallId.getD "") (.text s)]
  | .tool (.obj fields) _ toolCallId => [.tool (toolCallId.getD "") (.dumped (dumps (.obj fields)))]
  | .assistant (.text s) => assistantEntry [s] []
  | .assistant (.parts ps) =>
    assistantEntry (ps.filterMap spokenText) (ps.filterMap (callEntry dumps))
  | .system c => (entryContent c).toList.map .system
  | .user c => (entryContent c).toList.map .user

/-- `_convert_messages` -/
def convertMessages (messages : List Chat.Message) : List Entry :=
  messages.flatMap (convertMessage dumps)

/-! ### Texts -/

/-- The texts of a content. -/
def EntryContent.texts : EntryContent → List String
  | text pieces => pieces
  | blocks bs => bs.filterMap UserBlock.toText

/-- The texts that an entry adds to the conversation. -/
def Entry.texts : Entry → List String
  | system _ => []
  | user c => c.texts
  | assistant content _ => content.getD []
  | tool _ content => content.texts

/-- The texts of a system entry. -/
def Entry.systemTexts : Entry → List String
  | system c => c.texts
  | _ => []

section Texts

variable {dumps : Value → String} {p : Part} {ps : List Part}

theorem convertUserPart_text (h : p.Neutral) :
    (convertUserPart p).bind UserBlock.toText = p.text := by
  obtain ⟨type, text, image, document, call, sig, cache, id, name, input, args, inline, rest⟩ := p
  cases text with
  | none =>
    rw [convertUserPart]
    split_ifs
    · rfl
    · cases image <;> cases document <;> rfl
    · cases image <;> cases document <;> rfl
  | some t =>
    obtain ⟨himage, hdocument, -, htype⟩ := h rfl
    obtain rfl := Option.isNone_iff_eq_none.1 himage
    obtain rfl := Option.isNone_iff_eq_none.1 hdocument
    rcases htype with rfl | rfl <;> rfl

theorem userBlocks_texts (h : ∀ p ∈ ps, p.Neutral) :
    (ps.filterMap convertUserPart).filterMap UserBlock.toText = ps.filterMap Part.text := by
  rw [List.filterMap_filterMap]
  exact List.filterMap_congr fun p hp => convertUserPart_text (h p hp)

theorem resultBlocks_texts (h : ∀ p ∈ ps, p.Neutral) :
    (resultBlocks ps).filterMap UserBlock.toText = ps.filterMap Part.text := by
  rw [← userBlocks_texts h, resultBlocks, ← List.filterMap_eq_filter, List.filterMap_filterMap]
  refine List.filterMap_congr fun b _ => ?_
  -- A block that is dropped has no text.
  rw [Option.guard]
  split_ifs with htruthy
  · rfl
  · cases b with
    | native q =>
      have hempty : q.isEmpty = true := by simpa [UserBlock.truthy] using htruthy
      have hnone : q.text = none := by
        simp only [Part.isEmpty, Bool.and_eq_true] at hempty
        exact Option.isNone_iff_eq_none.1 (by tauto)
      exact hnone.symm
    | imageUrl url => exact absurd rfl htruthy
    | file filename fileData => exact absurd rfl htruthy
    | text s => exact absurd rfl htruthy

theorem written_pieces (bs : List UserBlock) :
    written (bs.map fun b => b.toText.getD "") = written (bs.filterMap UserBlock.toText) := by
  induction bs with
  | nil => rfl
  | cons b bs ih =>
    rw [List.map_cons, ← List.singleton_append, written_append, ih]
    cases hb : b.toText with
    | none => rw [List.filterMap_cons_none hb]; rfl
    | some s => rw [List.filterMap_cons_some hb]; exact (written_append [s] _).symm

/-- The texts of a content are in its entry, if there is one. -/
theorem entryContent_texts {content : Chat.Content} (h : ∀ p ∈ content.toParts, p.Neutral) :
    written ((entryContent content).toList.flatMap EntryContent.texts) = written content.texts := by
  cases content with
  | text s =>
    rw [entryContent]
    split_ifs with hs
    · simp [Chat.Content.texts, written, hs]
    · rfl
  | parts ps =>
    have hps : ∀ p ∈ ps, p.Neutral := h
    change _ = written (ps.filterMap Part.text)
    rw [entryContent, ← userBlocks_texts hps]
    dsimp only
    split_ifs with htext hempty
    · rw [← written_pieces]
      exact (written_eq_nil.2 (join_eq_empty.1 hempty)).symm
    · rw [← written_pieces]
      exact congrArg written (List.append_nil _)
    · exact congrArg written (List.append_nil _)

theorem assistantEntry_texts (pieces : List String) (toolCalls : List CallEntry) :
    written ((assistantEntry pieces toolCalls).flatMap Entry.texts) = written pieces := by
  rw [assistantEntry]
  split_ifs with hjoin
  · exact congrArg written (List.append_nil _)
  · exact (written_eq_nil.2 (join_eq_empty.1 (not_not.1 hjoin))).symm
  · exact (written_eq_nil.2 (join_eq_empty.1 (not_not.1 hjoin))).symm

theorem spokenText_eq (h : p.Neutral) : spokenText p = p.text := by
  rw [spokenText]
  split_ifs with hcall
  · rcases Bool.or_eq_true_iff.1 hcall with huse | hcall
    · exact (h.text_eq_none (.inr ⟨_, of_decide_eq_true huse, by decide⟩)).symm
    · exact (h.text_eq_none (.inl hcall)).symm
  · rfl

/-- **A message's texts are carried over.** -/
theorem texts_convertMessage {m : Chat.Message} (h : ∀ p ∈ m.toParts, p.Neutral) :
    written ((convertMessage dumps m).flatMap Entry.texts) = written m.texts := by
  cases m with
  | system content =>
    have hnil : (convertMessage dumps (.system content)).flatMap Entry.texts = [] := by
      rw [convertMessage]
      cases entryContent content <;> rfl
    rw [hnil]
    rfl
  | user content =>
    rw [convertMessage, List.flatMap_map]
    exact entryContent_texts h
  | assistant content =>
    cases content with
    | text s => exact assistantEntry_texts [s] []
    | parts ps =>
      rw [convertMessage, assistantEntry_texts]
      exact congrArg written (List.filterMap_congr fun p hp => spokenText_eq (h p hp))
  | tool content name toolCallId =>
    cases content with
    | text s => rfl
    | obj fields => rfl
    | parts ps =>
      refine congrArg written ?_
      change (if resultBlocks ps = [] then [] else _ : List Entry).flatMap Entry.texts =
        ps.filterMap Part.text
      have hps : ∀ p ∈ ps, p.Neutral := h
      rw [← resultBlocks_texts hps]
      split_ifs with hempty
      · rw [hempty]
        rfl
      · exact List.append_nil _

/-- The texts of a system message are carried over. -/
theorem systemTexts_convertMessage {m : Chat.Message} (h : ∀ p ∈ m.toParts, p.Neutral) :
    written ((convertMessage dumps m).flatMap Entry.systemTexts) = written m.systemTexts := by
  cases m with
  | system content =>
    rw [convertMessage, List.flatMap_map]
    exact entryContent_texts h
  | user content =>
    rw [convertMessage, List.flatMap_map]
    cases entryContent content <;> rfl
  | assistant content =>
    have hnil : ∀ (pieces : List String) (toolCalls : List CallEntry),
        (assistantEntry pieces toolCalls).flatMap Entry.systemTexts = [] := by
      intro pieces toolCalls
      rw [assistantEntry]
      split_ifs <;> rfl
    cases content with
    | text s => exact congrArg written (hnil [s] [])
    | parts ps => exact congrArg written (hnil _ _)
  | tool content name toolCallId =>
    cases content with
    | text s => rfl
    | obj fields => rfl
    | parts ps =>
      refine congrArg written ?_
      change (if resultBlocks ps = [] then [] else _ : List Entry).flatMap Entry.systemTexts = []
      split_ifs <;> rfl

end Texts

/-! ### Calls and results -/

/-- The id of the call that a part holds, if it holds one. -/
def callId (p : Part) : Option String :=
  if p.type = some "tool_use" then some (p.id.getD "")
  else p.functionCall.map fun fc => fc.id.getD ""

/-- The ids of the results at the front. -/
def leading : List Entry → List String
  | .tool toolCallId _ :: es => toolCallId :: leading es
  | _ => []

/-- The calls of each entry are followed by their results, before any entry of another role. -/
def Paired : List Entry → Prop
  | [] => True
  | .assistant _ toolCalls :: es =>
    (toolCalls ≠ [] → (leading es).Perm (toolCalls.map CallEntry.id)) ∧ Paired es
  | _ :: es => Paired es

/-- The message adds an entry. -/
def adds : Chat.Message → Bool
  | .system c => (entryContent c).isSome
  | _ => true

/-- The message adds an entry that is no result, and has no calls. -/
def splits : Chat.Message → Bool
  | .tool (.parts ps) _ _ => !(resultBlocks ps).isEmpty
  | .system _ => true
  | _ => false

variable {dumps : Value → String} {m : Chat.Message} {ms results : List Chat.Message}
  {es es' : List Entry}

variable (dumps) in
theorem map_id_callEntry (ps : List Part) :
    (ps.filterMap (callEntry dumps)).map CallEntry.id = ps.filterMap callId := by
  rw [List.map_filterMap]
  refine List.filterMap_congr fun p _ => ?_
  rw [callEntry, callId]
  split_ifs
  · rfl
  · rw [Option.map_map]
    rfl

/-- The entry makes no calls. -/
def Entry.idle : Entry → Bool
  | assistant _ toolCalls => toolCalls.isEmpty
  | _ => true

theorem paired_append (h : ∀ e ∈ es, e.idle = true) : Paired (es ++ es') ↔ Paired es' := by
  induction es with
  | nil => rfl
  | cons e es ih =>
    obtain ⟨he, hes⟩ := List.forall_mem_cons.1 h
    cases e with
    | assistant content toolCalls =>
      have hnil : toolCalls = [] := List.isEmpty_iff.1 he
      rw [List.cons_append, Paired, ih hes, hnil]
      exact and_iff_right fun hne => absurd rfl hne
    | _ => exact ih hes

theorem assistantEntry_idle (pieces : List String) :
    ∀ e ∈ assistantEntry pieces [], e.idle = true := by
  intro e he
  rw [assistantEntry] at he
  split_ifs at he
  · rw [List.mem_singleton.1 he]
    rfl
  · exact absurd rfl ‹_›
  · exact absurd he List.not_mem_nil

/-- A message without calls adds no entry with calls. -/
theorem convertMessage_idle (h : m.calls callId = []) :
    ∀ e ∈ convertMessage dumps m, e.idle = true := by
  have hcontent : ∀ (x : Option EntryContent) (f : EntryContent → Entry), (∀ c, (f c).idle = true) →
      ∀ e ∈ x.toList.map f, e.idle = true := by
    intro x f hf e he
    obtain ⟨c, -, rfl⟩ := List.mem_map.1 he
    exact hf c
  cases m with
  | system c => exact hcontent _ _ fun _ => rfl
  | user c => exact hcontent _ _ fun _ => rfl
  | assistant c =>
    cases c with
    | text s => exact assistantEntry_idle _
    | parts ps =>
      have hnil : ps.filterMap (callEntry dumps) = [] := by
        have hids := map_id_callEntry dumps ps
        rw [show ps.filterMap callId = [] from h] at hids
        exact List.map_eq_nil_iff.1 hids
      rw [convertMessage, hnil]
      exact assistantEntry_idle _
  | tool c name toolCallId =>
    intro e he
    cases c with
    | text s => rw [List.mem_singleton.1 he]; rfl
    | obj fields => rw [List.mem_singleton.1 he]; rfl
    | parts ps =>
      rcases List.mem_cons.1 he with rfl | he
      · rfl
      · split_ifs at he
        · exact absurd he List.not_mem_nil
        · rw [List.mem_singleton.1 he]
          rfl

variable (dumps) in
/-- A message with calls adds an entry with these calls. -/
theorem convertMessage_calls {c : Chat.Content} (h : c.calls callId ≠ []) :
    ∃ content toolCalls, convertMessage dumps (.assistant c) = [.assistant content toolCalls] ∧
      toolCalls.map CallEntry.id = c.calls callId := by
  cases c with
  | text s => exact absurd rfl h
  | parts ps =>
    have hids := map_id_callEntry dumps ps
    have hne : ps.filterMap (callEntry dumps) ≠ [] := by
      intro hnil
      rw [hnil] at hids
      exact h hids.symm
    rw [convertMessage, assistantEntry]
    split_ifs
    · exact ⟨_, _, rfl, hids⟩
    · exact ⟨_, _, rfl, hids⟩

theorem leading_append_of_ne_nil (h : leading es = []) (hne : es ≠ []) :
    leading (es ++ es') = [] := by
  cases es with
  | nil => exact absurd rfl hne
  | cons e es =>
    cases e with
    | tool id text => exact absurd h (by simp [leading])
    | _ => rfl

/-- A message that is no result adds no result. -/
theorem leading_convertMessage (h : m.isTool = false) : leading (convertMessage dumps m) = [] := by
  have hmap : ∀ (x : Option EntryContent) (f : EntryContent → Entry),
      (∀ c es, leading (f c :: es) = []) → leading (x.toList.map f) = [] := by
    intro x f hf
    cases x with
    | none => rfl
    | some c => exact hf c []
  have hentry : ∀ pieces toolCalls, leading (assistantEntry pieces toolCalls) = [] := by
    intro pieces toolCalls
    rw [assistantEntry]
    split_ifs <;> rfl
  cases m with
  | system c => exact hmap _ _ fun _ _ => rfl
  | user c => exact hmap _ _ fun _ _ => rfl
  | assistant c => cases c <;> exact hentry _ _
  | tool c name toolCallId => exact absurd h (by simp [Chat.Message.isTool])

variable (dumps) in
/-- No result comes first in what follows a turn. -/
theorem leading_of_answered {R : List String → List String → Prop}
    (h : Answered callId R ms) : leading (convertMessages dumps ms) = [] := by
  induction h with
  | nil => rfl
  | @other m ms hm ht _ ih =>
    rw [convertMessages, List.flatMap_cons]
    by_cases hne : convertMessage dumps m = []
    · rw [hne]
      exact ih
    · exact leading_append_of_ne_nil (leading_convertMessage ht) hne
  | batch hc _ _ _ _ =>
    obtain ⟨content, toolCalls, heq, -⟩ := convertMessage_calls dumps hc
    rw [convertMessages, List.flatMap_cons, heq]
    rfl

theorem head_not_tool {R : List String → List String → Prop} (h : Answered callId R ms) :
    ∀ x ∈ (ms.filter adds).head?, x.isTool = false := by
  induction h with
  | nil => exact fun x hx => absurd hx (by simp)
  | @other m ms hm ht _ ih =>
    intro x hx
    cases ha : adds m with
    | true =>
      rw [List.filter_cons_of_pos ha, List.head?_cons] at hx
      exact Option.some.inj hx ▸ ht
    | false =>
      rw [List.filter_cons_of_neg (by simp [ha])] at hx
      exact ih x hx
  | batch _ _ _ _ _ =>
    intro x hx
    rw [List.filter_cons_of_pos rfl, List.head?_cons] at hx
    exact Option.some.inj hx ▸ rfl

/-- A message that splits is followed by no result. -/
theorem isChain_cons_of_splits (hm : splits m = true)
    (hresults : ∀ x ∈ results, x.isTool = true ∨ x.isSystem = true) :
    ((m :: results.filter adds).IsChain fun x y => y.isTool = true → splits x = false) ↔
      results.filterMap Chat.Message.answers = [] := by
  induction results generalizing m with
  | nil => simp
  | cons x results ih =>
    obtain ⟨hx, hrest⟩ := List.forall_mem_cons.1 hresults
    cases x with
    | tool c name toolCallId =>
      rw [List.filter_cons_of_pos rfl, List.isChain_cons_cons]
      refine iff_of_false (fun h => ?_) (List.cons_ne_nil _ _)
      rw [h.1 rfl] at hm
      exact absurd hm (by simp)
    | system c =>
      cases ha : adds (.system c) with
      | true =>
        rw [List.filter_cons_of_pos ha, List.isChain_cons_cons,
          and_iff_right fun h => absurd h (by simp [Chat.Message.isTool])]
        exact ih rfl hrest
      | false =>
        rw [List.filter_cons_of_neg (by simp [ha])]
        exact ih hm hrest
    | _ => exact absurd hx (by simp [Chat.Message.isTool, Chat.Message.isSystem])

/-- The results at the front, of what the results of a turn add: all of them, if nothing is added
between them. -/
theorem leading_results (hes : leading es = [])
    (hresults : ∀ x ∈ results, x.isTool = true ∨ x.isSystem = true) :
    leading (convertMessages dumps results ++ es) <+: results.filterMap Chat.Message.answers ∧
      (leading (convertMessages dumps results ++ es) = results.filterMap Chat.Message.answers ↔
        (results.filter adds).IsChain fun x y => y.isTool = true → splits x = false) := by
  induction results with
  | nil => exact ⟨hes ▸ List.nil_prefix, iff_of_true hes .nil⟩
  | cons x results ih =>
    obtain ⟨hx, hrest⟩ := List.forall_mem_cons.1 hresults
    have hih := ih hrest
    rw [convertMessages, List.flatMap_cons, List.append_assoc, ← convertMessages]
    cases x with
    | tool c name toolCallId =>
      have hcons : ∃ text more, convertMessage dumps (.tool c name toolCallId) =
          .tool (toolCallId.getD "") text :: more ∧ leading more = [] ∧
          (more = [] ↔ splits (.tool c name toolCallId) = false) := by
        cases c with
        | text s => exact ⟨_, _, rfl, rfl, by simp [splits]⟩
        | obj fields => exact ⟨_, _, rfl, rfl, by simp [splits]⟩
        | parts ps =>
          refine ⟨_, _, rfl, ?_, ?_⟩
          · split_ifs <;> rfl
          · cases hb : resultBlocks ps <;> simp [splits, hb]
      obtain ⟨text, more, hconvert, hmore, hsplits⟩ := hcons
      rw [hconvert, List.filter_cons_of_pos rfl,
        List.filterMap_cons_some (rfl : Chat.Message.answers _ = some (toolCallId.getD ""))]
      change (_ :: leading (more ++ _)) <+: _ ∧ (_ :: leading (more ++ _) = _ ↔ _)
      rw [List.prefix_cons_inj, List.cons_inj_right]
      cases hs : splits (.tool c name toolCallId) with
      | false =>
        rw [hsplits.2 hs, List.nil_append, List.isChain_cons, and_iff_right fun _ _ _ => hs]
        exact hih
      | true =>
        have hne : more ≠ [] := by
          intro hnil
          rw [hsplits.1 hnil] at hs
          exact absurd hs (by simp)
        rw [leading_append_of_ne_nil hmore hne, isChain_cons_of_splits hs hrest]
        exact ⟨List.nil_prefix, eq_comm⟩
    | system c =>
      rw [List.filterMap_cons_none (rfl : Chat.Message.answers (.system c) = none)]
      cases ha : adds (.system c) with
      | true =>
        obtain ⟨content, hcontent⟩ := Option.isSome_iff_exists.1 ha
        rw [List.filter_cons_of_pos ha, isChain_cons_of_splits rfl hrest, convertMessage, hcontent]
        exact ⟨List.nil_prefix, eq_comm⟩
      | false =>
        rw [List.filter_cons_of_neg (by simp [ha]), convertMessage,
          Option.isSome_eq_false_iff.1 ha |> Option.isNone_iff_eq_none.1]
        exact hih
    | _ => exact absurd hx (by simp [Chat.Message.isTool, Chat.Message.isSystem])

theorem convertMessages_idle (hresults : ∀ x ∈ results, x.isTool = true ∨ x.isSystem = true) :
    ∀ e ∈ convertMessages dumps results, e.idle = true := by
  intro e he
  obtain ⟨x, hx, he⟩ := List.mem_flatMap.1 he
  refine convertMessage_idle ?_ e he
  cases x with
  | assistant c =>
    exact absurd (hresults _ hx) (by simp [Chat.Message.isTool, Chat.Message.isSystem])
  | _ => rfl

/-- **The results follow the calls exactly where nothing else is added between them**: no result that
is made of parts, and no system message, comes before another result of the turn. -/
theorem completions_paired_iff (dumps : Value → String) {messages : List Chat.Message}
    (h : Answered callId List.Perm messages) :
    Paired (convertMessages dumps messages) ↔
      (messages.filter adds).IsChain fun x y => y.isTool = true → splits x = false := by
  induction h with
  | nil => exact iff_of_true trivial .nil
  | @other m ms hm ht h ih =>
    rw [convertMessages, List.flatMap_cons, paired_append (convertMessage_idle hm)]
    refine ih.trans ?_
    cases ha : adds m with
    | true =>
      rw [List.filter_cons_of_pos ha, List.isChain_cons]
      refine (and_iff_right fun y hy htool => ?_).symm
      rw [head_not_tool h y hy] at htool
      exact absurd htool (by simp)
    | false => rw [List.filter_cons_of_neg (by simp [ha])]
  | @batch c results ms hc hresults hids h ih =>
    obtain ⟨content, toolCalls, hconvert, hcalls⟩ := convertMessage_calls dumps hc
    have hne : toolCalls ≠ [] := fun hnil => hc (by rw [← hcalls, hnil]; rfl)
    obtain ⟨hpre, hiff⟩ := leading_results (leading_of_answered dumps h) hresults
    rw [convertMessages, List.flatMap_cons, List.flatMap_append, hconvert, ← convertMessages,
      ← convertMessages]
    change (toolCalls ≠ [] → _) ∧ Paired (convertMessages dumps results ++ _) ↔ _
    rw [paired_append (convertMessages_idle hresults), ih, hcalls, List.filter_cons_of_pos rfl,
      List.filter_append, List.isChain_cons, List.isChain_append, ← hiff]
    have hleading : (toolCalls ≠ [] → (leading (convertMessages dumps results ++
        convertMessages dumps ms)).Perm (c.calls callId)) ↔
        leading (convertMessages dumps results ++ convertMessages dumps ms) =
          results.filterMap Chat.Message.answers :=
      ⟨fun hperm => hpre.eq_of_length ((hperm hne).length_eq.trans hids.length_eq.symm),
        fun heq _ => heq ▸ hids⟩
    refine ((and_congr hleading (and_iff_left fun x _ y hy htool => ?_).symm).trans
      (and_iff_right fun _ _ _ => rfl).symm)
    rw [head_not_tool h y hy] at htool
    exact absurd htool (by simp)

namespace Sample

/-- A turn with two calls. -/
def twoCalls : Chat.Message :=
  .assistant (.parts [
    { functionCall := some { id := some "call_1", name := some "photo" } },
    { functionCall := some { id := some "call_2", name := some "weather" } }])

def photo : Part := { image := some { mimeType := some "image/png", data := some "aGk=" } }

def photoResult : Chat.Message := .tool (.parts [photo]) (some "photo") (some "call_1")

def weatherResult : Chat.Message := .tool (.text "Rain.") (some "weather") (some "call_2")

def thanks : List Chat.Message := [.user (.text "Thanks.")]

/-- The picture comes last. -/
def photoLast : List Chat.Message := twoCalls :: ([weatherResult, photoResult] ++ thanks)

/-- The picture comes first. -/
def photoFirst : List Chat.Message := twoCalls :: ([photoResult, weatherResult] ++ thanks)

theorem photoLast_answered : Answered callId List.Perm photoLast :=
  .batch (by decide) (by decide) (by decide) (.other rfl rfl .nil)

theorem photoFirst_answered : Answered callId List.Perm photoFirst :=
  .batch (by decide) (by decide) (by decide) (.other rfl rfl .nil)

end Sample

/-- A picture after the other result of its turn. -/
theorem completions_paired_photo_last :
    Paired (convertMessages (fun _ => "") Sample.photoLast) :=
  (completions_paired_iff (fun _ => "") Sample.photoLast_answered).2 (by decide)

/-- **A picture before the other result of its turn splits the results.** -/
theorem completions_photo_splits : ¬ ∀ (dumps : Value → String) (messages : List Chat.Message),
    Answered callId List.Perm messages → Paired (convertMessages dumps messages) := by
  intro h
  have hpaired := h (fun _ => "") _ Sample.photoFirst_answered
  have hperm : ["call_1"].Perm ["call_1", "call_2"] := hpaired.1 (by simp [callEntry])
  exact absurd hperm (by decide)

end Backplane.Chat.Completions
