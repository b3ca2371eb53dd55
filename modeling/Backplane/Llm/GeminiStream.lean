import Backplane.Llm.Neutral
import Mathlib.Data.List.Infix

/-!
# Gemini responses, whole and streamed

A response has candidates, each with parts; a stream is a list of responses that carry the parts in
pieces.  A part may carry a signature, whatever it is.

* `Response`, `convertResponse` : a whole response.
* `generateStream` : the deltas that the adapter makes of the chunks of a stream.
* `Pieces`, `Cut` : the ways to cut a response into chunks.
* `Response.Plain` : the last signature does not sit where the two translations differ.
* `stream_agrees_iff` : the translations agree on the responses that are plain, and on no others.
-/

namespace Backplane.Chat.Gemini

/-! ### A whole response -/

/-- A signature, as the library hands it out; it is never empty. -/
inductive RawSignature
  | bytes (b : UInt8) (bs : List UInt8)
  | text (s : String) (h : s ≠ "")

/-- A digit of base64. -/
def base64Digit (n : ℕ) : Char :=
  "ABCDEFGHIJKLMNOPQRSTUVWXYZabcdefghijklmnopqrstuvwxyz0123456789+/".toList.getD n '='

/-- `base64.b64encode` -/
def base64 : List ℕ → List Char
  | [] => []
  | [a] => [base64Digit (a / 4), base64Digit (a % 4 * 16), '=', '=']
  | [a, b] => [base64Digit (a / 4), base64Digit (a % 4 * 16 + b / 16), base64Digit (b % 16 * 4), '=']
  | a :: b :: c :: rest =>
    base64Digit (a / 4) :: base64Digit (a % 4 * 16 + b / 16) :: base64Digit (b % 16 * 4 + c / 64) ::
      base64Digit (c % 64) :: base64 rest

/-- `_encode_signature` -/
def RawSignature.encode : RawSignature → String
  | bytes b bs => String.ofList (base64 ((b :: bs).map UInt8.toNat))
  | text s _ => s

/-- What a part holds. -/
inductive PartData
  | text (text : String)
  | functionCall (id : Option String) (name : String) (args : Option Dict)
  | other

/-- A part of a candidate. -/
structure ReplyPart where
  data : PartData
  thought : Bool := false
  thoughtSignature : Option RawSignature := none

/-- A candidate. -/
structure Candidate where
  parts : List ReplyPart
  finishReason : Option String := none

/-- `usage_metadata`; a figure may be missing. -/
structure UsageMetadata where
  promptTokenCount : Option ℕ := none
  candidatesTokenCount : Option ℕ := none
  thoughtsTokenCount : Option ℕ := none
  cachedContentTokenCount : Option ℕ := none

/-- A response, or a chunk of one. -/
structure Response where
  candidates : List Candidate
  usage : Option UsageMetadata := none

/-- The parts, candidate by candidate. -/
def Response.parts (r : Response) : List ReplyPart := r.candidates.flatMap Candidate.parts

/-- `_extract_usage`, where there is a usage -/
def UsageMetadata.tokens (u : UsageMetadata) : TokenUsage where
  inputTokens := u.promptTokenCount.getD 0
  outputTokens := u.candidatesTokenCount.getD 0
  thoughtsTokens := u.thoughtsTokenCount.getD 0
  cacheReadTokens := u.cachedContentTokenCount.getD 0

/-- `sub in s` -/
def contains (s sub : String) : Bool := decide (sub.toList <:+: s.toList)

/-- The finish reason that a value stands for. -/
def finishOf (raw : String) : FinishReason :=
  let s := raw.toLower
  if contains s "stop" then .stop
  else if contains s "max_tokens" || contains s "length" then .length
  else if contains s "function" || contains s "tool" then .toolCalls
  else if contains s "safety" || contains s "blocked" then .contentFilter
  else .stop

/-- The finish reason of the first candidate. -/
def Response.rawFinish (r : Response) : Option String :=
  r.candidates.head?.bind Candidate.finishReason

/-- `_extract_finish` -/
def Response.extractFinish (r : Response) : Option FinishReason := r.rawFinish.map finishOf

namespace ReplyPart

/-- The signature of the part, encoded. -/
def sig (p : ReplyPart) : Option String := p.thoughtSignature.map RawSignature.encode

/-- The tool call of the part. -/
def call (p : ReplyPart) : Option ToolCall :=
  match p.data with
  | .functionCall id name args =>
    some { id := id.getD "", name := name, args := .obj (args.getD []), thoughtSignature := p.sig }
  | _ => none

/-- The text of the part. -/
def text (p : ReplyPart) : Option String :=
  match p.data with
  | .text t => some t
  | _ => none

/-- What the part adds to the text. -/
def said (p : ReplyPart) : List String :=
  if p.thought then [] else p.text.toList.filter (· ≠ "")

/-- What the part adds to the thoughts. -/
def mused (p : ReplyPart) : List String :=
  if p.thought then p.text.toList.filter (· ≠ "") else []

/-- The signature of a part that is no thought. -/
def spokenSig (p : ReplyPart) : Option String := if p.thought then none else p.sig

/-- The signature of a part that is no call. -/
def textSig (p : ReplyPart) : Option String := if p.call.isSome then none else p.sig

end ReplyPart

/-- `_convert_response` -/
def convertResponse (r : Response) : LlmResponse where
  text := String.join (r.parts.flatMap ReplyPart.said)
  toolCalls := r.parts.filterMap ReplyPart.call
  finishReason := r.extractFinish.getD .stop
  usage := r.usage.elim {} UsageMetadata.tokens
  thoughtSummary := joinOrNone (r.parts.flatMap ReplyPart.mused)
  thoughtSignature := (r.parts.filterMap ReplyPart.spokenSig).getLast?

/-! ### A stream of chunks -/

/-- The delta of a part. -/
def ReplyPart.delta (p : ReplyPart) : LlmDelta where
  text := p.text
  toolCall := p.call
  thought := p.thought
  thoughtSignature := p.textSig

/-- What a part is answered with. -/
def ReplyPart.emit (p : ReplyPart) : List LlmDelta :=
  if p.text.any (· ≠ "") || p.call.isSome || p.textSig.isSome then [p.delta] else []

/-- What the metadata of a chunk are answered with. -/
def Response.tail (chunk : Response) : List LlmDelta :=
  if chunk.usage.isSome || chunk.extractFinish.isSome then
    [{ usage := chunk.usage.map UsageMetadata.tokens, finishReason := chunk.extractFinish }]
  else []

/-- What a chunk is answered with. -/
def Response.emit (chunk : Response) : List LlmDelta :=
  chunk.parts.flatMap ReplyPart.emit ++ chunk.tail

/-- `_generate_stream` -/
def generateStream (chunks : List Response) : List LlmDelta := chunks.flatMap Response.emit

/-! ### The ways to cut a response -/

/-- The pieces make the part: texts of the same kind that say what it says, one of which carries its
signature; or the part itself. -/
inductive PieceOf : ReplyPart → List ReplyPart → Prop
  | whole (p : ReplyPart) : PieceOf p [p]
  | text {p : ReplyPart} {t : String} {qs : List ReplyPart} (ht : p.data = .text t)
      (hq : ∀ q ∈ qs, q.thought = p.thought ∧ q.text.isSome)
      (hjoin : String.join (qs.filterMap ReplyPart.text) = t)
      (hsig : qs.filterMap ReplyPart.thoughtSignature = p.thoughtSignature.toList) : PieceOf p qs

/-- The pieces make the parts, one after the other. -/
inductive Pieces : List ReplyPart → List ReplyPart → Prop
  | nil : Pieces [] []
  | cons {p : ReplyPart} {ps qs rest : List ReplyPart} (hp : PieceOf p qs) (h : Pieces ps rest) :
      Pieces (p :: ps) (qs ++ rest)

/-- The chunks are the response, cut into pieces: its parts in order, the last finish reason its
own, usage counted along the way. -/
structure Cut (r : Response) (chunks : List Response) : Prop where
  parts : Pieces r.parts (chunks.flatMap Response.parts)
  /-- The last finish reason is the response's. -/
  finish : (chunks.filterMap Response.rawFinish).getLast? = r.rawFinish
  /-- Usage is counted along the way. -/
  usage : TokenUsage.Cumulative ((chunks.filterMap Response.usage).map UsageMetadata.tokens)
    (r.usage.elim {} UsageMetadata.tokens)

/-! ### Where the translations agree -/

/-- The last signature on a part that is no call is the last on a part that is no thought; and a
thought that is empty carries none, unless another is not empty. -/
structure Response.Plain (r : Response) : Prop where
  signature : (r.parts.filterMap ReplyPart.textSig).getLast? =
    (r.parts.filterMap ReplyPart.spokenSig).getLast?
  thoughts : (∃ p ∈ r.parts, p.mused ≠ []) ∨
    ∀ p ∈ r.parts, p.thought = true → p.text = some "" → p.thoughtSignature = none

/-! ### What the pieces say together -/

variable {p : ReplyPart} {ps qs : List ReplyPart}

theorem ReplyPart.text_of_data {t : String} (h : p.data = .text t) : p.text = some t := by
  simp [ReplyPart.text, h]

theorem ReplyPart.call_eq_none (h : p.text.isSome) : p.call = none := by
  obtain ⟨data, thought, sig⟩ := p
  cases data with
  | text t => rfl
  | _ => exact absurd h (by simp [ReplyPart.text])

theorem ReplyPart.textSig_eq (h : p.text.isSome) : p.textSig = p.sig := by
  rw [ReplyPart.textSig, ReplyPart.call_eq_none h]
  rfl

theorem filterMap_sig (ps : List ReplyPart) :
    ps.filterMap ReplyPart.sig = (ps.filterMap ReplyPart.thoughtSignature).map RawSignature.encode := by
  rw [List.map_filterMap]
  rfl

theorem join_texts {f : ReplyPart → List String}
    (h : ∀ q ∈ qs, f q = q.text.toList.filter (· ≠ "")) :
    String.join (qs.flatMap f) = String.join (qs.filterMap ReplyPart.text) := by
  induction qs with
  | nil => rfl
  | cons q qs ih =>
    rw [List.flatMap_cons, String.join_append, ih fun q hq => h q (List.mem_cons_of_mem _ hq),
      h q List.mem_cons_self, join_filter_ne]
    cases hq : q.text with
    | none => rw [List.filterMap_cons_none hq]; rfl
    | some t => rw [List.filterMap_cons_some hq, String.join_cons]; simp

/-- The texts of a kind, of a part and of its pieces. -/
theorem PieceOf.join_eq (h : PieceOf p qs) {f : ReplyPart → List String} (b : Bool)
    (hf : ∀ q, f q = if q.thought = b then q.text.toList.filter (· ≠ "") else []) :
    String.join (qs.flatMap f) = String.join (f p) := by
  cases h with
  | whole => rw [List.flatMap_singleton]
  | text ht hq hjoin _ =>
    by_cases hb : p.thought = b
    · rw [join_texts fun q hmem => by rw [hf, (hq q hmem).1, if_pos hb], hjoin, hf, if_pos hb,
        ReplyPart.text_of_data ht, join_filter_ne]
      simp
    · rw [hf, if_neg hb, List.flatMap_eq_nil_iff.2 fun q hmem => by rw [hf, (hq q hmem).1, if_neg hb]]

theorem PieceOf.call_eq (h : PieceOf p qs) : qs.filterMap ReplyPart.call = p.call.toList := by
  cases h with
  | whole => cases hc : p.call <;> simp [hc]
  | text ht hq _ _ =>
    rw [ReplyPart.call_eq_none (by rw [ReplyPart.text_of_data ht]; rfl)]
    exact List.filterMap_eq_nil_iff.2 fun q hmem => ReplyPart.call_eq_none (hq q hmem).2

theorem PieceOf.textSig_eq (h : PieceOf p qs) :
    qs.filterMap ReplyPart.textSig = p.textSig.toList := by
  cases h with
  | whole => cases hc : p.textSig <;> simp [hc]
  | text ht hq _ hsig =>
    have hqs : qs.filterMap ReplyPart.textSig = qs.filterMap ReplyPart.sig :=
      List.filterMap_congr fun q hmem => ReplyPart.textSig_eq (hq q hmem).2
    rw [hqs, filterMap_sig, hsig,
      ReplyPart.textSig_eq (by rw [ReplyPart.text_of_data ht]; rfl), ReplyPart.sig]
    cases p.thoughtSignature <;> rfl

/-- An empty thought of the pieces carries a signature if the part is such a thought. -/
theorem PieceOf.silent_iff (h : PieceOf p qs) (hm : p.mused = []) :
    (∀ q ∈ qs, q.thought = true → q.text.isSome → q.thoughtSignature = none) ↔
      (p.thought = true → p.text = some "" → p.thoughtSignature = none) := by
  have hempty : p.thought = true → p.text.isSome → p.text = some "" := by
    intro hp hs
    obtain ⟨t, ht⟩ := Option.isSome_iff_exists.1 hs
    rw [ReplyPart.mused, hp, ht] at hm
    by_cases h0 : t = ""
    · rw [ht, h0]
    · exact absurd hm (by simp [h0])
  cases h with
  | whole =>
    rw [List.forall_mem_singleton]
    exact ⟨fun h hp ht => h hp (by rw [ht]; rfl), fun h hp hs => h hp (hempty hp hs)⟩
  | text ht hq _ hsig =>
    constructor
    · intro h hp _
      have hnil : qs.filterMap ReplyPart.thoughtSignature = [] :=
        List.filterMap_eq_nil_iff.2 fun q hmem => h q hmem ((hq q hmem).1.trans hp) (hq q hmem).2
      rw [hsig] at hnil
      exact Option.toList_eq_nil_iff.1 hnil
    · intro h q hmem hthought _
      have hp := (hq q hmem).1.symm.trans hthought
      have hnone := h hp (hempty hp (by rw [ReplyPart.text_of_data ht]; rfl))
      rw [hnone] at hsig
      exact List.filterMap_eq_nil_iff.1 hsig q hmem

theorem Pieces.join_eq (h : Pieces ps qs) {f : ReplyPart → List String} (b : Bool)
    (hf : ∀ q, f q = if q.thought = b then q.text.toList.filter (· ≠ "") else []) :
    String.join (qs.flatMap f) = String.join (ps.flatMap f) := by
  induction h with
  | nil => rfl
  | cons hp _ ih =>
    rw [List.flatMap_append, String.join_append, hp.join_eq b hf, ih, List.flatMap_cons,
      String.join_append]

theorem Pieces.call_eq (h : Pieces ps qs) :
    qs.filterMap ReplyPart.call = ps.filterMap ReplyPart.call := by
  induction h with
  | nil => rfl
  | @cons p _ _ _ hp _ ih =>
    rw [List.filterMap_append, hp.call_eq, ih, List.filterMap_cons]
    cases p.call <;> rfl

theorem Pieces.textSig_eq (h : Pieces ps qs) :
    qs.filterMap ReplyPart.textSig = ps.filterMap ReplyPart.textSig := by
  induction h with
  | nil => rfl
  | @cons p _ _ _ hp _ ih =>
    rw [List.filterMap_append, hp.textSig_eq, ih, List.filterMap_cons]
    cases p.textSig <;> rfl

theorem Pieces.silent_iff (h : Pieces ps qs) (hm : ∀ p ∈ ps, p.mused = []) :
    (∀ q ∈ qs, q.thought = true → q.text.isSome → q.thoughtSignature = none) ↔
      ∀ p ∈ ps, p.thought = true → p.text = some "" → p.thoughtSignature = none := by
  induction h with
  | nil => simp
  | cons hp _ ih =>
    rw [List.forall_mem_append, List.forall_mem_cons, hp.silent_iff (hm _ List.mem_cons_self),
      ih fun q hq => hm q (List.mem_cons_of_mem _ hq)]

/-! ### What the deltas say together -/

namespace ReplyPart

/-- A part that is not answered says nothing. -/
theorem emit_cases (p : ReplyPart) :
    p.emit = [p.delta] ∨
    p.emit = [] ∧ (p.text = none ∨ p.text = some "") ∧ p.call = none ∧ p.textSig = none := by
  rw [emit]
  split_ifs with h
  · exact .inl rfl
  · refine .inr ⟨rfl, ?_⟩
    simp only [Bool.or_eq_true, not_or, Bool.not_eq_true, Option.isSome_eq_false_iff,
      Option.isNone_iff_eq_none] at h
    obtain ⟨⟨ht, hc⟩, hs⟩ := h
    refine ⟨?_, hc, hs⟩
    cases htext : p.text with
    | none => exact .inl rfl
    | some t =>
      rw [htext, Option.any_some, decide_eq_false_iff_not, not_not] at ht
      exact .inr (by rw [ht])

theorem content_delta (p : ReplyPart) : p.delta.content = if p.thought then none else p.text := rfl

theorem musing_delta (p : ReplyPart) : p.delta.musing = if p.thought then p.text else none := rfl

theorem emit_content (p : ReplyPart) :
    String.join (p.emit.filterMap LlmDelta.content) = String.join p.said := by
  have hsaid : p.said = if p.thought then [] else p.text.toList.filter (· ≠ "") := rfl
  rcases p.emit_cases with he | ⟨he, ht, -, -⟩
  · rw [he, hsaid]
    cases hb : p.thought <;> cases ht : p.text <;>
      simp only [List.filterMap_cons, List.filterMap_nil, content_delta, hb, ht, if_true, if_false,
        Bool.false_eq_true, Option.toList_some, Option.toList_none, List.filter_nil, join_filter_ne]
  · rw [he, hsaid]
    rcases ht with ht | ht <;> cases p.thought <;> simp [ht]

theorem emit_musing (p : ReplyPart) :
    String.join (p.emit.filterMap LlmDelta.musing) = String.join p.mused := by
  have hmused : p.mused = if p.thought then p.text.toList.filter (· ≠ "") else [] := rfl
  rcases p.emit_cases with he | ⟨he, ht, -, -⟩
  · rw [he, hmused]
    cases hb : p.thought <;> cases ht : p.text <;>
      simp only [List.filterMap_cons, List.filterMap_nil, musing_delta, hb, ht, if_true, if_false,
        Bool.false_eq_true, Option.toList_some, Option.toList_none, List.filter_nil, join_filter_ne]
  · rw [he, hmused]
    rcases ht with ht | ht <;> cases p.thought <;> simp [ht]

theorem emit_call (p : ReplyPart) : p.emit.filterMap LlmDelta.call = p.call.toList := by
  rcases p.emit_cases with he | ⟨he, -, hc, -⟩
  · rw [he]
    cases hc : p.call <;> simp [LlmDelta.call, delta, hc]
  · rw [he, hc]
    rfl

theorem emit_signature (p : ReplyPart) :
    p.emit.filterMap LlmDelta.signature = p.textSig.toList := by
  rcases p.emit_cases with he | ⟨he, -, -, hs⟩
  · rw [he]
    cases hs : p.textSig <;> simp [LlmDelta.signature, delta, hs]
  · rw [he, hs]
    rfl

theorem emit_silent (p : ReplyPart) {α : Type} (f : LlmDelta → Option α)
    (hf : ∀ t c b s, f { text := t, toolCall := c, thought := b, thoughtSignature := s } = none) :
    p.emit.filterMap f = [] := by
  rcases p.emit_cases with he | ⟨he, -⟩
  · rw [he, delta]
    simp [hf]
  · rw [he]
    rfl

/-- A part adds an empty thought if it is one and carries a signature. -/
theorem emit_musing_eq_nil (hm : p.mused = []) : p.emit.filterMap LlmDelta.musing = [] ↔
    (p.thought = true → p.text.isSome → p.thoughtSignature = none) := by
  have hmused : p.mused = if p.thought then p.text.toList.filter (· ≠ "") else [] := rfl
  cases hb : p.thought with
  | false =>
    rcases p.emit_cases with he | ⟨he, -⟩ <;> simp [he, LlmDelta.musing, delta, hb]
  | true =>
    cases ht : p.text with
    | none =>
      rcases p.emit_cases with he | ⟨he, -⟩ <;> simp [he, LlmDelta.musing, delta, hb, ht]
    | some t =>
      rw [hmused, hb, ht] at hm
      have h0 : t = "" := by
        by_contra hne
        exact absurd hm (by simp [hne])
      have hcall : p.call = none := call_eq_none (by rw [ht]; rfl)
      have hsig : p.textSig = p.sig := textSig_eq (by rw [ht]; rfl)
      rw [emit, ht, h0, hcall, hsig, sig]
      cases p.thoughtSignature <;> simp [LlmDelta.musing, delta, hb, ht, hsig, sig]

end ReplyPart

theorem join_emit {f : LlmDelta → Option String} {g : ReplyPart → List String}
    (h : ∀ p : ReplyPart, String.join (p.emit.filterMap f) = String.join (g p))
    (ps : List ReplyPart) :
    String.join ((ps.flatMap ReplyPart.emit).filterMap f) = String.join (ps.flatMap g) := by
  induction ps with
  | nil => rfl
  | cons p ps ih =>
    rw [List.flatMap_cons, List.filterMap_append, String.join_append, h, ih, List.flatMap_cons,
      String.join_append]

theorem filterMap_emit {α : Type} {f : LlmDelta → Option α} {g : ReplyPart → Option α}
    (h : ∀ p : ReplyPart, p.emit.filterMap f = (g p).toList) (ps : List ReplyPart) :
    (ps.flatMap ReplyPart.emit).filterMap f = ps.filterMap g := by
  induction ps with
  | nil => rfl
  | cons p ps ih =>
    rw [List.flatMap_cons, List.filterMap_append, h, ih, List.filterMap_cons]
    cases g p <;> rfl

/-- What parts say is said by the chunks they come in. -/
theorem filterMap_stream {α : Type} {f : LlmDelta → Option α}
    (hf : ∀ u r, f { usage := u, finishReason := r } = none) (chunks : List Response) :
    (generateStream chunks).filterMap f =
      ((chunks.flatMap Response.parts).flatMap ReplyPart.emit).filterMap f := by
  induction chunks with
  | nil => rfl
  | cons c chunks ih =>
    have htail : c.tail.filterMap f = [] := by
      rw [Response.tail]
      split_ifs <;> simp [hf]
    rw [generateStream, List.flatMap_cons, List.filterMap_append, ← generateStream, ih, Response.emit,
      List.filterMap_append, htail, List.append_nil, List.flatMap_cons, List.flatMap_append,
      List.filterMap_append]

/-- What the metadata say. -/
theorem filterMap_tails {α : Type} {f : LlmDelta → Option α} {g : Response → Option α}
    (hf : ∀ t c b s, f { text := t, toolCall := c, thought := b, thoughtSignature := s } = none)
    (hg : ∀ c : Response, c.tail.filterMap f = (g c).toList) (chunks : List Response) :
    (generateStream chunks).filterMap f = chunks.filterMap g := by
  induction chunks with
  | nil => rfl
  | cons c chunks ih =>
    have hparts : (c.parts.flatMap ReplyPart.emit).filterMap f = [] := by
      rw [filterMap_emit (g := fun _ => none) (fun p => p.emit_silent f hf),
        List.filterMap_eq_nil_iff]
      exact fun _ _ => rfl
    rw [generateStream, List.flatMap_cons, List.filterMap_append, ← generateStream, ih, Response.emit,
      List.filterMap_append, hparts, hg, List.nil_append, List.filterMap_cons]
    cases g c <;> rfl

theorem Response.tail_finish (c : Response) :
    c.tail.filterMap LlmDelta.finish = c.extractFinish.toList := by
  rw [tail]
  cases hf : c.extractFinish <;> cases c.usage <;> simp [LlmDelta.finish]

theorem Response.tail_used (c : Response) :
    c.tail.filterMap LlmDelta.used = (c.usage.map UsageMetadata.tokens).toList := by
  rw [tail]
  cases c.extractFinish <;> cases hu : c.usage <;> simp [LlmDelta.used]

/-! ### Every cut of every response -/

variable {r : Response} {chunks : List Response}

theorem join_mused_eq_empty {ps : List ReplyPart} :
    String.join (ps.flatMap ReplyPart.mused) = "" ↔ ∀ p ∈ ps, p.mused = [] := by
  rw [join_eq_empty]
  constructor
  · intro h p hp
    rw [List.eq_nil_iff_forall_not_mem]
    intro x hx
    have hne : x ≠ "" := by
      rw [ReplyPart.mused] at hx
      split_ifs at hx
      · exact of_decide_eq_true (List.mem_filter.1 hx).2
      · exact absurd hx List.not_mem_nil
    exact hne (h x (List.mem_flatMap.2 ⟨p, hp, hx⟩))
  · intro h x hx
    obtain ⟨p, hp, hx⟩ := List.mem_flatMap.1 hx
    rw [h p hp] at hx
    exact absurd hx List.not_mem_nil

theorem thoughtSummary_agrees_iff (h : Cut r chunks) :
    (fold (generateStream chunks)).thoughtSummary = (convertResponse r).thoughtSummary ↔
      (∃ p ∈ r.parts, p.mused ≠ []) ∨
        ∀ p ∈ r.parts, p.thought = true → p.text = some "" → p.thoughtSignature = none := by
  have hl : (generateStream chunks).filterMap LlmDelta.musing =
      ((chunks.flatMap Response.parts).flatMap ReplyPart.emit).filterMap LlmDelta.musing :=
    filterMap_stream (fun _ _ => rfl) chunks
  have hpieces : String.join ((chunks.flatMap Response.parts).flatMap ReplyPart.mused) =
      String.join (r.parts.flatMap ReplyPart.mused) :=
    h.parts.join_eq true fun _ => rfl
  have hjoin := (congrArg String.join hl).trans
    ((join_emit ReplyPart.emit_musing _).trans hpieces)
  rw [fold_thoughtSummary]
  change _ = joinOrNone (r.parts.flatMap ReplyPart.mused) ↔ _
  rw [joinOrNone]
  by_cases hM : ∃ p ∈ r.parts, p.mused ≠ []
  · -- Something was thought: both summaries are what the thoughts make together.
    obtain ⟨p, hp, hne⟩ := hM
    have hfull : String.join (r.parts.flatMap ReplyPart.mused) ≠ "" :=
      fun he => hne (join_mused_eq_empty.1 he p hp)
    refine ⟨fun _ => .inl ⟨p, hp, hne⟩, fun _ => ?_⟩
    have hcons : ((generateStream chunks).filterMap LlmDelta.musing).isEmpty = false := by
      rw [List.isEmpty_eq_false_iff]
      intro hnil
      rw [hnil] at hjoin
      exact hfull hjoin.symm
    rw [hcons, if_neg hfull, hjoin]
    rfl
  · -- Nothing was thought: the summary of the stream is missing if no delta is a thought.
    have hno := hM
    push Not at hM
    have hnone := join_mused_eq_empty.2 hM
    rw [if_pos hnone, ← h.parts.silent_iff hM]
    have hqs := join_mused_eq_empty.1 (hpieces.trans hnone)
    have hall : (generateStream chunks).filterMap LlmDelta.musing = [] ↔
        ∀ q ∈ chunks.flatMap Response.parts,
          q.thought = true → q.text.isSome → q.thoughtSignature = none := by
      rw [hl, List.filterMap_flatMap, List.flatMap_eq_nil_iff]
      exact forall₂_congr fun q hq => ReplyPart.emit_musing_eq_nil (hqs q hq)
    rw [← hall]
    constructor
    · intro he
      by_contra hne
      rw [or_iff_right hno] at hne
      rw [List.isEmpty_eq_false_iff.2 hne] at he
      exact absurd he (by simp)
    · intro he
      rw [(or_iff_right hno).1 he]
      rfl

/-- **Streaming agrees with the whole response exactly where the response is plain.** -/
theorem stream_agrees_iff (h : Cut r chunks) :
    fold (generateStream chunks) = convertResponse r ↔ r.Plain := by
  have hsaid : ∀ q : ReplyPart, q.said =
      if q.thought = false then q.text.toList.filter (· ≠ "") else [] := by
    intro q
    rw [ReplyPart.said]
    cases q.thought <;> rfl
  have htext : (fold (generateStream chunks)).text = (convertResponse r).text := by
    rw [fold_text, filterMap_stream fun _ _ => rfl, join_emit ReplyPart.emit_content]
    exact h.parts.join_eq false hsaid
  have hcalls : (fold (generateStream chunks)).toolCalls = (convertResponse r).toolCalls := by
    rw [fold_toolCalls, filterMap_stream fun _ _ => rfl, filterMap_emit ReplyPart.emit_call]
    exact h.parts.call_eq
  have hfinish : (fold (generateStream chunks)).finishReason = (convertResponse r).finishReason := by
    have hmap : chunks.filterMap Response.extractFinish =
        (chunks.filterMap Response.rawFinish).map finishOf := by
      rw [List.map_filterMap]
      rfl
    rw [fold_finishReason, filterMap_tails (fun _ _ _ _ => rfl) Response.tail_finish, hmap,
      List.getLast?_map, h.finish]
    rfl
  have husage : (fold (generateStream chunks)).usage = (convertResponse r).usage := by
    have hmap : chunks.filterMap (fun c => c.usage.map UsageMetadata.tokens) =
        (chunks.filterMap Response.usage).map UsageMetadata.tokens := by
      rw [List.map_filterMap]
    rw [fold_usage, filterMap_tails (fun _ _ _ _ => rfl) Response.tail_used, hmap,
      h.usage.foldl_max]
    rfl
  have hblocks : (fold (generateStream chunks)).reasoningBlocks =
      (convertResponse r).reasoningBlocks := by
    rw [fold_reasoningBlocks, filterMap_stream fun _ _ => rfl,
      filterMap_emit (g := fun _ => none) fun p => p.emit_silent _ fun _ _ _ _ => rfl,
      List.filterMap_eq_nil_iff.2 fun _ _ => rfl]
    rfl
  have hsig : (fold (generateStream chunks)).thoughtSignature =
      (r.parts.filterMap ReplyPart.textSig).getLast? := by
    rw [fold_thoughtSignature, filterMap_stream fun _ _ => rfl,
      filterMap_emit ReplyPart.emit_signature, h.parts.textSig_eq]
  rw [LlmResponse.ext_iff]
  constructor
  · rintro ⟨-, -, -, -, hsummary, hsignature, -⟩
    exact ⟨hsig.symm.trans hsignature, (thoughtSummary_agrees_iff h).1 hsummary⟩
  · intro hplain
    exact ⟨htext, hcalls, hfinish, husage, (thoughtSummary_agrees_iff h).2 hplain.thoughts,
      hsig.trans hplain.signature, hblocks⟩

namespace Sample

/-- A thought, and an answer that carries a signature. -/
def answer : Response where
  candidates := [{
    parts := [{ data := .text "Look it up.", thought := true },
      { data := .text "It rains.", thoughtSignature := some (.text "sig" (by decide)) }]
    finishReason := some "FinishReason.STOP" }]
  usage := some { promptTokenCount := some 12, candidatesTokenCount := some 30 }

def answerPart (p : ReplyPart) : Response where
  candidates := [{ parts := [p] }]
  usage := some { promptTokenCount := some 12, candidatesTokenCount := some 7 }

def answerEnd : Response where
  candidates := [{ parts := [], finishReason := some "FinishReason.STOP" }]
  usage := some { promptTokenCount := some 12, candidatesTokenCount := some 30 }

/-- The pieces of its text; the signature comes last, with no text. -/
def answerPieces : List ReplyPart :=
  [{ data := .text "It " }, { data := .text "rains." },
    { data := .text "", thoughtSignature := some (.text "sig" (by decide)) }]

/-- The answer in pieces. -/
def answerChunks : List Response :=
  answerPart { data := .text "Look it up.", thought := true } ::
    answerPieces.map answerPart ++ [answerEnd]

theorem answer_cut : Cut answer answerChunks where
  parts := by
    have htext : PieceOf
        { data := .text "It rains.", thoughtSignature := some (.text "sig" (by decide)) }
        answerPieces := by
      refine .text rfl ?_ rfl rfl
      simp [answerPieces, ReplyPart.text]
    have hparts := Pieces.cons (.whole { data := .text "Look it up.", thought := true })
      (.cons htext .nil)
    exact hparts
  finish := rfl
  usage := by constructor <;> constructor <;> decide

def call : Response where
  candidates := [{
    parts := [{
      data := .functionCall (some "call_1") "weather" none
      thoughtSignature := some (.text "sig" (by decide)) }]
    finishReason := some "FinishReason.STOP" }]

theorem call_cut : Cut call [call] where
  parts := .cons (.whole _) .nil
  finish := rfl
  usage := by constructor <;> constructor <;> decide

end Sample

/-- An answer whose signature comes after its text. -/
theorem stream_agrees_answer :
    Sample.answer.Plain ∧
      fold (generateStream Sample.answerChunks) = convertResponse Sample.answer :=
  have hplain : Sample.answer.Plain :=
    ⟨rfl, .inl ⟨_, List.mem_cons_self, List.cons_ne_nil _ _⟩⟩
  ⟨hplain, (stream_agrees_iff Sample.answer_cut).2 hplain⟩

/-- **The signature of a call is lost from the streamed response.** -/
theorem stream_loses_signature :
    ¬ ∀ (r : Response) (chunks : List Response), Cut r chunks →
      fold (generateStream chunks) = convertResponse r := by
  intro h
  have hfold := congrArg LlmResponse.thoughtSignature (h _ _ Sample.call_cut)
  have hnone : (fold (generateStream [Sample.call])).thoughtSignature = none := rfl
  have hsome : (convertResponse Sample.call).thoughtSignature = some "sig" := rfl
  rw [hnone, hsome] at hfold
  exact absurd hfold (by simp)

end Backplane.Chat.Gemini
