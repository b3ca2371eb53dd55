import Mathlib.Algebra.GroupWithZero.Nat
import Mathlib.Data.List.Basic
import Mathlib.Order.Lattice
import Mathlib.Algebra.Order.BigOperators.Group.List
import Mathlib.Algebra.Order.Group.Nat

/-!
# Messages and responses, the same for every provider

What agents exchange with the providers' adapters: messages made of parts, responses, and the deltas
of a streamed response.  Each adapter translates a complete response on one path and a stream of
events on another; `StreamAccumulator` folds what the second yields.

* `Value`, `Part` : what messages are made of.
* `LlmResponse`, `LlmDelta` : what comes back, whole or streamed.
* `StreamAccumulator`, `fold` : the deltas folded to a response.
* `fold_text`, … : each field of the fold, read off the deltas.
* `TokenUsage.Cumulative` : usage that is reported along the way; the largest report is final.
-/

namespace Backplane.Chat

/-! ### Values and parts -/

/-- A JSON value. -/
inductive Value
  | null
  /-- `true`, `false` -/
  | bool (b : Bool)
  | num (literal : String)
  | str (s : String)
  | arr (xs : List Value)
  | obj (fields : List (String × Value))

/-- The fields of a dictionary. -/
abbrev Dict := List (String × Value)

/-- The standard library's translation of values to text and back; `none`: the text is malformed. -/
structure JsonCodec where
  loads : String → Option Value
  dumps : Value → String

/-- The payload of an image or a document. -/
structure Blob where
  mimeType : Option String := none
  data : Option String := none
  displayName : Option String := none
  deriving DecidableEq

/-- The payload of a function call. -/
structure FunctionCall where
  id : Option String := none
  name : Option String := none
  args : Option Value := none
  input : Option Value := none

/-- A content part: a dictionary.  The keys that adapters look at are fields; `none`: the key is
absent. -/
structure Part where
  type : Option String := none
  text : Option String := none
  image : Option Blob := none
  document : Option Blob := none
  functionCall : Option FunctionCall := none
  thoughtSignature : Option String := none
  cacheControl : Option Value := none
  id : Option String := none
  name : Option String := none
  input : Option Value := none
  arguments : Option Value := none
  inlineData : Option Blob := none
  /-- The other keys. -/
  rest : Dict := []

/-! ### Responses -/

/-- `finish_reason` -/
inductive FinishReason
  | stop
  | length
  | toolCalls
  | contentFilter
  | error
  deriving DecidableEq

/-- `TokenUsage` -/
structure TokenUsage where
  inputTokens : ℕ := 0
  outputTokens : ℕ := 0
  thoughtsTokens : ℕ := 0
  cacheReadTokens : ℕ := 0
  cacheWriteTokens : ℕ := 0
  costMicrousd : ℕ := 0
  deriving DecidableEq

/-- The larger of each figure. -/
def TokenUsage.max (u v : TokenUsage) : TokenUsage where
  inputTokens := Max.max u.inputTokens v.inputTokens
  outputTokens := Max.max u.outputTokens v.outputTokens
  thoughtsTokens := Max.max u.thoughtsTokens v.thoughtsTokens
  cacheReadTokens := Max.max u.cacheReadTokens v.cacheReadTokens
  cacheWriteTokens := Max.max u.cacheWriteTokens v.cacheWriteTokens
  costMicrousd := Max.max u.costMicrousd v.costMicrousd

theorem TokenUsage.zero_max (u : TokenUsage) : TokenUsage.max {} u = u := by
  simp [TokenUsage.max]

/-- `ToolCall` -/
structure ToolCall where
  id : String
  name : String
  args : Value
  thoughtSignature : Option String := none

/-- `LlmResponse` -/
@[ext]
structure LlmResponse where
  text : String
  toolCalls : List ToolCall := []
  finishReason : FinishReason := .stop
  usage : TokenUsage := {}
  thoughtSummary : Option String := none
  thoughtSignature : Option String := none
  reasoningBlocks : List Part := []

/-- `LlmDelta` -/
structure LlmDelta where
  text : Option String := none
  toolCall : Option ToolCall := none
  finishReason : Option FinishReason := none
  usage : Option TokenUsage := none
  thought : Bool := false
  thoughtSignature : Option String := none
  reasoningBlock : Option Part := none
  /-- `meta` -/
  hint : Option Dict := none

/-! ### Folding a stream -/

/-- `StreamAccumulator` -/
structure StreamAccumulator where
  textParts : List String := []
  thoughtParts : List String := []
  toolCalls : List ToolCall := []
  reasoningBlocks : List Part := []
  finishReason : Option FinishReason := none
  thoughtSignature : Option String := none
  usage : TokenUsage := {}

namespace StreamAccumulator

/-- `add` -/
def add (acc : StreamAccumulator) (d : LlmDelta) : StreamAccumulator :=
  if d.hint.isSome then acc
  else {
    textParts := if d.thought then acc.textParts else acc.textParts ++ d.text.toList
    thoughtParts := if d.thought then acc.thoughtParts ++ d.text.toList else acc.thoughtParts
    toolCalls := acc.toolCalls ++ d.toolCall.toList
    reasoningBlocks := acc.reasoningBlocks ++ d.reasoningBlock.toList
    finishReason := d.finishReason.or acc.finishReason
    thoughtSignature := d.thoughtSignature.or acc.thoughtSignature
    usage := d.usage.elim acc.usage acc.usage.max }

/-- `build` -/
def build (acc : StreamAccumulator) : LlmResponse where
  text := String.join acc.textParts
  toolCalls := acc.toolCalls
  finishReason := acc.finishReason.getD .stop
  usage := acc.usage
  thoughtSummary := if acc.thoughtParts.isEmpty then none else some (String.join acc.thoughtParts)
  thoughtSignature := acc.thoughtSignature
  reasoningBlocks := acc.reasoningBlocks

end StreamAccumulator

/-- A stream of deltas folded to a response. -/
def fold (ds : List LlmDelta) : LlmResponse := (ds.foldl StreamAccumulator.add {}).build

namespace LlmDelta

/-- What the delta adds to the text. -/
def content (d : LlmDelta) : Option String := if d.hint.isSome || d.thought then none else d.text

/-- What the delta adds to the thoughts. -/
def musing (d : LlmDelta) : Option String := if d.hint.isNone && d.thought then d.text else none

/-- The tool call it brings. -/
def call (d : LlmDelta) : Option ToolCall := if d.hint.isSome then none else d.toolCall

/-- The reasoning block it brings. -/
def block (d : LlmDelta) : Option Part := if d.hint.isSome then none else d.reasoningBlock

/-- The finish reason it brings. -/
def finish (d : LlmDelta) : Option FinishReason := if d.hint.isSome then none else d.finishReason

/-- The signature it brings. -/
def signature (d : LlmDelta) : Option String := if d.hint.isSome then none else d.thoughtSignature

/-- The usage it brings. -/
def used (d : LlmDelta) : Option TokenUsage := if d.hint.isSome then none else d.usage

end LlmDelta

section Fold

variable {ds : List LlmDelta} {acc : StreamAccumulator}

theorem textParts_foldl : (ds.foldl StreamAccumulator.add acc).textParts =
    acc.textParts ++ ds.filterMap LlmDelta.content := by
  induction ds generalizing acc with
  | nil => simp
  | cons d ds ih =>
    rw [List.foldl_cons, ih, StreamAccumulator.add, List.filterMap_cons, LlmDelta.content]
    cases d.hint <;> cases d.thought <;> cases d.text <;> simp

theorem thoughtParts_foldl : (ds.foldl StreamAccumulator.add acc).thoughtParts =
    acc.thoughtParts ++ ds.filterMap LlmDelta.musing := by
  induction ds generalizing acc with
  | nil => simp
  | cons d ds ih =>
    rw [List.foldl_cons, ih, StreamAccumulator.add, List.filterMap_cons, LlmDelta.musing]
    cases d.hint <;> cases d.thought <;> cases d.text <;> simp

theorem toolCalls_foldl : (ds.foldl StreamAccumulator.add acc).toolCalls =
    acc.toolCalls ++ ds.filterMap LlmDelta.call := by
  induction ds generalizing acc with
  | nil => simp
  | cons d ds ih =>
    rw [List.foldl_cons, ih, StreamAccumulator.add, List.filterMap_cons, LlmDelta.call]
    cases d.hint <;> cases d.toolCall <;> simp

theorem reasoningBlocks_foldl : (ds.foldl StreamAccumulator.add acc).reasoningBlocks =
    acc.reasoningBlocks ++ ds.filterMap LlmDelta.block := by
  induction ds generalizing acc with
  | nil => simp
  | cons d ds ih =>
    rw [List.foldl_cons, ih, StreamAccumulator.add, List.filterMap_cons, LlmDelta.block]
    cases d.hint <;> cases d.reasoningBlock <;> simp

theorem getLast?_or_cons {α : Type} (x : Option α) (xs : List α) (y : Option α) :
    xs.getLast?.or (x.or y) = (x.toList ++ xs).getLast?.or y := by
  cases x with
  | none => rfl
  | some x =>
    rw [Option.toList_some, List.singleton_append, List.getLast?_cons]
    cases xs.getLast? <;> rfl

theorem finishReason_foldl : (ds.foldl StreamAccumulator.add acc).finishReason =
    (ds.filterMap LlmDelta.finish).getLast?.or acc.finishReason := by
  induction ds generalizing acc with
  | nil => rfl
  | cons d ds ih =>
    rw [List.foldl_cons, ih, StreamAccumulator.add, List.filterMap_cons, LlmDelta.finish]
    cases d.hint with
    | some h => rfl
    | none =>
      simp only [Option.isSome_none, Bool.false_eq_true, if_false, getLast?_or_cons]
      cases d.finishReason <;> rfl

theorem thoughtSignature_foldl : (ds.foldl StreamAccumulator.add acc).thoughtSignature =
    (ds.filterMap LlmDelta.signature).getLast?.or acc.thoughtSignature := by
  induction ds generalizing acc with
  | nil => rfl
  | cons d ds ih =>
    rw [List.foldl_cons, ih, StreamAccumulator.add, List.filterMap_cons, LlmDelta.signature]
    cases d.hint with
    | some h => rfl
    | none =>
      simp only [Option.isSome_none, Bool.false_eq_true, if_false, getLast?_or_cons]
      cases d.thoughtSignature <;> rfl

theorem usage_foldl : (ds.foldl StreamAccumulator.add acc).usage =
    (ds.filterMap LlmDelta.used).foldl TokenUsage.max acc.usage := by
  induction ds generalizing acc with
  | nil => rfl
  | cons d ds ih =>
    rw [List.foldl_cons, ih, StreamAccumulator.add, List.filterMap_cons, LlmDelta.used]
    cases d.hint <;> cases d.usage <;> rfl

theorem fold_text : (fold ds).text = String.join (ds.filterMap LlmDelta.content) := by
  rw [fold, StreamAccumulator.build, textParts_foldl, List.nil_append]

theorem fold_thoughtSummary : (fold ds).thoughtSummary =
    if (ds.filterMap LlmDelta.musing).isEmpty then none
    else some (String.join (ds.filterMap LlmDelta.musing)) := by
  rw [fold, StreamAccumulator.build, thoughtParts_foldl, List.nil_append]

theorem fold_toolCalls : (fold ds).toolCalls = ds.filterMap LlmDelta.call := by
  rw [fold, StreamAccumulator.build, toolCalls_foldl, List.nil_append]

theorem fold_reasoningBlocks : (fold ds).reasoningBlocks = ds.filterMap LlmDelta.block := by
  rw [fold, StreamAccumulator.build, reasoningBlocks_foldl, List.nil_append]

theorem fold_finishReason : (fold ds).finishReason =
    (ds.filterMap LlmDelta.finish).getLast?.getD .stop := by
  rw [fold, StreamAccumulator.build, finishReason_foldl, Option.or_none]

theorem fold_thoughtSignature : (fold ds).thoughtSignature =
    (ds.filterMap LlmDelta.signature).getLast? := by
  rw [fold, StreamAccumulator.build, thoughtSignature_foldl, Option.or_none]

theorem fold_usage : (fold ds).usage = (ds.filterMap LlmDelta.used).foldl TokenUsage.max {} := by
  rw [fold, StreamAccumulator.build, usage_foldl]

end Fold

/-! ### Joined strings -/

/-- `"".join(parts) or None` -/
def joinOrNone (parts : List String) : Option String :=
  if String.join parts = "" then none else some (String.join parts)

theorem join_filter_ne (xs : List String) :
    String.join (xs.filter (· ≠ "")) = String.join xs := by
  induction xs with
  | nil => rfl
  | cons x xs ih =>
    by_cases hx : x = ""
    · rw [List.filter_cons_of_neg (by simp [hx]), ih, String.join_cons, hx, String.empty_append]
    · rw [List.filter_cons_of_pos (by simp [hx]), String.join_cons, String.join_cons, ih]

theorem join_eq_empty {xs : List String} : String.join xs = "" ↔ ∀ x ∈ xs, x = "" := by
  induction xs with
  | nil => simp
  | cons x xs ih => rw [String.join_cons, String.append_eq_empty_iff, ih, List.forall_mem_cons]

theorem join_flatMap_congr {α : Type} {l : List α} {f g : α → List String}
    (h : ∀ x ∈ l, String.join (f x) = String.join (g x)) :
    String.join (l.flatMap f) = String.join (l.flatMap g) := by
  induction l with
  | nil => rfl
  | cons x l ih =>
    rw [List.flatMap_cons, List.flatMap_cons, String.join_append, String.join_append,
      h x List.mem_cons_self, ih fun y hy => h y (List.mem_cons_of_mem _ hy)]

theorem joinOrNone_eq_iff {xs ys : List String} :
    joinOrNone xs = joinOrNone ys ↔ String.join xs = String.join ys := by
  rw [joinOrNone, joinOrNone]
  split_ifs with hx hy hy
  · exact ⟨fun _ => hx.trans hy.symm, fun _ => rfl⟩
  · exact ⟨fun h => absurd h (by simp), fun h => absurd (h.symm.trans hx) hy⟩
  · exact ⟨fun h => absurd h (by simp), fun h => absurd (h.trans hy) hx⟩
  · exact ⟨Option.some.inj, congrArg some⟩

theorem length_join (xs : List String) :
    (String.join xs).length = (xs.map String.length).sum := by
  induction xs with
  | nil => rfl
  | cons x xs ih => rw [String.join_cons, String.length_append, ih, List.map_cons, List.sum_cons]

/-- What some say is what all say, if the others say nothing, and only then. -/
theorem join_filter_eq_iff {α : Type} {l : List α} {p : α → Bool} {f : α → String} :
    String.join ((l.filter p).map f) = String.join (l.map f) ↔ ∀ x ∈ l, p x = false → f x = "" := by
  induction l with
  | nil => simp
  | cons x l ih =>
    rw [List.forall_mem_cons, ← ih, List.map_cons, String.join_cons]
    cases hp : p x with
    | true => simp [hp, String.join_cons]
    | false =>
      rw [List.filter_cons_of_neg (by simp [hp])]
      constructor
      · intro h
        -- What is left out can have no length.
        have hlen := congrArg String.length h
        have hle : (((l.filter p).map f).map String.length).sum ≤ ((l.map f).map String.length).sum :=
          List.Sublist.sum_le_sum (((List.filter_sublist).map f).map _) fun _ _ => Nat.zero_le _
        rw [String.length_append, length_join, length_join] at hlen
        have hx : f x = "" := String.length_eq_zero_iff.1 (by omega)
        rw [hx, String.empty_append] at h
        exact ⟨fun _ => hx, h⟩
      · rintro ⟨hx, h⟩
        rw [hx rfl, String.empty_append, h]

/-- Where no thought is empty the summary is what they make together. -/
theorem summary_eq {xs : List String} (h : ∀ x ∈ xs, x ≠ "") :
    (if xs.isEmpty then none else some (String.join xs)) = joinOrNone xs := by
  cases xs with
  | nil => rfl
  | cons x xs =>
    have hne : String.join (x :: xs) ≠ "" := fun he =>
      h x List.mem_cons_self (join_eq_empty.1 he x List.mem_cons_self)
    rw [joinOrNone, if_neg hne]
    rfl

/-! ### Figures that are reported along the way -/

/-- A figure is reported along the way: what is reported (zero: nothing) never decreases, and the
last report is final. -/
structure Cumulative (reports : List ℕ) (final : ℕ) : Prop where
  /-- It never decreases. -/
  ascending : (reports.filter (· ≠ 0)).Pairwise (· ≤ ·)
  /-- The last report is final. -/
  last : (reports.filter (· ≠ 0)).getLast?.getD 0 = final

theorem foldl_max_eq_of_ascending {xs : List ℕ} (h : xs.Pairwise (· ≤ ·)) (m : ℕ)
    (hm : ∀ x ∈ xs, m ≤ x) : xs.foldl max m = xs.getLast?.getD m := by
  induction xs generalizing m with
  | nil => rfl
  | cons x xs ih =>
    obtain ⟨hx, hxs⟩ := List.pairwise_cons.1 h
    rw [List.foldl_cons, max_eq_right (hm x List.mem_cons_self), ih hxs x hx, List.getLast?_cons,
      Option.getD_some]

theorem foldl_max_filter (xs : List ℕ) (m : ℕ) :
    (xs.filter (· ≠ 0)).foldl max m = xs.foldl max m := by
  induction xs generalizing m with
  | nil => rfl
  | cons x xs ih =>
    by_cases hx : x = 0
    · rw [List.filter_cons_of_neg (by simp [hx]), ih, List.foldl_cons, hx, Nat.max_zero]
    · rw [List.filter_cons_of_pos (by simp [hx]), List.foldl_cons, List.foldl_cons, ih]

/-- The largest report is the final one. -/
theorem Cumulative.foldl_max {reports : List ℕ} {final : ℕ} (h : Cumulative reports final) :
    reports.foldl max 0 = final := by
  rw [← foldl_max_filter, foldl_max_eq_of_ascending h.ascending 0 fun _ _ => Nat.zero_le _, h.last]

/-- A fold of usages is the fold of a figure. -/
theorem foldl_max_figure (f : TokenUsage → ℕ) (hf : ∀ u v, f (u.max v) = max (f u) (f v))
    (us : List TokenUsage) (u : TokenUsage) :
    f (us.foldl TokenUsage.max u) = (us.map f).foldl max (f u) := by
  induction us generalizing u with
  | nil => rfl
  | cons v us ih => rw [List.foldl_cons, ih, hf, List.map_cons, List.foldl_cons]

/-- Usages are reported along the way. -/
structure TokenUsage.Cumulative (reports : List TokenUsage) (final : TokenUsage) : Prop where
  input : Chat.Cumulative (reports.map TokenUsage.inputTokens) final.inputTokens
  output : Chat.Cumulative (reports.map TokenUsage.outputTokens) final.outputTokens
  thoughts : Chat.Cumulative (reports.map TokenUsage.thoughtsTokens) final.thoughtsTokens
  cacheRead : Chat.Cumulative (reports.map TokenUsage.cacheReadTokens) final.cacheReadTokens
  cacheWrite : Chat.Cumulative (reports.map TokenUsage.cacheWriteTokens) final.cacheWriteTokens
  cost : Chat.Cumulative (reports.map TokenUsage.costMicrousd) final.costMicrousd

/-- **The largest figures reported are the final ones.** -/
theorem TokenUsage.Cumulative.foldl_max {reports : List TokenUsage} {final : TokenUsage}
    (h : TokenUsage.Cumulative reports final) : reports.foldl TokenUsage.max {} = final := by
  have hinput := foldl_max_figure TokenUsage.inputTokens (fun _ _ => rfl) reports {}
  have houtput := foldl_max_figure TokenUsage.outputTokens (fun _ _ => rfl) reports {}
  have hthoughts := foldl_max_figure TokenUsage.thoughtsTokens (fun _ _ => rfl) reports {}
  have hread := foldl_max_figure TokenUsage.cacheReadTokens (fun _ _ => rfl) reports {}
  have hwrite := foldl_max_figure TokenUsage.cacheWriteTokens (fun _ _ => rfl) reports {}
  have hcost := foldl_max_figure TokenUsage.costMicrousd (fun _ _ => rfl) reports {}
  cases hu : reports.foldl TokenUsage.max {}
  rw [hu] at hinput houtput hthoughts hread hwrite hcost
  cases final
  congr
  · exact hinput.trans h.input.foldl_max
  · exact houtput.trans h.output.foldl_max
  · exact hthoughts.trans h.thoughts.foldl_max
  · exact hread.trans h.cacheRead.foldl_max
  · exact hwrite.trans h.cacheWrite.foldl_max
  · exact hcost.trans h.cost.foldl_max

end Backplane.Chat
