import Mathlib.Algebra.Order.BigOperators.Group.List
import Mathlib.Algebra.Order.Group.Nat
import Mathlib.Data.List.Basic
import Mathlib.Logic.Function.Basic

/-!
# String templates

`string.Template`: a template is cut from the left into segments.  A dollar begins an escape, a
name, a name in braces, or nothing; every other character stands for itself.

* `Template.segments` : the segments.
* `Template.safeSubstitute`, `Template.getIdentifiers` : the two functions on them.
* `Template.Replaces` : the value of a name makes a difference; `mem_getIdentifiers_iff` : the names
  that do are the identifiers.
-/

namespace Backplane.Template

/-! ### Segments -/

/-- A match of the pattern, or a character between two matches. -/
inductive Segment
  /-- A character outside the matches. -/
  | text (c : Char)
  | escaped
  | named (id : List Char)
  /-- A dollar and a name in braces. -/
  | braced (id : List Char)
  /-- A dollar before anything else. -/
  | invalid

/-- `[_a-z]`, in either case. -/
def isIdStart (c : Char) : Bool := c.isAlpha || c = '_'

/-- `[_a-z0-9]`, in either case. -/
def isIdChar (c : Char) : Bool := c.isAlphanum || c = '_'

/-- `idpattern` at the head of the list; empty: there is none. -/
def identifier : List Char → List Char
  | [] => []
  | c :: cs => if isIdStart c then c :: cs.takeWhile isIdChar else []

/-- What begins with a dollar before these characters. -/
def dollar : List Char → Segment
  | '$' :: _ => .escaped
  | '\x7b' :: cs =>
    if identifier cs ≠ [] ∧ (cs.drop (identifier cs).length).head? = some '\x7d' then
      .braced (identifier cs)
    else .invalid
  | cs => if identifier cs = [] then .invalid else .named (identifier cs)

/-- The first segment. -/
def segment (c : Char) (cs : List Char) : Segment := if c = '$' then dollar cs else .text c

namespace Segment

/-- The characters of the template. -/
def source : Segment → List Char
  | text c => [c]
  | escaped => ['$', '$']
  | named id => '$' :: id
  | braced id => '$' :: '\x7b' :: id ++ ['\x7d']
  | invalid => ['$']

/-- The name that it stands for. -/
def name : Segment → Option String
  | named id | braced id => some (String.ofList id)
  | _ => none

/-- `convert`, where names have these values. -/
def convert (values : String → Option String) (x : Segment) : List Char :=
  match x with
  | escaped => ['$']
  | x => ((x.name.bind values).map String.toList).getD x.source

end Segment

/-- The segments, after so many characters of the match before. -/
def scan : ℕ → List Char → List Segment
  | _, [] => []
  | skip + 1, _ :: cs => scan skip cs
  | 0, c :: cs => segment c cs :: scan ((segment c cs).source.length - 1) cs

/-- The segments of a template. -/
def segments (template : String) : List Segment := scan 0 template.toList

/-! ### The two functions -/

/-- `safe_substitute` -/
def safeSubstitute (template : String) (values : String → Option String) : String :=
  String.ofList ((segments template).flatMap (Segment.convert values))

/-- `get_identifiers` -/
def getIdentifiers (template : String) : List String :=
  ((segments template).filterMap Segment.name).eraseDups

/-- The value of the name makes a difference. -/
def Replaces (template name : String) : Prop :=
  ∃ values value, safeSubstitute template (Function.update values name (some value)) ≠
    safeSubstitute template values

/-! ### The names that make a difference -/

variable {c : Char} {cs : List Char} {x : Segment} {n template : String}
  {values : String → Option String}

theorem convert_congr {values' : String → Option String}
    (h : ∀ n, x.name = some n → values n = values' n) : x.convert values = x.convert values' := by
  have hbind : x.name.bind values = x.name.bind values' := by
    cases hname : x.name with
    | none => rfl
    | some n => exact h n hname
  cases x <;> simp only [Segment.convert, hbind]

theorem length_source (h : x.name = some n) : x.source.length ≤ n.toList.length + 3 := by
  cases x <;> cases h <;> simp [Segment.source]

theorem convert_of_name {v : String} (h : x.name = some n) (hv : values n = some v) :
    x.convert values = v.toList := by
  cases x <;> cases h <;> simp [Segment.convert, Segment.name, hv]

theorem convert_none (h : x.name = some n) : x.convert (fun _ => none) = x.source := by
  cases x <;> cases h <;> rfl

/-- **The names whose values make a difference are the identifiers.** -/
theorem mem_getIdentifiers_iff : n ∈ getIdentifiers template ↔ Replaces template n := by
  rw [getIdentifiers, List.mem_eraseDups, List.mem_filterMap]
  constructor
  · rintro ⟨x, hx, hname⟩
    -- A value that is longer than what it replaces.
    let value := String.ofList (List.replicate (n.toList.length + 4) 'x')
    refine ⟨fun _ => none, value, fun heq => ?_⟩
    have hlength := congrArg (fun s => s.toList.length) heq
    simp only [safeSubstitute, String.toList_ofList, List.length_flatMap] at hlength
    have hlong : ∀ y : Segment, y.name = some n → (y.convert fun _ => none).length <
        (y.convert (Function.update (fun _ => none) n (some value))).length := by
      intro y hy
      rw [convert_none hy, convert_of_name hy (Function.update_self ..), String.toList_ofList,
        List.length_replicate]
      have := length_source hy
      omega
    refine (List.sum_lt_sum _ _ (fun y _ => ?_) ⟨x, hx, hlong x hname⟩).ne' hlength
    by_cases hy : y.name = some n
    · exact (hlong y hy).le
    · refine (congrArg List.length (convert_congr fun m hm => ?_)).le
      have hne : m ≠ n := fun h => hy (h ▸ hm)
      rw [Function.update_of_ne hne]
  · rintro ⟨values, value, hne⟩
    by_contra hnone
    have hsame : ∀ x ∈ segments template,
        x.convert (Function.update values n (some value)) = x.convert values := by
      intro x hx
      refine convert_congr fun m hm => Function.update_of_ne (fun h => ?_) _ _
      exact hnone ⟨x, hx, h ▸ hm⟩
    exact hne (congrArg String.ofList (List.flatMap_congr hsame))

end Backplane.Template
