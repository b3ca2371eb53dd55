import Backplane.Protocol.Types
import Mathlib.Data.Int.Notation
import Mathlib.Data.Nat.Notation

/-!
# Access control

The firewall-style evaluator that decides whether an agent may call another on behalf of a user:
an ordered rule list, first match wins, default deny, self-call always denied.

* `tierIndex`, `userLevelSatisfies` : the grammar of user levels.
* `patternMatches` : `<group>/<capability>` and `@<agent_id>` patterns.
* `isAllowed` : the evaluator.
-/

namespace Backplane

/-- Split at the first `sep`; without one, everything is on the left. -/
def partition (sep : Char) (s : String) : String × String :=
  (String.ofList (s.toList.takeWhile (· ≠ sep)), String.ofList ((s.toList.dropWhile (· ≠ sep)).drop 1))

/-- The numeric tier of a level: `-1` for `admin` and `service`, `n` for `tierN`, `none` for
anything else. -/
def tierIndex (level : Option String) : Option ℤ :=
  match level with
  | none => none
  | some l =>
    if l = "admin" ∨ l = "service" then some (-1)
    else match l.toList with
      | 't' :: 'i' :: 'e' :: 'r' :: cs =>
        -- `$` also matches before a trailing newline
        let ds := cs.takeWhile Char.isDigit
        if ds ≠ [] ∧ (cs.drop ds.length = [] ∨ cs.drop ds.length = ['\n']) then
          some (ds.foldl (fun n d => 10 * n + (d.toNat - '0'.toNat : ℕ)) 0 : ℕ)
        else none
      | _ => none

/-- Whether `level` passes a tier ceiling. -/
def levelSatisfiesTier (level : Option String) (maxTier : ℤ) : Bool :=
  match tierIndex level with
  | some i => i ≤ maxTier
  | none => false

/-- Whether the caller's level satisfies a rule's `user_level` constraint. -/
def userLevelSatisfies (actual : Option String) (ruleLevel : String) : Bool :=
  if ruleLevel = "*" then true
  else if ruleLevel = "admin" ∨ ruleLevel = "service" then actual = some ruleLevel
  else match tierIndex (some ruleLevel) with
    | none => false
    | some i => levelSatisfiesTier actual i

/-- One firewall line. -/
structure Rule where
  ruleId : Option String
  name : Option String
  /-- `true` for an allow rule, `false` for a deny rule. -/
  allow : Bool
  userLevel : String
  callerPattern : String
  calleePattern : String
  deriving DecidableEq, Repr

/-- What the evaluator answers, with the name of the rule that decided. -/
structure Decision where
  allow : Bool
  /-- The deciding rule, or `<self_call>` or `<default>`. -/
  ruleName : String
  deriving DecidableEq, Repr

/-- What the evaluator sees of an agent. -/
structure AgentView where
  agentId : AgentId
  groups : List String
  capabilities : List String
  deriving DecidableEq, Repr

/-- Whether `pattern` matches the view. -/
def patternMatches (pattern : String) (v : AgentView) : Bool :=
  match pattern.toList with
  | '@' :: cs => String.ofList cs = v.agentId
  | _ =>
    let group := (partition '/' pattern).1
    let cap := (partition '/' pattern).2.toList
    let groupOk := decide (group = "*") || decide (group ∈ v.groups)
    let capOk :=
      if cap = ['*'] then true
      -- a prefix glob keeps its dot, so that `llm.*` does not match `llmpy.foo`
      else if ['.', '*'].isSuffixOf cap then
        v.capabilities.any fun c => cap.dropLast.isPrefixOf c.toList
      else decide (String.ofList cap ∈ v.capabilities)
    groupOk && capOk

/-- The label under which a rule is reported; an empty name or id counts as missing. -/
def Rule.label (r : Rule) : String :=
  match r.name.filter (· ≠ ""), r.ruleId.filter (· ≠ "") with
  | some n, _ => n
  | none, some i => i
  | none, none => "<unnamed>"

/-- Whether a rule speaks about this call. -/
def Rule.applies (r : Rule) (caller callee : AgentView) (userLevel : String) : Bool :=
  userLevelSatisfies (some userLevel) r.userLevel && patternMatches r.callerPattern caller &&
    patternMatches r.calleePattern callee

/-- Walk the rules in order: first match wins, default deny, self-call always denied. -/
def isAllowed (rules : List Rule) (caller callee : AgentView) (userLevel : String) : Decision :=
  if caller.agentId = callee.agentId then ⟨false, "<self_call>"⟩
  else match rules.find? fun r => r.applies caller callee userLevel with
    | some r => ⟨r.allow, r.label⟩
    | none => ⟨false, "<default>"⟩

theorem isAllowed_self (rules : List Rule) (a b : AgentView) (l : String)
    (h : a.agentId = b.agentId) : (isAllowed rules a b l).allow = false := by
  simp [isAllowed, h]

end Backplane
