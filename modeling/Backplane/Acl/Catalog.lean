import Backplane.Acl.Store
import Backplane.Db.Schema
import Mathlib.Data.List.TakeWhile

/-!
# The catalog of destinations

The router publishes to each agent which others it may call and at which user levels; admission asks
the rules again, for the level of the one user.

* `deploymentLevels` : the ladder of levels that the catalog probes.
* `availableDestinations` : the catalog; `visible` : what an agent makes of it at a level.
* `lookup_availableDestinations` : the entry of an agent, read off the rules.
* `isAllowed_congr_tier` : admission looks at a level's tier only, not at how it is written.
* `catalog_agrees` : on the ladder the catalog and admission agree; off it nothing is listed.
-/

namespace Backplane

/-! ### The ladder -/

/-- `tierN` -/
def tierName (n : ℕ) : String := "tier" ++ toString n

/-- What the database checks of a user's level. -/
def isUserLevel (l : String) : Bool := l == "admin" || l == "service" || isTier l.toList

/-- The levels that the catalog probes. -/
def deploymentLevels (maxTier : ℕ) : List String :=
  ["admin", "service"] ++ (List.range (maxTier + 1)).map tierName

variable {u v : String} {n k maxTier : ℕ}

theorem mem_deploymentLevels :
    u ∈ deploymentLevels maxTier ↔ u = "admin" ∨ u = "service" ∨ ∃ n ≤ maxTier, u = tierName n := by
  simp only [deploymentLevels, List.cons_append, List.nil_append, List.mem_cons, List.mem_map,
    List.mem_range, Nat.lt_succ_iff]
  refine or_congr_right (or_congr_right (exists_congr fun n => and_congr_right fun _ => ?_))
  exact eq_comm

theorem toList_tierName (n : ℕ) :
    (tierName n).toList = 't' :: 'i' :: 'e' :: 'r' :: Nat.toDigits 10 n := by
  simp [tierName]

/-- The tier of a well-formed name is the number its digits spell. -/
theorem tierIndex_of_digits {ds : List Char} (hu : u.toList = 't' :: 'i' :: 'e' :: 'r' :: ds)
    (hne : ds ≠ []) (hd : ∀ c ∈ ds, c.isDigit = true) :
    tierIndex (some u) = some (Nat.ofDigitChars 10 ds 0 : ℤ) := by
  have hnot : ¬ (u = "admin" ∨ u = "service") := by
    rintro (rfl | rfl)
    · exact absurd (List.cons.inj hu).1 (by decide)
    · exact absurd (List.cons.inj hu).1 (by decide)
  have htake : ds.takeWhile Char.isDigit = ds := List.takeWhile_eq_self_iff.2 hd
  simp only [tierIndex, if_neg hnot, hu, htake, Nat.ofDigitChars_eq_foldl]
  rw [if_pos ⟨hne, .inl (List.drop_length)⟩]

/-- The tier of a rung is its number. -/
theorem tierIndex_tierName (n : ℕ) : tierIndex (some (tierName n)) = some (n : ℤ) := by
  rw [tierIndex_of_digits (toList_tierName n) Nat.toDigits_ne_nil fun c hc =>
    Nat.isDigit_of_mem_toDigits (by omega) (by omega) hc, Nat.ofDigitChars_ten_toDigits]

/-! ### Admission looks at the tier only -/

/-- Two ways to write one tier satisfy the same rules. -/
theorem userLevelSatisfies_congr (hu : tierIndex (some u) = some (n : ℤ))
    (hv : tierIndex (some v) = some (n : ℤ)) (ruleLevel : String) :
    userLevelSatisfies (some u) ruleLevel = userLevelSatisfies (some v) ruleLevel := by
  have hne : ∀ {w : String}, tierIndex (some w) = some (n : ℤ) → w ≠ "admin" ∧ w ≠ "service" := by
    intro w hw
    constructor <;> rintro rfl <;>
      · have hneg : (-1 : ℤ) = n := Option.some.inj hw
        omega
  unfold userLevelSatisfies levelSatisfiesTier
  split_ifs with h₁ h₂
  · rfl
  · have hother : ∀ {w : String}, tierIndex (some w) = some (n : ℤ) → some w ≠ some ruleLevel := by
      intro w hw he
      rcases h₂ with rfl | rfl
      · exact (hne hw).1 (Option.some.inj he)
      · exact (hne hw).2 (Option.some.inj he)
    rw [decide_eq_false (hother hu), decide_eq_false (hother hv)]
  · rw [hu, hv]

/-- **Admission looks at a level's tier only, not at how it is written.** -/
theorem isAllowed_congr_tier (hu : tierIndex (some u) = some (n : ℤ))
    (hv : tierIndex (some v) = some (n : ℤ)) (rules : List Rule) (caller callee : AgentView) :
    isAllowed rules caller callee u = isAllowed rules caller callee v := by
  have happ : (fun r : Rule => r.applies caller callee u) = fun r => r.applies caller callee v := by
    funext r
    rw [Rule.applies, userLevelSatisfies_congr hu hv, Rule.applies]
  rw [isAllowed, happ, isAllowed]

/-! ### The catalog -/

/-- A registered agent, with what its `agent_info` publishes. -/
structure AgentProfile extends AgentRow where
  description : Option String := none
  nonToolModes : Option (List String) := none
  modeDescriptions : Option (List (String × String)) := none
  /-- Whether it is left out of generated tools. -/
  hidden : Option Bool := none
  documentationUrl : Option String := none
  lastSeenAt : Option ℕ := none

/-- What the catalog says of an agent. -/
structure CatalogEntry where
  description : String
  groups : List String
  capabilities : List String
  acceptsSchema : Option (List (String × Option Json))
  nonToolModes : List String
  modeDescriptions : Option (List (String × String))
  /-- Whether it is left out of generated tools. -/
  hidden : Bool
  documentationUrl : Option String
  callableUserLevels : List String
  lastSeenAt : Option ℕ

/-- `compute_callable_user_levels`: the levels of a list at which the call is allowed. -/
def computeCallableUserLevels (rules : List Rule) (caller callee : AgentView)
    (levels : List String) : List String :=
  levels.filter fun l => (isAllowed rules caller callee l).allow

/-- The entry of an agent. -/
def AgentProfile.entry (a : AgentProfile) (callableLevels : List String) : CatalogEntry where
  description := a.description.getD ""
  groups := a.groups
  capabilities := a.capabilities
  acceptsSchema := a.acceptsSchema
  nonToolModes := a.nonToolModes.getD []
  modeDescriptions := a.modeDescriptions
  hidden := a.hidden.getD false
  documentationUrl := a.documentationUrl
  callableUserLevels := callableLevels
  lastSeenAt := a.lastSeenAt

/-- The catalog that is published to `caller`: the other active agents it may call at some level. -/
def availableDestinations (caller : AgentProfile) (candidates : List AgentProfile)
    (rules : List Rule) (maxTier : ℕ) : Table AgentId CatalogEntry :=
  candidates.foldl (fun result agent =>
    if agent.status ≠ .active then result
    else if agent.agentId = caller.agentId then result
    else
      let callableLevels :=
        computeCallableUserLevels rules caller.view agent.view (deploymentLevels maxTier)
      if callableLevels.isEmpty then result
      else AList.insert agent.agentId (agent.entry callableLevels) result) ∅

/-- `PeerClient.visible`: the agents that a task at a level may call; none without a level. -/
def visible (catalog : Table AgentId CatalogEntry) (level : String) : Table AgentId CatalogEntry :=
  if level = "" then ∅
  else catalog.deleteWhere fun _ entry => !decide (level ∈ entry.callableUserLevels)

/-- What the catalog says of an agent, if it lists it. -/
def AgentProfile.listing (caller : AgentProfile) (rules : List Rule) (maxTier : ℕ)
    (agent : AgentProfile) : Option CatalogEntry :=
  let callableLevels :=
    computeCallableUserLevels rules caller.view agent.view (deploymentLevels maxTier)
  if agent.status = .active ∧ agent.agentId ≠ caller.agentId ∧ callableLevels ≠ [] then
    some (agent.entry callableLevels)
  else none

section

variable {caller d : AgentProfile} {candidates : List AgentProfile} {rules : List Rule}
  {catalog : Table AgentId CatalogEntry} {a : AgentId} {l : String}

theorem mem_computeCallableUserLevels {caller callee : AgentView} {levels : List String} :
    l ∈ computeCallableUserLevels rules caller callee levels ↔
      l ∈ levels ∧ (isAllowed rules caller callee l).allow = true := List.mem_filter

/-- One round of the loop stores what the catalog says of the agent. -/
theorem availableDestinations_cons (agent : AgentProfile) (t : Table AgentId CatalogEntry) :
    (if agent.status ≠ .active then t
      else if agent.agentId = caller.agentId then t
      else if (computeCallableUserLevels rules caller.view agent.view
          (deploymentLevels maxTier)).isEmpty then t
      else AList.insert agent.agentId (agent.entry (computeCallableUserLevels rules caller.view
          agent.view (deploymentLevels maxTier))) t) =
      match caller.listing rules maxTier agent with
      | none => t
      | some e => AList.insert agent.agentId e t := by
  unfold AgentProfile.listing
  by_cases hs : agent.status = .active
  · by_cases hi : agent.agentId = caller.agentId
    · simp [hs, hi]
    · by_cases hl : computeCallableUserLevels rules caller.view agent.view
          (deploymentLevels maxTier) = []
      · simp [hs, hi, hl]
      · simp [hs, hi, hl]
  · simp [hs]

/-- Listing agents one after the other; their ids differ. -/
theorem lookup_listings {f : AgentProfile → Option CatalogEntry} (t : Table AgentId CatalogEntry)
    (hids : (candidates.map fun d => d.agentId).Nodup) :
    AList.lookup a (candidates.foldl (fun t agent => match f agent with
      | none => t
      | some e => AList.insert agent.agentId e t) t) =
      ((candidates.find? fun d => d.agentId = a).bind f).or (AList.lookup a t) := by
  induction candidates generalizing t with
  | nil => rfl
  | cons d ds ih =>
    obtain ⟨hd, hds⟩ := List.nodup_cons.1 hids
    rw [List.foldl_cons, ih _ hds]
    by_cases ha : d.agentId = a
    · have hnone : ds.find? (fun d => d.agentId = a) = none := by
        refine List.find?_eq_none.2 fun x hx hxa => hd (List.mem_map.2 ⟨x, hx, ?_⟩)
        exact (of_decide_eq_true hxa).trans ha.symm
      rw [hnone, List.find?_cons_of_pos (by simpa using ha), Option.bind_some]
      cases hf : f d with
      | none => rfl
      | some e => simp [ha]
    · rw [List.find?_cons_of_neg (by simpa using ha)]
      cases hf : f d with
      | none => rfl
      | some e => simp [Ne.symm ha]

/-- **The entry of an agent is read off the rules.** -/
theorem lookup_availableDestinations (hids : (candidates.map fun d => d.agentId).Nodup)
    (hd : d ∈ candidates) :
    (availableDestinations caller candidates rules maxTier).lookup d.agentId =
      caller.listing rules maxTier d := by
  have hfind : candidates.find? (fun x => x.agentId = d.agentId) = some d := by
    cases hf : candidates.find? fun x => x.agentId = d.agentId with
    | none => exact absurd rfl (of_decide_eq_false
        (Bool.eq_false_iff.2 (List.find?_eq_none.1 hf d hd)))
    | some x =>
      have hx : x.agentId = d.agentId := by simpa using List.find?_some hf
      exact congrArg some (List.inj_on_of_nodup_map hids (List.mem_of_find?_eq_some hf) hd hx)
  simp only [availableDestinations, availableDestinations_cons]
  rw [lookup_listings _ hids, hfind, Option.bind_some, AList.lookup_empty, Option.or_none]

/-! ### The catalog and admission agree -/

/-- The catalog lists the agent with the level among its callable ones. -/
def ListedWith (catalog : Table AgentId CatalogEntry) (a : AgentId) (l : String) : Prop :=
  ∃ e, catalog.lookup a = some e ∧ l ∈ e.callableUserLevels

/-- What an agent sees at a level is what is listed with it. -/
theorem mem_visible (hl : l ≠ "") : a ∈ visible catalog l ↔ ListedWith catalog a l := by
  rw [visible, if_neg hl, ← AList.lookup_isSome, Option.isSome_iff_exists]
  refine exists_congr fun e => Table.lookup_deleteWhere.trans (and_congr_right fun _ => ?_)
  simp

theorem listedWith_iff (hids : (candidates.map fun d => d.agentId).Nodup) (hd : d ∈ candidates)
    (hs : d.status = .active) :
    ListedWith (availableDestinations caller candidates rules maxTier) d.agentId l ↔
      l ∈ deploymentLevels maxTier ∧ (isAllowed rules caller.view d.view l).allow = true := by
  unfold ListedWith
  rw [lookup_availableDestinations hids hd, AgentProfile.listing]
  by_cases hi : d.agentId = caller.agentId
  · have hself := isAllowed_self rules caller.view d.view l hi.symm
    simp [hi, hself]
  · constructor
    · rintro ⟨e, he, hl⟩
      rw [Option.ite_none_right_eq_some] at he
      obtain rfl := Option.some.inj he.2
      exact mem_computeCallableUserLevels.1 hl
    · intro h
      have hl := mem_computeCallableUserLevels.2 h
      exact ⟨_, if_pos ⟨hs, hi, List.ne_nil_of_mem hl⟩, hl⟩

/-- **The catalog agrees with admission**: an agent is listed with a level of the ladder exactly if
admission allows the call at that level, and with no other level; a level that is a tier of the
ladder under another name is allowed exactly what its rung is listed with.  An agent that filters by
the level sees the same. -/
theorem catalog_agrees (hids : (candidates.map fun d => d.agentId).Nodup) (hd : d ∈ candidates)
    (hs : d.status = .active) (rules : List Rule) (maxTier : ℕ) (u : String) :
    (u ∈ deploymentLevels maxTier →
      (ListedWith (availableDestinations caller candidates rules maxTier) d.agentId u ↔
        (isAllowed rules caller.view d.view u).allow = true)) ∧
    (u ∉ deploymentLevels maxTier →
      ¬ ListedWith (availableDestinations caller candidates rules maxTier) d.agentId u) ∧
    (∀ n ≤ maxTier, tierIndex (some u) = some (n : ℤ) →
      (ListedWith (availableDestinations caller candidates rules maxTier) d.agentId (tierName n) ↔
        (isAllowed rules caller.view d.view u).allow = true)) ∧
    (u ≠ "" → (d.agentId ∈ visible (availableDestinations caller candidates rules maxTier) u ↔
      ListedWith (availableDestinations caller candidates rules maxTier) d.agentId u)) := by
  have hlisted : ∀ l, ListedWith (availableDestinations caller candidates rules maxTier) d.agentId l ↔
      l ∈ deploymentLevels maxTier ∧ (isAllowed rules caller.view d.view l).allow = true :=
    fun l => listedWith_iff hids hd hs
  refine ⟨fun hu => ?_, fun hu h => hu ((hlisted u).1 h).1, fun n hn hu => ?_, mem_visible⟩
  · rw [hlisted, and_iff_right hu]
  · rw [hlisted, and_iff_right (mem_deploymentLevels.2 (.inr (.inr ⟨n, hn, rfl⟩))),
      isAllowed_congr_tier (tierIndex_tierName n) hu]

end

/-- Everybody may call everybody, at any level. -/
def Sample.anyRule : Rule := ⟨none, some "any", true, "*", "*/*", "*/*"⟩

def Sample.profile (a : AgentId) : AgentProfile := { agentId := a }

/-- At `tier2` an agent sees the one it may call. -/
theorem catalog_agrees_tier2 :
    ListedWith (availableDestinations (Sample.profile "a") [Sample.profile "a", Sample.profile "b"]
      [Sample.anyRule] 3) "b" "tier2" :=
  ((@catalog_agrees (Sample.profile "a") (Sample.profile "b")
    [Sample.profile "a", Sample.profile "b"] (by decide) (by simp) rfl [Sample.anyRule] 3
    "tier2").1 (by decide +kernel)).2 (by decide +kernel)

/-- A user of `tier4`, above the ladder, and one whose `tier1` is written `tier01` may call an agent
that the catalog does not list for them. -/
theorem catalog_misses_levels :
    (isUserLevel "tier4" = true ∧
      (isAllowed [Sample.anyRule] (Sample.profile "a").view (Sample.profile "b").view
        "tier4").allow = true ∧
      ¬ ListedWith (availableDestinations (Sample.profile "a")
        [Sample.profile "a", Sample.profile "b"] [Sample.anyRule] 3) "b" "tier4") ∧
    (isUserLevel "tier01" = true ∧
      (isAllowed [Sample.anyRule] (Sample.profile "a").view (Sample.profile "b").view
        "tier01").allow = true ∧
      ¬ ListedWith (availableDestinations (Sample.profile "a")
        [Sample.profile "a", Sample.profile "b"] [Sample.anyRule] 3) "b" "tier01") := by
  have hmiss : ∀ l, l ∉ deploymentLevels 3 → ¬ ListedWith (availableDestinations (Sample.profile "a")
      [Sample.profile "a", Sample.profile "b"] [Sample.anyRule] 3) "b" l := fun l hl h =>
    hl ((listedWith_iff (d := Sample.profile "b") (by decide) (by simp) rfl).1 h).1
  exact ⟨⟨by decide, by decide +kernel, hmiss _ (by decide +kernel)⟩,
    ⟨by decide, by decide +kernel, hmiss _ (by decide +kernel)⟩⟩

end Backplane
