import Backplane.Mcp.ToolCapabilities

/-!
# The router has the modes of the agent

Each reconcile sends the modes of the agent, with their schemas, and the capabilities only if the
names have changed.

* `ToolState.Converged` : the router has the modes, schemas and capabilities of the tools, and the
  agent their handlers.
* `ToolState.InModes`, `ToolState.Published` : while `set_modes` awaits its answer, and after that.
* `tools_converge` : in every run of allowed steps, after a reconcile whose updates were accepted
  the router has what the tools say.
-/

namespace Backplane.Mcp

variable {Schema : Type}

namespace ToolState

section

variable (row : ServerBridgeRow) (s : ToolState Schema)

/-- What is claimed of a state: after a reconcile whose updates were accepted. -/
structure Converged (listed : List (ToolDefinition Schema)) : Prop where
  modes : s.router.acceptsSchema = some (acceptsSchemaFor (row.enabledTools listed))
  capabilities : CapabilitiesOf row s.router.capabilities (row.enabledTools listed)
  handlers : ∀ m, m ∈ s.handlers ↔ m ∈ acceptsSchemaFor (row.enabledTools listed)

/-- An update that sets the modes sets those of these tools. -/
def Sets (p : AgentInfoUpdate Schema) (listed : List (ToolDefinition Schema)) : Prop :=
  ∀ modes, p.acceptsSchema = some modes → modes = acceptsSchemaFor (row.enabledTools listed)

/-- `set_modes` awaits its answer. -/
structure InModes (n : ℕ) (listed : List (ToolDefinition Schema)) : Prop where
  handlers : s.handlers = handlersFor (row.enabledTools listed)
  /-- This update, and those behind it, set these modes. -/
  flight : ∀ m p, (m, p) ∈ s.flight → n ≤ m → Sets row p listed
  /-- This update sets them. -/
  carried : ∀ p, (n, p) ∈ s.flight → p = modesUpdate row listed
  /-- The router has them once it has accepted the update. -/
  accepted : (n, true) ∈ s.acks →
    s.router.acceptsSchema = some (acceptsSchemaFor (row.enabledTools listed))
  /-- The update of the start is going to set them. -/
  due : s.resync = .due →
    s.info.acceptsSchema = some (acceptsSchemaFor (row.enabledTools listed))
  /-- It sets them, if it is behind this update. -/
  resync : ∀ m p, s.resync = .awaiting m p → n < m → Sets row p listed

/-- The update of `set_modes` has been accepted. -/
structure Published (listed : List (ToolDefinition Schema)) : Prop where
  handlers : s.handlers = handlersFor (row.enabledTools listed)
  router : s.router.acceptsSchema = some (acceptsSchemaFor (row.enabledTools listed))
  /-- So has the agent. -/
  own : s.info.acceptsSchema = some (acceptsSchemaFor (row.enabledTools listed))
  /-- So has the Hello. -/
  greeting : ∀ info, s.greeting = some info →
    info.acceptsSchema = some (acceptsSchemaFor (row.enabledTools listed))
  /-- Updates set no others. -/
  flight : ∀ m p, (m, p) ∈ s.flight → Sets row p listed
  /-- The update of the start set no others. -/
  resync : ∀ n p, s.resync = .awaiting n p → n ∈ s.seqs → Sets row p listed

/-- The modes are those of the tools of the reconcile. -/
structure ModeInv : Prop where
  /-- While `set_modes` awaits its answer. -/
  modes : ∀ n listed, s.applying = .modes n listed → s.InModes row n listed
  /-- While the update of the capabilities is awaited. -/
  capabilities : ∀ n listed, s.applying = .capabilities n listed → s.Published row listed
  /-- After a reconcile whose updates were accepted. -/
  applied : ∀ listed, s.applied = some listed → s.Published row listed

end

variable {row : ServerBridgeRow} {s s' : ToolState Schema} {listed : List (ToolDefinition Schema)}
  {p : AgentInfoUpdate Schema} {seq n : ℕ} {ok : Bool} {v : UpdateVerdict}
  {e : ToolEvent Schema}

/-! ### Updates -/

theorem sets_modesUpdate : Sets row (modesUpdate row listed) listed :=
  fun _ hmodes => (Option.some.inj hmodes).symm

theorem sets_capabilitiesUpdate : Sets row (capabilitiesUpdate row listed) listed :=
  fun _ hmodes => (by cases hmodes)

theorem Sets.merge {info : AgentInfo Schema} (h : Sets row p listed)
    (hinfo : info.acceptsSchema = some (acceptsSchemaFor (row.enabledTools listed))) :
    (info.merge p).acceptsSchema = some (acceptsSchemaFor (row.enabledTools listed)) := by
  cases hmodes : p.acceptsSchema with
  | none => rw [AgentInfo.merge, hmodes, Option.none_or, hinfo]
  | some modes => rw [AgentInfo.merge, hmodes, Option.some_or, h modes hmodes]

theorem sets_resyncUpdate
    (hinfo : s.info.acceptsSchema = some (acceptsSchemaFor (row.enabledTools listed))) :
    Sets row s.resyncUpdate listed := by
  intro modes hmodes
  rw [resyncUpdate, hinfo] at hmodes
  exact (Option.some.inj hmodes).symm

/-! ### The modes that are published -/

/-- What is left of the updates and the answers sets no other modes. -/
theorem Published.of_subset (h : s.Published row listed) (hhandlers : s'.handlers = s.handlers)
    (hrouter : s'.router.acceptsSchema = some (acceptsSchemaFor (row.enabledTools listed)))
    (hown : s'.info.acceptsSchema = some (acceptsSchemaFor (row.enabledTools listed)))
    (hgreeting : ∀ info, s'.greeting = some info →
      info.acceptsSchema = some (acceptsSchemaFor (row.enabledTools listed)))
    (hflight : s'.flight ⊆ s.flight) (hseqs : s'.seqs ⊆ s.seqs)
    (hresync : ∀ n p, s'.resync = .awaiting n p → s.resync = .awaiting n p) :
    s'.Published row listed where
  handlers := hhandlers.trans h.handlers
  router := hrouter
  own := hown
  greeting := hgreeting
  flight m p hp := h.flight m p (hflight hp)
  resync n p hn hseq := h.resync n p (hresync n p hn) (hseqs hseq)

theorem Published.welcome {info : AgentInfo Schema} (h : s.Published row listed)
    (hinfo : s.greeting = some info) :
    ({ s with router := info, greeting := none, isUp := true } :
      ToolState Schema).Published row listed :=
  h.of_subset rfl (h.greeting info hinfo) h.own (fun _ hnone => (by cases hnone))
    (List.Subset.refl _) (List.Subset.refl _) fun _ _ hn => hn

theorem Published.handle {flight : List (ℕ × AgentInfoUpdate Schema)}
    (h : s.Published row listed) (hflight : s.flight = (seq, p) :: flight) :
    ({ s with flight }.handle seq p v).Published row listed := by
  have hsub : flight ⊆ s.flight := fun f hf => hflight ▸ List.mem_cons_of_mem _ hf
  have hmerged := (h.flight seq p (hflight ▸ List.mem_cons_self)).merge h.router
  have hseqs : ({ s with flight }.handle seq p v).seqs ⊆ s.seqs := by
    intro n hn
    have hn := handle_seqs.subset hn
    rwa [seqs, hflight]
  cases v with
  | accepted | unanswered =>
    exact h.of_subset rfl hmerged h.own h.greeting hsub hseqs fun _ _ hn => hn
  | refused | failed =>
    exact h.of_subset rfl h.router h.own h.greeting hsub hseqs fun _ _ hn => hn

theorem Published.answerResync (h : s.Published row listed)
    (hp : ∀ p, s.resync = .awaiting seq p → Sets row p listed) :
    (s.answerResync seq ok).Published row listed := by
  unfold ToolState.answerResync
  split
  · next n p hresync =>
    split_ifs with hne hok
    · exact h
    · obtain rfl := not_not.1 hne
      exact h.of_subset rfl h.router ((hp p hresync).merge h.own) h.greeting (List.Subset.refl _)
        (List.Subset.refl _) fun _ _ hn => (by cases hn)
    · exact h.of_subset rfl h.router h.own h.greeting (List.Subset.refl _)
        (List.Subset.refl _) fun _ _ hn => (by cases hn)
  · exact h

theorem Published.send (h : s.Published row listed) (hordered : s.Ordered)
    (hp : Sets row p listed) : (s.send p).Published row listed where
  handlers := h.handlers
  router := h.router
  own := h.own
  greeting := h.greeting
  flight m q hq := by
    rcases List.mem_append.1 hq with hq | hq
    · exact h.flight m q hq
    · cases List.mem_singleton.1 hq
      exact hp
  resync m q hm hseq := by
    refine h.resync m q hm ?_
    refine (List.mem_append.1 (seqs_send ▸ hseq)).resolve_right fun hnext => ?_
    have hlt := hordered.resync m q hm
    rw [List.mem_singleton.1 hnext] at hlt
    exact lt_irrefl _ hlt

theorem Published.sendResync (h : s.Published row listed) (hordered : s.Ordered) :
    ({ s.send s.resyncUpdate with resync := .awaiting s.next s.resyncUpdate } :
      ToolState Schema).Published row listed := by
  have hsets := sets_resyncUpdate h.own
  have hsend := h.send hordered hsets
  refine ⟨hsend.handlers, hsend.router, hsend.own, hsend.greeting, hsend.flight,
    fun m p hm _ => ?_⟩
  cases hm
  exact hsets

/-! ### While `set_modes` awaits its answer -/

/-- What is left of the updates and the answers sets no other modes. -/
theorem InModes.of_subset (h : s.InModes row n listed) (hhandlers : s'.handlers = s.handlers)
    (hflight : s'.flight ⊆ s.flight)
    (haccepted : (n, true) ∈ s'.acks →
      s'.router.acceptsSchema = some (acceptsSchemaFor (row.enabledTools listed)))
    (hdue : s'.resync = .due →
      s'.info.acceptsSchema = some (acceptsSchemaFor (row.enabledTools listed)))
    (hresync : ∀ m p, s'.resync = .awaiting m p → s.resync = .awaiting m p) :
    s'.InModes row n listed where
  handlers := hhandlers.trans h.handlers
  flight m p hp := h.flight m p (hflight hp)
  carried p hp := h.carried p (hflight hp)
  accepted := haccepted
  due := hdue
  resync m p hm := h.resync m p (hresync m p hm)

/-- The update of `set_modes` is sent. -/
theorem Ordered.inModes (h : s.Ordered) {applied : Option (List (ToolDefinition Schema))} :
    ({ { s with
        handlers := handlersFor (row.enabledTools listed)
        info := s.info.merge (modesUpdate row listed) }.send (modesUpdate row listed) with
      applying := .modes s.next listed, applied } : ToolState Schema).InModes
        row s.next listed where
  handlers := rfl
  flight m p hp hm := by
    rcases List.mem_append.1 hp with hp | hp
    · have hlt := h.sent m (List.mem_append_right _ (List.mem_map_of_mem hp))
      exact absurd hlt (not_lt.2 hm)
    · cases List.mem_singleton.1 hp
      exact sets_modesUpdate
  carried p hp := by
    rcases List.mem_append.1 hp with hp | hp
    · exact absurd (h.sent _ (List.mem_append_right _ (List.mem_map_of_mem hp))) (lt_irrefl _)
    · cases List.mem_singleton.1 hp
      rfl
  accepted hack :=
    absurd (h.sent _ (List.mem_append_left _ (List.mem_map_of_mem hack))) (lt_irrefl _)
  due _ := by
    change (s.info.merge (modesUpdate row listed)).acceptsSchema = _
    rw [AgentInfo.merge, modesUpdate, Option.some_or]
  resync m p hm hlt := absurd (h.resync m p hm) (not_lt.2 hlt.le)

theorem InModes.handle {flight : List (ℕ × AgentInfoUpdate Schema)}
    (h : s.InModes row n listed) (hordered : s.Ordered) (hflight : s.flight = (seq, p) :: flight) :
    ({ s with flight }.handle seq p v).InModes row n listed := by
  have hmem : (seq, p) ∈ s.flight := hflight ▸ List.mem_cons_self
  have hsub : flight ⊆ s.flight := fun f hf => hflight ▸ List.mem_cons_of_mem _ hf
  -- an update behind the accepted one sets the same modes
  have hold : (n, true) ∈ s.acks → (s.router.merge p).acceptsSchema =
      some (acceptsSchemaFor (row.enabledTools listed)) := by
    intro hack
    have hlt := (List.pairwise_append.1 hordered.ordered).2.2 n (List.mem_map_of_mem hack) seq
      (List.mem_map_of_mem hmem)
    exact (h.flight seq p hmem hlt.le).merge (h.accepted hack)
  cases v with
  | accepted =>
    refine h.of_subset rfl hsub (fun hack => ?_) h.due fun _ _ hm => hm
    rcases List.mem_append.1 hack with hack | hack
    · exact hold hack
    · cases List.mem_singleton.1 hack
      rw [h.carried p hmem]
      change (s.router.merge (modesUpdate row listed)).acceptsSchema = _
      rw [AgentInfo.merge, modesUpdate, Option.some_or]
  | refused =>
    refine h.of_subset rfl hsub (fun hack => ?_) h.due fun _ _ hm => hm
    rcases List.mem_append.1 hack with hack | hack
    · exact h.accepted hack
    · cases List.mem_singleton.1 hack
  | failed => exact h.of_subset rfl hsub h.accepted h.due fun _ _ hm => hm
  | unanswered => exact h.of_subset rfl hsub hold h.due fun _ _ hm => hm

/-- The update of the start is sent, behind that of `set_modes`. -/
theorem InModes.sendResync (h : s.InModes row n listed) (hlt : n < s.next)
    (hdue : s.resync = .due) :
    ({ s.send s.resyncUpdate with resync := .awaiting s.next s.resyncUpdate } :
      ToolState Schema).InModes row n listed where
  handlers := h.handlers
  flight m p hp hm := by
    rcases List.mem_append.1 hp with hp | hp
    · exact h.flight m p hp hm
    · cases List.mem_singleton.1 hp
      exact sets_resyncUpdate (h.due hdue)
  carried p hp := by
    rcases List.mem_append.1 hp with hp | hp
    · exact h.carried p hp
    · cases List.mem_singleton.1 hp
      exact absurd hlt (lt_irrefl _)
  accepted := h.accepted
  due hover := (by cases hover)
  resync m p hm _ := by
    cases hm
    exact sets_resyncUpdate (h.due hdue)

/-- The answer says that the update of `set_modes` was accepted. -/
theorem InModes.published {acks : List (ℕ × Bool)} (h : s.InModes row n listed)
    (hordered : s.Ordered) (hacks : s.acks = (n, true) :: acks) (hgreeting : s.greeting = none) :
    let s₁ := ({ s with acks } : ToolState Schema).answerResync n true
    ({ s₁ with info := s₁.info.merge (modesUpdate row listed) } :
      ToolState Schema).Published row listed := by
  intro s₁
  have hseqs : s.seqs = n :: ({ s with acks } : ToolState Schema).seqs := by
    rw [seqs, hacks]
    rfl
  have hpairwise := hordered.ordered
  rw [hseqs] at hpairwise
  have hflight : s₁.flight = s.flight := by
    unfold s₁ ToolState.answerResync
    split
    · split_ifs <;> rfl
    · rfl
  have hhandlers : s₁.handlers = s.handlers := by
    unfold s₁ ToolState.answerResync
    split
    · split_ifs <;> rfl
    · rfl
  have hresync : ∀ m p, s₁.resync = .awaiting m p → s.resync = .awaiting m p := by
    intro m p hm
    revert hm
    unfold s₁ ToolState.answerResync
    split
    · split_ifs
      · exact id
      · exact fun hm => (by cases hm)
    · exact id
  refine ⟨hhandlers.trans h.handlers, ?_, ?_, fun info hinfo => ?_, fun m p hp => ?_,
    fun m p hm hseq => ?_⟩
  · have hrouter := h.accepted (hacks ▸ List.mem_cons_self)
    rw [← hrouter]
    exact congrArg AgentInfo.acceptsSchema (answerResync_router ..)
  · change (s₁.info.merge (modesUpdate row listed)).acceptsSchema = _
    rw [AgentInfo.merge, modesUpdate, Option.some_or]
  · have hinfo : s₁.greeting = some info := hinfo
    rw [answerResync_greeting] at hinfo
    cases hgreeting.symm.trans hinfo
  · have hp : (m, p) ∈ s₁.flight := hp
    rw [hflight] at hp
    have hlt := List.rel_of_pairwise_cons hpairwise
      (List.mem_append_right (acks.map Prod.fst) (List.mem_map_of_mem hp))
    exact h.flight m p hp (Nat.le_of_lt hlt)
  · have hseq : m ∈ s₁.seqs := hseq
    rw [answerResync_seqs] at hseq
    exact h.resync m p (hresync m p hm) (List.rel_of_pairwise_cons hpairwise hseq)

theorem Published.afterModes (h : s.Published row listed) (hordered : s.Ordered)
    (happlied : s.applied = none) : (s.afterModes row listed).ModeInv row := by
  rw [ToolState.afterModes]
  split_ifs
  · refine ⟨fun _ _ hn => (by cases hn), fun n listed' hn => ?_, fun listed' ha => ?_⟩
    · cases hn
      have hsets : Sets row (capabilitiesUpdate row listed) listed := sets_capabilitiesUpdate
      have hsend := h.send hordered hsets
      exact hsend.of_subset rfl hsend.router hsend.own hsend.greeting (List.Subset.refl _)
        (List.Subset.refl _) fun _ _ hm => hm
    · cases happlied.symm.trans ha
  · refine ⟨fun _ _ hn => (by cases hn), fun _ _ hn => (by cases hn), fun listed' ha => ?_⟩
    obtain rfl := Option.some.inj ha
    exact h.of_subset rfl h.router h.own h.greeting (List.Subset.refl _) (List.Subset.refl _)
      fun _ _ hm => hm

/-! ### Steps -/

/-- Nothing that the modes depend on changes for the worse. -/
theorem ModeInv.of_subset (h : s.ModeInv row) (happlying : s'.applying = s.applying)
    (happlied : s'.applied = s.applied)
    (hmodes : ∀ n listed, s.InModes row n listed → s'.InModes row n listed)
    (hpublished : ∀ listed, s.Published row listed → s'.Published row listed) :
    s'.ModeInv row where
  modes n listed hn := hmodes n listed (h.modes n listed (happlying ▸ hn))
  capabilities n listed hn := hpublished listed (h.capabilities n listed (happlying ▸ hn))
  applied listed ha := hpublished listed (h.applied listed (happlied ▸ ha))

theorem ModeInv.idle (h : s.ModeInv row) (happlying : s'.applying = .idle)
    (hpublished : ∀ listed, s'.applied = some listed → s.applied = some listed ∧
      (s.Published row listed → s'.Published row listed)) : s'.ModeInv row where
  modes n listed hn := by
    rw [happlying] at hn
    cases hn
  capabilities n listed hn := by
    rw [happlying] at hn
    cases hn
  applied listed ha := (hpublished listed ha).2 (h.applied listed (hpublished listed ha).1)

theorem ModeInv.apply (h : s.ModeInv row) (hordered : s.Ordered) (hidle : s.applying = .idle) :
    (s.apply row listed).ModeInv row := by
  rw [ToolState.apply]
  split_ifs
  · exact h.idle hidle fun _ ha => (by cases ha)
  · dsimp only
    split
    · exact h.idle rfl fun _ ha => (by cases ha)
    · refine ⟨fun n listed' hn => ?_, fun _ _ hn => (by cases hn), fun _ ha => (by cases ha)⟩
      cases hn
      exact hordered.inModes

theorem ModeInv.ack {acks : List (ℕ × Bool)} (h : s.ModeInv row) (hordered : s.Ordered)
    (hcapabilities : s.CapabilityInv row) (hacks : s.acks = (seq, ok) :: acks)
    (hreads : s.readsAnswers = true) :
    (({ s with acks } : ToolState Schema).answerResync seq ok |>.answerReconcile row seq
      ok).ModeInv row := by
  have hsub : ({ s with acks } : ToolState Schema).seqs.Sublist s.seqs := by
    rw [seqs, seqs, hacks]
    exact List.sublist_cons_self _ _
  have hmem : seq ∈ s.seqs := by
    rw [seqs, hacks]
    exact List.mem_cons_self
  have hgreeting := hordered.greeted (isSent_of_readsAnswers hreads).1
  have hordered' : (({ s with acks } : ToolState Schema).answerResync seq ok).Ordered :=
    (hordered.of_sublist hsub rfl rfl rfl hordered.greeted).answerResync
  have htail : ∀ listed, s.Published row listed →
      (({ s with acks } : ToolState Schema).answerResync seq ok).Published row listed := by
    intro listed hpublished
    have hpublished' : ({ s with acks } : ToolState Schema).Published row listed :=
      hpublished.of_subset rfl hpublished.router hpublished.own hpublished.greeting
        (List.Subset.refl _) hsub.subset fun _ _ hn => hn
    exact hpublished'.answerResync fun p hp => hpublished.resync seq p hp hmem
  have hmodes : ∀ n listed, s.InModes row n listed →
      (({ s with acks } : ToolState Schema).answerResync seq ok).InModes row n listed := by
    intro n listed hin
    have hin' : ({ s with acks } : ToolState Schema).InModes row n listed :=
      hin.of_subset rfl (List.Subset.refl _)
        (fun hack => hin.accepted (hacks ▸ List.mem_cons_of_mem _ hack)) hin.due fun _ _ hm => hm
    unfold ToolState.answerResync
    split
    · split_ifs
      · exact hin'
      · exact hin'.of_subset rfl (List.Subset.refl _) hin'.accepted (fun hdue => (by cases hdue))
          fun _ _ hm => (by cases hm)
      · exact hin'.of_subset rfl (List.Subset.refl _) hin'.accepted (fun hdue => (by cases hdue))
          fun _ _ hm => (by cases hm)
    · exact hin'
  have happlied : (({ s with acks } : ToolState Schema).answerResync seq ok).applied =
      s.applied := by
    unfold ToolState.answerResync
    split
    · split_ifs <;> rfl
    · rfl
  have hrest : (({ s with acks } : ToolState Schema).answerResync seq ok).ModeInv row :=
    h.of_subset answerResync_applying happlied hmodes htail
  unfold ToolState.answerReconcile
  split
  · exact hrest
  · next n listed hn =>
    have happlying : s.applying = .modes n listed := by simpa using hn
    have hnone : s.applied = none := by
      refine Option.eq_none_iff_forall_ne_some.2 fun listed' ha => ?_
      obtain ⟨-, hidle, -⟩ := hcapabilities.applied listed' ha
      rw [happlying] at hidle
      cases hidle
    split_ifs with hne hok
    · exact hrest
    · obtain rfl := not_not.1 hne
      subst hok
      refine ((h.modes n listed happlying).published hordered hacks hgreeting).afterModes
        (hordered'.setInfo _ _) ?_
      exact happlied.trans hnone
    · refine hrest.idle rfl fun listed' ha => ?_
      cases hnone.symm.trans (happlied.symm.trans ha)
  · next n listed hn =>
    have happlying : s.applying = .capabilities n listed := by simpa using hn
    split_ifs with hne hok
    · exact hrest
    · refine ⟨fun _ _ hn => (by cases hn), fun _ _ hn => (by cases hn), fun listed' ha => ?_⟩
      obtain rfl := Option.some.inj ha
      have hpublished := htail listed (h.capabilities n listed happlying)
      exact hpublished.of_subset rfl hpublished.router
        (sets_capabilitiesUpdate.merge hpublished.own) hpublished.greeting (List.Subset.refl _)
        (List.Subset.refl _) fun _ _ hm => hm
    · exact hrest.idle rfl fun _ ha => (by cases ha)

/-- **The modes are kept.** -/
theorem ModeInv.step (h : s.ModeInv row) (hordered : s.Ordered)
    (hcapabilities : s.CapabilityInv row) (hallowed : s.allowed row e = true)
    (hstep : s.step row e = some s') : s'.ModeInv row := by
  have hsame : ∀ n p, s.resync = .awaiting n p → s.resync = .awaiting n p := fun _ _ hn => hn
  cases e with
  | list listed =>
    simp only [ToolState.step] at hstep
    split at hstep
    · next hidle => exact Option.some.inj hstep ▸ h.apply hordered hidle
    · cases hstep
  | handle v =>
    simp only [ToolState.step] at hstep
    split at hstep
    · next seq p flight hflight =>
      obtain rfl := Option.some.inj hstep
      exact h.of_subset (by cases v <;> rfl) (by cases v <;> rfl)
        (fun _ _ hin => hin.handle hordered hflight) fun _ hpublished => hpublished.handle hflight
    · cases hstep
  | ack =>
    simp only [ToolState.step] at hstep
    split at hstep
    · next seq ok acks hacks =>
      split_ifs at hstep with hreads
      exact Option.some.inj hstep ▸ h.ack hordered hcapabilities hacks hreads
    · cases hstep
  | timeout =>
    have hkept : ∀ {s' : ToolState Schema}, s' = { s with applying := .idle } →
        s'.ModeInv row := by
      rintro _ rfl
      exact h.idle rfl fun _ ha => ⟨ha, fun hpublished => hpublished.of_subset rfl
        hpublished.router hpublished.own hpublished.greeting (List.Subset.refl _)
        (List.Subset.refl _) hsame⟩
    simp only [ToolState.step] at hstep
    split at hstep
    · cases hstep
    · exact hkept (Option.some.inj hstep).symm
    · exact Option.some.inj hstep ▸ h.idle rfl fun _ ha => (by cases ha)
  | resync =>
    simp only [ToolState.step] at hstep
    split at hstep
    · next hdue =>
      obtain rfl := Option.some.inj hstep
      refine ⟨fun n listed hn => ?_, fun n listed hn => ?_, fun listed ha => ?_⟩
      · have hn : s.applying = .modes n listed := hn
        exact (h.modes n listed hn).sendResync (hordered.awaited n (by rw [hn]; rfl)) hdue
      · exact (h.capabilities n listed hn).sendResync hordered
      · exact (h.applied listed ha).sendResync hordered
    · cases hstep
  | resyncTimeout =>
    simp only [ToolState.step] at hstep
    split at hstep
    · obtain rfl := Option.some.inj hstep
      exact h.of_subset rfl rfl
        (fun n listed hin => hin.of_subset rfl (List.Subset.refl _) hin.accepted
          (fun hdue => (by cases hdue)) fun _ _ hm => (by cases hm))
        fun listed hpublished => hpublished.of_subset rfl hpublished.router hpublished.own
          hpublished.greeting (List.Subset.refl _) (List.Subset.refl _) fun _ _ hm => (by cases hm)
    · cases hstep
  | disconnect =>
    simp only [ToolState.step] at hstep
    split_ifs at hstep
    obtain rfl := Option.some.inj hstep
    exact h.of_subset rfl rfl
      (fun n listed hin => hin.of_subset rfl (List.Subset.refl _) hin.accepted hin.due hsame)
      fun listed hpublished => hpublished.of_subset rfl hpublished.router hpublished.own
        hpublished.greeting (List.Subset.refl _) (List.Subset.refl _) hsame
  | lose n =>
    simp only [ToolState.step] at hstep
    split_ifs at hstep
    obtain rfl := Option.some.inj hstep
    have hsub : (s.flight.eraseIdx n).Sublist s.flight := List.eraseIdx_sublist ..
    exact h.of_subset rfl rfl
      (fun n listed hin => hin.of_subset rfl hsub.subset hin.accepted hin.due hsame)
      fun listed hpublished => hpublished.of_subset rfl hpublished.router hpublished.own
        hpublished.greeting hsub.subset
        ((List.Sublist.refl _).append (hsub.map Prod.fst)).subset hsame
  | requeue n =>
    simp only [ToolState.step] at hstep
    split_ifs at hstep
    rw [eraseIdx_append_getElem? (of_decide_eq_true hallowed)] at hstep
    exact Option.some.inj hstep ▸ h
  | loseAck n =>
    simp only [ToolState.step] at hstep
    split_ifs at hstep
    obtain rfl := Option.some.inj hstep
    have hsub : (s.acks.eraseIdx n).Sublist s.acks := List.eraseIdx_sublist ..
    exact h.of_subset rfl rfl
      (fun n listed hin => hin.of_subset rfl (List.Subset.refl _)
        (fun hack => hin.accepted (hsub.subset hack)) hin.due hsame)
      fun listed hpublished => hpublished.of_subset rfl hpublished.router hpublished.own
        hpublished.greeting (List.Subset.refl _)
        ((hsub.map Prod.fst).append (List.Sublist.refl _)).subset hsame
  | requeueAck n =>
    simp only [ToolState.step] at hstep
    split_ifs at hstep
    rw [eraseIdx_append_getElem? (of_decide_eq_true hallowed)] at hstep
    exact Option.some.inj hstep ▸ h
  | hello =>
    simp only [ToolState.step] at hstep
    split_ifs at hstep
    obtain rfl := Option.some.inj hstep
    exact h.of_subset rfl rfl
      (fun n listed hin => hin.of_subset rfl (List.Subset.refl _) hin.accepted hin.due hsame)
      fun listed hpublished => hpublished.of_subset rfl hpublished.router hpublished.own
        (fun _ hinfo => Option.some.inj hinfo ▸ hpublished.own) (List.Subset.refl _)
        (List.Subset.refl _) hsame
  | welcome =>
    obtain ⟨info, hinfo, rfl⟩ := Option.map_eq_some_iff.1 hstep
    refine ⟨fun n listed hn => ?_, fun n listed hn => (h.capabilities n listed hn).welcome hinfo,
      fun listed ha => (h.applied listed ha).welcome hinfo⟩
    have hn : s.applying = .modes n listed := hn
    have hin := h.modes n listed hn
    refine hin.of_subset rfl (List.Subset.refl _) (fun hack => ?_) hin.due hsame
    rw [allowed, hn] at hallowed
    exact absurd hack (of_decide_eq_true hallowed)
  | connect =>
    simp only [ToolState.step] at hstep
    split at hstep
    · next hoffline =>
      split_ifs at hstep
      obtain rfl := Option.some.inj hstep
      have hidle : s.applying = .idle := by
        by_contra hne
        exact hordered.online hne hoffline
      exact h.idle hidle fun _ ha => ⟨ha, fun hpublished => hpublished.of_subset rfl
        hpublished.router hpublished.own hpublished.greeting (List.Subset.refl _)
        (List.Subset.refl _) fun _ _ hm => (by cases hm)⟩
    · cases hstep

/-! ### What is claimed -/

theorem mem_foldl_insert {V : Type} (f : ToolDefinition Schema → V)
    (tools : List (ToolDefinition Schema)) (modes : Table String V) (m : String) :
    m ∈ tools.foldl (fun modes t => modes.insert t.name (f t)) modes ↔
      m ∈ modes ∨ m ∈ tools.map ToolDefinition.name := by
  induction tools generalizing modes with
  | nil => simp
  | cons t tools ih =>
    rw [List.foldl_cons, ih, AList.mem_insert, List.map_cons, List.mem_cons]
    constructor
    · rintro ((h | h) | h)
      · exact .inr (.inl h)
      · exact .inl h
      · exact .inr (.inr h)
    · rintro (h | h | h)
      · exact .inl (.inr h)
      · exact .inl (.inl h)
      · exact .inr h

theorem mem_handlersFor {tools : List (ToolDefinition Schema)} {m : String} :
    m ∈ handlersFor tools ↔ m ∈ acceptsSchemaFor tools := by
  rw [handlersFor, acceptsSchemaFor, mem_foldl_insert ToolDefinition.name,
    mem_foldl_insert ToolDefinition.inputSchema]
  simp

/-- What holds at any time is what is claimed. -/
theorem ModeInv.converged (h : s.ModeInv row) (hcapabilities : s.CapabilityInv row)
    (happlied : s.applied = some listed) : s.Converged row listed := by
  obtain ⟨hknown, hidle, honline⟩ := hcapabilities.applied listed happlied
  have hpublished := h.applied listed happlied
  refine ⟨hpublished.router, ?_, fun m => ?_⟩
  · rw [← hknown]
    refine hcapabilities.router (.inr honline) fun n listed hn => ?_
    rw [hidle] at hn
    cases hn
  · rw [hpublished.handlers]
    exact mem_handlersFor

end ToolState

/-! ### Convergence -/

variable {row : ServerBridgeRow} {first listed : List (ToolDefinition Schema)}
  {router : AgentInfo Schema} {s : ToolState Schema}

/-- **The router has what the tools say.**  Whatever lists come, whatever becomes of the updates
and wherever connections break: as long as the update of the capabilities never fails and no
update or answer is overtaken, once a reconcile is over whose updates were accepted the router has
the modes, schemas and capabilities of its tools, and the agent has handlers of these modes. -/
theorem tools_converge (hs : (toolSystem row first router).Reaches
    (fun s e => s.allowed row e = true) s) (happlied : s.applied = some listed) :
    s.Converged row listed := by
  have hinv : (toolSystem row first router).Invariant (fun s e => s.allowed row e = true)
      fun s => s.Ordered ∧ s.CapabilityInv row ∧ s.ModeInv row := by
    refine ⟨⟨?_, ?_, ?_⟩, fun ⟨hordered, hcapabilities, hmodes⟩ hallowed hstep =>
      ⟨hordered.step hallowed hstep, hcapabilities.step hordered hallowed hstep,
        hmodes.step hordered hcapabilities hallowed hstep⟩⟩
    · exact ⟨List.Pairwise.nil, fun _ hm => (by cases hm), fun _ _ hn => (by cases hn),
        fun _ hn => (by cases hn), fun _ _ hn => (by cases hn), fun _ _ hn => (by cases hn),
        fun hne => absurd rfl hne, fun _ => rfl⟩
    · refine ⟨fun _ => Iff.rfl, fun _ hinfo => (by cases hinfo), fun _ _ hp => (by cases hp),
        fun _ _ _ hn => (by cases hn), fun hup => ?_, fun _ _ hn => (by cases hn),
        fun _ _ hn => (by cases hn), fun _ ha => (by cases ha)⟩
      rcases hup with hup | hup
      · cases hup
      · exact absurd rfl hup
    · exact ⟨fun _ _ hn => (by cases hn), fun _ _ hn => (by cases hn),
        fun _ ha => (by cases ha)⟩
  obtain ⟨-, hcapabilities, hmodes⟩ := hinv.of_reaches hs
  exact hmodes.converged hcapabilities happlied

section

/-- The row of the runs below. -/
def anyServer : ServerBridgeRow where
  serverId := "srv"
  url := none
  transport := "sse"
  authKind := "none"
  authValueRef := none
  authHeaderName := none
  groups := []
  exposeToLlm := true
  refreshRequestedAt := none
  pendingInvitationToken := none
  capabilities := []
  disabledTools := ["x"]
  command := none
  args := []
  envRefs := []

/-- The tools that are listed first. -/
def fewTools : List (ToolDefinition ℕ) := [⟨"a", 1⟩]

/-- The tools that are listed then; one of them is disabled. -/
def moreTools : List (ToolDefinition ℕ) := [⟨"a", 1⟩, ⟨"b", 2⟩, ⟨"x", 3⟩]

/-- The agent comes online, and the tools change; the update of the capabilities is handled so. -/
def changeRun (v : UpdateVerdict) : List (ToolEvent ℕ) :=
  [.hello, .welcome, .connect, .resync, .handle .accepted, .ack, .list moreTools,
    .handle .accepted, .ack, .handle v, .ack]

/-- A reconcile of tools that are the same. -/
def againRun : List (ToolEvent ℕ) := [.list moreTools, .handle .accepted, .ack]

/-- The system of the runs below. -/
def anyToolSystem : EventSystem (ToolState ℕ) (ToolEvent ℕ) :=
  toolSystem anyServer fewTools ⟨"", [], none, []⟩

/-- The tools change, and the router has the new ones. -/
theorem tools_converge_change : ∃ s : ToolState ℕ, s.applied = some moreTools ∧
    s.Converged anyServer moreTools := by
  have h : (anyToolSystem.run (ToolState.allowed anyServer) anyToolSystem.init
      (changeRun .accepted ++ againRun)).map ToolState.applied = some (some moreTools) := by
    decide +kernel
  obtain ⟨s, hs, happlied⟩ := Option.map_eq_some_iff.1 h
  exact ⟨s, happlied, tools_converge (.of_run (fun _ _ h => h) hs) happlied⟩

/-- **A refused update of the capabilities is not sent again.**  The names are known then, and the
next reconcile, all of whose updates are accepted, leaves the router without the capability of the
new tool. -/
theorem refused_capabilities_stay : ¬ ∀ s listed, anyToolSystem.Reaches (fun _ _ => True) s →
    s.applied = some listed → s.Converged anyServer listed := by
  intro hall
  have h : (anyToolSystem.run (fun _ _ => true) anyToolSystem.init
      (changeRun .refused ++ againRun)).map (fun s => (s.applied, s.router.capabilities)) =
        some (some moreTools, ["mcp.bridge", "mcp.tool.a"]) := by
    decide +kernel
  obtain ⟨s, hs, hread⟩ := Option.map_eq_some_iff.1 h
  obtain ⟨happlied, hcapabilities⟩ := Prod.mk.inj hread
  have hconverged := hall s moreTools (.of_run (fun _ _ _ => trivial) hs) happlied
  have hmem : "mcp.tool.b" ∈ s.router.capabilities :=
    (hconverged.capabilities _).2 (by decide +kernel)
  rw [hcapabilities] at hmem
  exact absurd hmem (by decide)

end

end Backplane.Mcp
