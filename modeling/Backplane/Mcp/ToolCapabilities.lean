import Backplane.Mcp.ToolUpdates

/-!
# The capabilities of the agent

The capabilities are sent only when the names of the tools change, and the names are remembered
even when that update fails; nothing sends them again then.

* `ToolState.allowed` : the update of the capabilities does not fail, and a connection that breaks
  leaves the updates and the answers in order.
* `ToolState.Ordered` : updates and answers are in order.
* `ToolState.CapabilityInv` : the agent, and the router, have the capabilities of the tools that
  the bridge knows.
-/

namespace Backplane.Mcp

variable {Schema : Type}

/-- The update whose answer is awaited. -/
def Applying.awaited : Applying Schema → Option ℕ
  | idle => none
  | modes n _ | capabilities n _ => some n

/-- The task of the start has sent its update. -/
def Resync.isSent : Resync Schema → Bool
  | offline | due => false
  | awaiting _ _ | ended => true

namespace ToolState

section

variable (row : ServerBridgeRow) (s : ToolState Schema)

/-! ### What may happen -/

/-- The update of the capabilities does not fail; updates and answers are not overtaken; and a new
connection does not come between an update that is accepted and its answer. -/
def allowed : ToolEvent Schema → Bool
  | .list listed => match s.resync with
    | .offline => (row.enabledTools listed).any (fun t => t.name = "") ||
        !namesChanged s.knownTools (row.enabledTools listed)
    | _ => true
  | .ack => match s.applying, s.acks with
    | .capabilities n _, (seq, false) :: _ => n ≠ seq
    | _, _ => true
  | .timeout => match s.applying with
    | .capabilities _ _ => false
    | _ => true
  | .requeue n => s.flight.length ≤ n + 1
  | .requeueAck n => s.acks.length ≤ n + 1
  | .welcome => s.applying.awaited.all fun n => (n, true) ∉ s.acks
  | _ => true

/-- The capabilities are those of the tools, and those of the row. -/
def CapabilitiesOf (caps : List String) (tools : List (ToolDefinition Schema)) : Prop :=
  ∀ c, c ∈ caps ↔ c ∈ buildCapabilities tools row.capabilities

/-! ### What holds at any time -/

/-- The updates on their way, in the order in which their answers come. -/
def seqs : List ℕ := s.acks.map Prod.fst ++ s.flight.map Prod.fst

/-- Updates and answers are in order. -/
structure Ordered : Prop where
  /-- They are in order. -/
  ordered : s.seqs.Pairwise (· < ·)
  /-- They have been sent. -/
  sent : ∀ m ∈ s.seqs, m < s.next
  /-- So has the update of the start. -/
  resync : ∀ n p, s.resync = .awaiting n p → n < s.next
  /-- So has the update that is awaited. -/
  awaited : ∀ n, s.applying.awaited = some n → n < s.next
  /-- No update follows that of the capabilities. -/
  last : ∀ n listed, s.applying = .capabilities n listed → ∀ m ∈ s.seqs, m ≤ n
  /-- The update of the start comes before that of the capabilities. -/
  isSent : ∀ n listed, s.applying = .capabilities n listed → s.resync.isSent = true
  /-- An update is awaited only if there is a dispatcher. -/
  online : s.applying ≠ .idle → s.resync ≠ .offline
  /-- A Hello is on its way only while the connection is down. -/
  greeted : s.isUp = true → s.greeting = none

end

variable {row : ServerBridgeRow} {s s' : ToolState Schema} {listed : List (ToolDefinition Schema)}
  {p : AgentInfoUpdate Schema} {seq n : ℕ} {ok : Bool} {v : UpdateVerdict}
  {e : ToolEvent Schema}

theorem seqs_send : (s.send p).seqs = s.seqs ++ [s.next] := by
  simp [seqs, send]

theorem Ordered.pairwise_send (h : s.Ordered) : (s.seqs ++ [s.next]).Pairwise (· < ·) := by
  refine List.pairwise_append.2 ⟨h.ordered, List.pairwise_singleton _ _, fun m hm n hn => ?_⟩
  obtain rfl := List.mem_singleton.1 hn
  exact h.sent m hm

theorem Ordered.sent_send (h : s.Ordered) : ∀ m ∈ s.seqs ++ [s.next], m < s.next + 1 := by
  intro m hm
  rcases List.mem_append.1 hm with hm | hm
  · exact Nat.lt_succ_of_lt (h.sent m hm)
  · obtain rfl := List.mem_singleton.1 hm
    exact Nat.lt_succ_self _

/-- What is left of the updates and the answers is in order. -/
theorem Ordered.of_sublist (h : s.Ordered) (hsub : s'.seqs.Sublist s.seqs)
    (hnext : s'.next = s.next) (hresync : s'.resync = s.resync)
    (happlying : s'.applying = s.applying) (hgreeted : s'.isUp = true → s'.greeting = none) :
    s'.Ordered where
  ordered := h.ordered.sublist hsub
  sent m hm := hnext ▸ h.sent m (hsub.subset hm)
  resync n p hn := hnext ▸ h.resync n p (hresync ▸ hn)
  awaited n hn := hnext ▸ h.awaited n (happlying ▸ hn)
  last n listed hn m hm := h.last n listed (happlying ▸ hn) m (hsub.subset hm)
  isSent n listed hn := hresync ▸ h.isSent n listed (happlying ▸ hn)
  online hn := hresync ▸ h.online (happlying ▸ hn)
  greeted := hgreeted

theorem Ordered.idle (h : s.Ordered) (hs : s'.applying = .idle) (hseqs : s'.seqs = s.seqs)
    (hnext : s'.next = s.next) (hresync : s'.resync = s.resync)
    (hgreeted : s'.isUp = true → s'.greeting = none) : s'.Ordered where
  ordered := hseqs ▸ h.ordered
  sent m hm := hnext ▸ h.sent m (hseqs ▸ hm)
  resync n p hn := hnext ▸ h.resync n p (hresync ▸ hn)
  awaited n hn := by
    rw [hs] at hn
    cases hn
  last n listed hn := by
    rw [hs] at hn
    cases hn
  isSent n listed hn := by
    rw [hs] at hn
    cases hn
  online hn := absurd hs hn
  greeted := hgreeted

theorem Ordered.sendModes (h : s.Ordered) (honline : s.resync ≠ .offline)
    {applied : Option (List (ToolDefinition Schema))} :
    ({ s.send p with applying := .modes s.next listed, applied } : ToolState Schema).Ordered where
  ordered := by
    have hseqs := h.pairwise_send
    rwa [← seqs_send (p := p)] at hseqs
  sent := by
    have hsent := h.sent_send
    rwa [← seqs_send (p := p)] at hsent
  resync n p hn := Nat.lt_succ_of_lt (h.resync n p hn)
  awaited n hn := by
    obtain rfl := Option.some.inj hn
    exact Nat.lt_succ_self _
  last _ _ hn := (by cases hn)
  isSent _ _ hn := (by cases hn)
  online _ := honline
  greeted := h.greeted

theorem Ordered.sendCapabilities (h : s.Ordered) (hsent : s.resync.isSent = true) :
    ({ s.send p with applying := .capabilities s.next listed } : ToolState Schema).Ordered where
  ordered := by
    have hseqs := h.pairwise_send
    rwa [← seqs_send (p := p)] at hseqs
  sent := by
    have hsent := h.sent_send
    rwa [← seqs_send (p := p)] at hsent
  resync n p hn := Nat.lt_succ_of_lt (h.resync n p hn)
  awaited n hn := by
    obtain rfl := Option.some.inj hn
    exact Nat.lt_succ_self _
  last n listed' hn m hm := by
    cases hn
    have hm : m ∈ s.seqs ++ [s.next] := seqs_send (p := p) ▸ hm
    exact Nat.le_of_lt_succ (h.sent_send m hm)
  isSent _ _ _ := hsent
  online _ hoffline := by
    rw [show s.resync = .offline from hoffline] at hsent
    cases hsent
  greeted := h.greeted

theorem Ordered.sendResync (h : s.Ordered) (hdue : s.resync = .due) :
    ({ s.send p with resync := .awaiting s.next p } : ToolState Schema).Ordered where
  ordered := by
    have hseqs := h.pairwise_send
    rwa [← seqs_send (p := p)] at hseqs
  sent := by
    have hsent := h.sent_send
    rwa [← seqs_send (p := p)] at hsent
  resync n p hn := by
    cases hn
    exact Nat.lt_succ_self _
  awaited n hn := Nat.lt_succ_of_lt (h.awaited n hn)
  last n listed hn := by
    have hsent := h.isSent n listed hn
    rw [hdue] at hsent
    cases hsent
  isSent _ _ _ := rfl
  online _ := by simp
  greeted := h.greeted

theorem Ordered.endResync (h : s.Ordered) {info : AgentInfo Schema} :
    ({ s with info, resync := .ended } : ToolState Schema).Ordered where
  ordered := h.ordered
  sent := h.sent
  resync _ _ hn := (by cases hn)
  awaited := h.awaited
  last := h.last
  isSent _ _ _ := rfl
  online _ := by simp
  greeted := h.greeted

theorem Ordered.answerResync (h : s.Ordered) : (s.answerResync seq ok).Ordered := by
  unfold ToolState.answerResync
  split
  · split_ifs
    · exact h
    · exact h.endResync
    · exact h.endResync
  · exact h

theorem isSent_answerResync (h : s.resync.isSent = true) :
    (s.answerResync seq ok).resync.isSent = true := by
  unfold ToolState.answerResync
  split
  · split_ifs
    · exact h
    · rfl
    · rfl
  · exact h

theorem Ordered.setInfo (h : s.Ordered) (handlers : Table String String)
    (info : AgentInfo Schema) : ({ s with handlers, info } : ToolState Schema).Ordered :=
  h.of_sublist (List.Sublist.refl _) rfl rfl rfl h.greeted

theorem Ordered.answerReconcile (h : s.Ordered) (hsent : s.resync.isSent = true) :
    (s.answerReconcile row seq ok).Ordered := by
  unfold ToolState.answerReconcile
  split
  · exact h
  · split_ifs
    · exact h
    · rw [afterModes]
      split_ifs
      · exact (h.setInfo s.handlers (s.info.merge (modesUpdate row _))).sendCapabilities hsent
      · exact h.idle rfl rfl rfl rfl h.greeted
    · exact h.idle rfl rfl rfl rfl h.greeted
  · split_ifs
    · exact h
    · exact h.idle rfl rfl rfl rfl h.greeted
    · exact h.idle rfl rfl rfl rfl h.greeted

theorem isSent_of_readsAnswers (h : s.readsAnswers = true) :
    s.isUp = true ∧ s.resync.isSent = true := by
  rw [readsAnswers, Bool.and_eq_true] at h
  refine ⟨h.1, ?_⟩
  cases hresync : s.resync <;> simp_all [Resync.isSent]

theorem Ordered.apply (h : s.Ordered) : (s.apply row listed).Ordered := by
  rw [ToolState.apply]
  split_ifs
  · exact h.of_sublist (List.Sublist.refl _) rfl rfl rfl h.greeted
  · dsimp only
    split
    · exact h.idle rfl rfl rfl rfl h.greeted
    · next hoffline =>
      exact (h.setInfo (handlersFor (row.enabledTools listed))
        (s.info.merge (modesUpdate row listed))).sendModes hoffline

theorem handle_seqs : (s.handle seq p v).seqs.Sublist
    (s.acks.map Prod.fst ++ seq :: s.flight.map Prod.fst) := by
  cases v with
  | accepted | refused => simp [ToolState.handle, seqs]
  | failed | unanswered =>
    exact (List.Sublist.refl _).append (List.sublist_cons_self _ _)

theorem Ordered.handle {flight : List (ℕ × AgentInfoUpdate Schema)} (h : s.Ordered)
    (hflight : s.flight = (seq, p) :: flight) : ({ s with flight }.handle seq p v).Ordered := by
  have hsub : ({ s with flight }.handle seq p v).seqs.Sublist s.seqs := by
    refine (handle_seqs (s := { s with flight })).trans ?_
    rw [seqs, hflight]
    rfl
  refine h.of_sublist hsub ?_ ?_ ?_ ?_ <;> cases v <;> first | rfl | exact h.greeted

/-- The last of a list goes behind the others. -/
theorem eraseIdx_append_getElem? {α : Type} {l : List α} (h : l.length ≤ n + 1) :
    l.eraseIdx n ++ (l[n]?).toList = l := by
  rw [List.eraseIdx_eq_take_drop_succ, List.drop_of_length_le h, List.append_nil,
    ← List.take_add_one, List.take_of_length_le h]

/-- **Updates and answers stay in order.** -/
theorem Ordered.step (h : s.Ordered) (hallowed : s.allowed row e = true)
    (hstep : s.step row e = some s') : s'.Ordered := by
  cases e with
  | list listed =>
    simp only [ToolState.step] at hstep
    split at hstep
    · exact Option.some.inj hstep ▸ h.apply
    · cases hstep
  | handle v =>
    simp only [ToolState.step] at hstep
    split at hstep
    · next hflight => exact Option.some.inj hstep ▸ h.handle hflight
    · cases hstep
  | ack =>
    simp only [ToolState.step] at hstep
    split at hstep
    · next seq ok acks hacks =>
      split_ifs at hstep with hreads
      have hsub : ({ s with acks } : ToolState Schema).seqs.Sublist s.seqs := by
        rw [seqs, seqs, hacks]
        exact List.sublist_cons_self _ _
      have hrest : (({ s with acks } : ToolState Schema).answerResync seq ok).Ordered :=
        (h.of_sublist hsub rfl rfl rfl h.greeted).answerResync
      exact Option.some.inj hstep ▸ hrest.answerReconcile
        (isSent_answerResync (isSent_of_readsAnswers hreads).2)
    · cases hstep
  | timeout =>
    simp only [ToolState.step] at hstep
    split at hstep
    · cases hstep
    · exact Option.some.inj hstep ▸ h.idle rfl rfl rfl rfl h.greeted
    · exact Option.some.inj hstep ▸ h.idle rfl rfl rfl rfl h.greeted
  | resync =>
    simp only [ToolState.step] at hstep
    split at hstep
    · next hdue => exact Option.some.inj hstep ▸ h.sendResync hdue
    · cases hstep
  | resyncTimeout =>
    simp only [ToolState.step] at hstep
    split at hstep
    · exact Option.some.inj hstep ▸ h.endResync
    · cases hstep
  | disconnect =>
    simp only [ToolState.step] at hstep
    split_ifs at hstep
    exact Option.some.inj hstep ▸
      h.of_sublist (List.Sublist.refl _) rfl rfl rfl fun hup => (by cases hup)
  | lose n =>
    simp only [ToolState.step] at hstep
    split_ifs at hstep
    exact Option.some.inj hstep ▸ h.of_sublist
      ((List.Sublist.refl _).append ((List.eraseIdx_sublist ..).map _)) rfl rfl rfl h.greeted
  | requeue n =>
    simp only [ToolState.step] at hstep
    split_ifs at hstep
    rw [eraseIdx_append_getElem? (of_decide_eq_true hallowed)] at hstep
    exact Option.some.inj hstep ▸ h
  | loseAck n =>
    simp only [ToolState.step] at hstep
    split_ifs at hstep
    exact Option.some.inj hstep ▸ h.of_sublist
      (((List.eraseIdx_sublist ..).map _).append (List.Sublist.refl _)) rfl rfl rfl h.greeted
  | requeueAck n =>
    simp only [ToolState.step] at hstep
    split_ifs at hstep
    rw [eraseIdx_append_getElem? (of_decide_eq_true hallowed)] at hstep
    exact Option.some.inj hstep ▸ h
  | hello =>
    simp only [ToolState.step] at hstep
    split_ifs at hstep with hup
    exact Option.some.inj hstep ▸ h.of_sublist (List.Sublist.refl _) rfl rfl rfl
      fun hup' => absurd hup' hup
  | welcome =>
    obtain ⟨info, -, rfl⟩ := Option.map_eq_some_iff.1 hstep
    exact h.of_sublist (List.Sublist.refl _) rfl rfl rfl fun _ => rfl
  | connect =>
    simp only [ToolState.step] at hstep
    split at hstep
    · next hoffline =>
      split_ifs at hstep
      have hidle : s.applying = .idle := by
        by_contra hne
        exact h.online hne hoffline
      obtain rfl := Option.some.inj hstep
      refine ⟨h.ordered, h.sent, fun _ _ hn => (by cases hn), h.awaited, h.last,
        fun n listed hn => ?_, fun _ => by simp, h.greeted⟩
      rw [show s.applying = .capabilities n listed from hn] at hidle
      cases hidle
    · cases hstep

/-! ### The capabilities -/

theorem mem_foldl_dedup {c : String} (caps : List String) (acc : List String) :
    c ∈ caps.foldl (fun caps cap => if cap ∈ caps then caps else caps ++ [cap]) acc ↔
      c ∈ acc ∨ c ∈ caps := by
  induction caps generalizing acc with
  | nil => simp
  | cons cap caps ih =>
    rw [List.foldl_cons, ih, List.mem_cons]
    split_ifs with hcap
    · constructor
      · rintro (h | h)
        · exact .inl h
        · exact .inr (.inr h)
      · rintro (h | rfl | h)
        · exact .inl h
        · exact .inl hcap
        · exact .inr h
    · rw [List.mem_append, List.mem_singleton, or_assoc]

/-- The capabilities depend on the names only. -/
theorem mem_buildCapabilities {c : String} {tools : List (ToolDefinition Schema)}
    {extra : List String} : c ∈ buildCapabilities tools extra ↔ c = "mcp.bridge" ∨
      (∃ name ∈ tools.map ToolDefinition.name, "mcp.tool." ++ capabilitySegment name = c) ∨
        c ∈ extra := by
  rw [buildCapabilities, mem_foldl_dedup]
  simp

theorem capabilitiesOf_congr {caps : List String} {old new : List (ToolDefinition Schema)}
    (hsame : namesChanged old new = false) (h : CapabilitiesOf row caps old) :
    CapabilitiesOf row caps new := by
  have hnames : ∀ name, name ∈ old.map ToolDefinition.name ↔
      name ∈ new.map ToolDefinition.name := by
    intro name
    rw [namesChanged, Bool.or_eq_false_iff, List.any_eq_false, List.any_eq_false] at hsame
    constructor
    · intro hname
      obtain ⟨t, ht, rfl⟩ := List.mem_map.1 hname
      simpa using hsame.2 t ht
    · intro hname
      obtain ⟨t, ht, rfl⟩ := List.mem_map.1 hname
      simpa using hsame.1 t ht
  intro c
  rw [h c, mem_buildCapabilities, mem_buildCapabilities]
  simp only [hnames]

/-- The capabilities of the agent are those of the tools that the bridge knows. -/
structure CapabilityInv (row : ServerBridgeRow) (s : ToolState Schema) : Prop where
  /-- The agent has them. -/
  own : CapabilitiesOf row s.info.capabilities s.knownTools
  /-- The Hello has them. -/
  greeting : ∀ info, s.greeting = some info → CapabilitiesOf row info.capabilities s.knownTools
  /-- The updates have them, but for that of a change. -/
  flight : ∀ m p, (m, p) ∈ s.flight → (∀ listed, s.applying ≠ .capabilities m listed) →
    ∀ caps, p.capabilities = some caps → CapabilitiesOf row caps s.knownTools
  /-- The update of a change has the new ones. -/
  carried : ∀ n listed p, s.applying = .capabilities n listed → (n, p) ∈ s.flight →
    p = capabilitiesUpdate row listed
  /-- The router has them, but for a change. -/
  router : s.isUp = true ∨ s.resync ≠ .offline →
    (∀ n listed, s.applying ≠ .capabilities n listed) →
      CapabilitiesOf row s.router.capabilities s.knownTools
  /-- The router has the new ones once it has accepted a change. -/
  accepted : ∀ n listed, s.applying = .capabilities n listed → (n, true) ∈ s.acks →
    CapabilitiesOf row s.router.capabilities (row.enabledTools listed)
  /-- The update of the start has them. -/
  resync : ∀ n p, s.resync = .awaiting n p → n ∈ s.seqs → ∀ caps, p.capabilities = some caps →
    CapabilitiesOf row caps s.knownTools
  /-- The tools of a reconcile that is over are known. -/
  applied : ∀ listed, s.applied = some listed →
    s.knownTools = row.enabledTools listed ∧ s.applying = .idle ∧ s.resync ≠ .offline

theorem merge_capabilities_of_none {info : AgentInfo Schema} (h : p.capabilities = none) :
    (info.merge p).capabilities = info.capabilities := by
  rw [AgentInfo.merge, h]
  rfl

theorem capabilitiesOf_merge {info : AgentInfo Schema} {tools : List (ToolDefinition Schema)}
    (hinfo : CapabilitiesOf row info.capabilities tools)
    (hp : ∀ caps, p.capabilities = some caps → CapabilitiesOf row caps tools) :
    CapabilitiesOf row (info.merge p).capabilities tools := by
  cases hcaps : p.capabilities with
  | none => rwa [merge_capabilities_of_none hcaps]
  | some caps =>
    have hmerge : (info.merge p).capabilities = caps := by
      rw [AgentInfo.merge, hcaps]
      rfl
    rw [hmerge]
    exact hp caps hcaps

/-- While the router has accepted a change of the capabilities, no update is on its way. -/
theorem Ordered.flight_eq_nil (h : s.Ordered) (happlying : s.applying = .capabilities n listed)
    (hack : (n, ok) ∈ s.acks) : s.flight = [] := by
  refine List.eq_nil_iff_forall_not_mem.2 fun f hf => ?_
  have hlt := (List.pairwise_append.1 h.ordered).2.2 n (List.mem_map_of_mem hack) f.1
    (List.mem_map_of_mem hf)
  have hle := h.last n listed happlying f.1
    (List.mem_append_right _ (List.mem_map_of_mem hf))
  omega

theorem CapabilityInv.apply (h : s.CapabilityInv row) (hordered : s.Ordered)
    (hidle : s.applying = .idle) (hallowed : s.allowed row (.list listed) = true) :
    (s.apply row listed).CapabilityInv row := by
  have hne : ∀ m listed, s.applying ≠ .capabilities m listed := by
    intro m listed heq
    rw [hidle] at heq
    cases heq
  rw [ToolState.apply]
  split_ifs with hempty
  · exact ⟨h.own, h.greeting, h.flight, h.carried, h.router, h.accepted, h.resync,
      fun _ ha => (by cases ha)⟩
  · dsimp only
    split
    · next hoffline =>
      have hsame : namesChanged s.knownTools (row.enabledTools listed) = false := by
        simpa [allowed, hoffline, hempty] using hallowed
      refine ⟨capabilitiesOf_congr hsame h.own,
        fun info hinfo => capabilitiesOf_congr hsame (h.greeting info hinfo),
        fun m p hp _ caps hcaps => capabilitiesOf_congr hsame (h.flight m p hp (hne m) caps hcaps),
        fun _ _ _ hn => (by cases hn),
        fun hup _ => capabilitiesOf_congr hsame (h.router hup hne),
        fun _ _ hn => (by cases hn),
        fun n p hn hseq caps hcaps => capabilitiesOf_congr hsame (h.resync n p hn hseq caps hcaps),
        fun _ ha => (by cases ha)⟩
    · refine ⟨h.own, h.greeting, fun m p hp _ caps hcaps => ?_, fun _ _ _ hn => (by cases hn),
        fun hup _ => h.router hup hne, fun _ _ hn => (by cases hn),
        fun n p hn hseq => h.resync n p hn ?_, fun _ ha => (by cases ha)⟩
      · rcases List.mem_append.1 hp with hp | hp
        · exact h.flight m p hp (hne m) caps hcaps
        · cases List.mem_singleton.1 hp
          cases hcaps
      · have hseq : n ∈ s.seqs ++ [s.next] := seqs_send (p := modesUpdate row listed) ▸ hseq
        refine (List.mem_append.1 hseq).resolve_right fun hnext => ?_
        have hlt := hordered.resync n p hn
        rw [List.mem_singleton.1 hnext] at hlt
        exact lt_irrefl _ hlt

theorem CapabilityInv.handle {flight : List (ℕ × AgentInfoUpdate Schema)}
    (h : s.CapabilityInv row) (hordered : s.Ordered) (hflight : s.flight = (seq, p) :: flight) :
    ({ s with flight }.handle seq p v).CapabilityInv row := by
  have hmem : (seq, p) ∈ s.flight := hflight ▸ List.mem_cons_self
  have hrest : ∀ f ∈ flight, f ∈ s.flight := fun f hf => hflight ▸ List.mem_cons_of_mem _ hf
  -- an accepted change has no update after it
  have hnone : ∀ n listed, s.applying = .capabilities n listed → (n, true) ∈ s.acks → False := by
    intro n listed hn hack
    rw [hordered.flight_eq_nil hn hack] at hmem
    cases hmem
  have hmerged : (∀ n listed, s.applying ≠ .capabilities n listed) →
      s.isUp = true ∨ s.resync ≠ .offline →
      CapabilitiesOf row (s.router.merge p).capabilities s.knownTools := by
    intro hne hup
    exact capabilitiesOf_merge (h.router hup hne) (h.flight seq p hmem (hne seq))
  have hseqs : ∀ n ∈ ({ s with flight }.handle seq p v).seqs, n ∈ s.seqs := by
    intro n hn
    have hn := handle_seqs.subset hn
    rwa [seqs, hflight]
  have hresync := fun n p hn hseq => h.resync n p hn (hseqs n hseq)
  cases v with
  | accepted =>
    refine ⟨h.own, h.greeting, fun m p hp => h.flight m p (hrest _ hp),
      fun n listed p hn hp => h.carried n listed p hn (hrest _ hp),
      fun hup hne => hmerged hne hup, fun n listed hn hack => ?_, hresync, h.applied⟩
    rcases List.mem_append.1 hack with hack | hack
    · exact (hnone n listed hn hack).elim
    · cases List.mem_singleton.1 hack
      rw [h.carried _ listed p hn hmem]
      exact fun _ => Iff.rfl
  | refused =>
    refine ⟨h.own, h.greeting, fun m p hp => h.flight m p (hrest _ hp),
      fun n listed p hn hp => h.carried n listed p hn (hrest _ hp), h.router,
      fun n listed hn hack => ?_, hresync, h.applied⟩
    rcases List.mem_append.1 hack with hack | hack
    · exact (hnone n listed hn hack).elim
    · cases List.mem_singleton.1 hack
  | failed =>
    exact ⟨h.own, h.greeting, fun m p hp => h.flight m p (hrest _ hp),
      fun n listed p hn hp => h.carried n listed p hn (hrest _ hp), h.router, h.accepted, hresync,
      h.applied⟩
  | unanswered =>
    exact ⟨h.own, h.greeting, fun m p hp => h.flight m p (hrest _ hp),
      fun n listed p hn hp => h.carried n listed p hn (hrest _ hp),
      fun hup hne => hmerged hne hup, fun n listed hn hack => (hnone n listed hn hack).elim,
      hresync, h.applied⟩

theorem CapabilityInv.answerResync (h : s.CapabilityInv row)
    (hp : ∀ p, s.resync = .awaiting seq p → ∀ caps, p.capabilities = some caps →
      CapabilitiesOf row caps s.knownTools) : (s.answerResync seq ok).CapabilityInv row := by
  unfold ToolState.answerResync
  split
  · next n p hresync =>
    split_ifs with hne hok
    · exact h
    · obtain rfl := not_not.1 hne
      refine ⟨capabilitiesOf_merge h.own (hp p hresync), h.greeting, h.flight, h.carried,
        fun _ => h.router (.inr (by simp [hresync])), h.accepted, fun _ _ hn => (by cases hn),
        fun listed ha => ?_⟩
      obtain ⟨hknown, hidle, -⟩ := h.applied listed ha
      exact ⟨hknown, hidle, by simp⟩
    · refine ⟨h.own, h.greeting, h.flight, h.carried,
        fun _ => h.router (.inr (by simp [hresync])), h.accepted, fun _ _ hn => (by cases hn),
        fun listed ha => ?_⟩
      obtain ⟨hknown, hidle, -⟩ := h.applied listed ha
      exact ⟨hknown, hidle, by simp⟩
  · exact h

/-- `set_modes` has returned. -/
theorem CapabilityInv.afterModes (h : s.CapabilityInv row) (hordered : s.Ordered)
    (happlying : s.applying = .modes n listed) :
    ({ s with info := s.info.merge (modesUpdate row listed) }.afterModes row
      listed).CapabilityInv row := by
  have hne : ∀ m listed, s.applying ≠ .capabilities m listed := by
    intro m listed heq
    rw [happlying] at heq
    cases heq
  have honline : s.resync ≠ .offline := hordered.online (by simp [happlying])
  rw [ToolState.afterModes]
  split_ifs with hchanged
  · refine ⟨h.own, h.greeting, fun m p hp hm caps hcaps => ?_, fun m listed' p hm hp => ?_,
      fun _ hm => absurd rfl (hm _ _), fun m listed' hm hack => ?_, fun m p hm hseq => ?_,
      fun listed' ha => ?_⟩
    · rcases List.mem_append.1 hp with hp | hp
      · exact h.flight m p hp (hne m) caps hcaps
      · cases List.mem_singleton.1 hp
        exact absurd rfl (hm listed)
    · cases hm
      rcases List.mem_append.1 hp with hp | hp
      · exact absurd (hordered.sent _ (List.mem_append_right _ (List.mem_map_of_mem hp)))
          (lt_irrefl _)
      · cases List.mem_singleton.1 hp
        rfl
    · cases hm
      exact absurd (hordered.sent _ (List.mem_append_left _ (List.mem_map_of_mem hack)))
        (lt_irrefl _)
    · refine h.resync m p hm ?_
      have hseq : m ∈ s.seqs ++ [s.next] := by
        simpa [seqs, send] using hseq
      refine (List.mem_append.1 hseq).resolve_right fun hnext => ?_
      have hlt := hordered.resync m p hm
      rw [List.mem_singleton.1 hnext] at hlt
      exact lt_irrefl _ hlt
    · obtain ⟨-, hidle, -⟩ := h.applied listed' ha
      rw [happlying] at hidle
      cases hidle
  · have hsame := Bool.not_eq_true _ ▸ hchanged
    refine ⟨capabilitiesOf_congr hsame h.own,
      fun info hinfo => capabilitiesOf_congr hsame (h.greeting info hinfo),
      fun m p hp _ caps hcaps => capabilitiesOf_congr hsame (h.flight m p hp (hne m) caps hcaps),
      fun _ _ _ hm => (by cases hm),
      fun hup _ => capabilitiesOf_congr hsame (h.router hup hne),
      fun _ _ hm => (by cases hm),
      fun m p hm hseq caps hcaps => capabilitiesOf_congr hsame (h.resync m p hm hseq caps hcaps),
      fun listed' ha => ?_⟩
    obtain rfl := Option.some.inj ha
    exact ⟨rfl, rfl, honline⟩

/-- The update of the capabilities was accepted. -/
theorem capabilityInv_finish (hordered : s.Ordered)
    (happlying : s.applying = .capabilities n listed) (hseqs : s.seqs = [])
    (hgreeting : s.greeting = none)
    (hrouter : CapabilitiesOf row s.router.capabilities (row.enabledTools listed)) :
    ({ s with info := s.info.merge (capabilitiesUpdate row listed) }.finish row listed
      true).CapabilityInv row := by
  have hflight : s.flight = [] := by
    rw [seqs, List.append_eq_nil_iff] at hseqs
    exact List.map_eq_nil_iff.1 hseqs.2
  refine ⟨fun _ => Iff.rfl, fun info hinfo => ?_, fun m p hp => ?_, fun _ _ _ hm => (by cases hm),
    fun _ _ => hrouter, fun _ _ hm => (by cases hm), fun m p hm hseq => ?_, fun listed' ha => ?_⟩
  · cases hgreeting.symm.trans hinfo
  · have hp : (m, p) ∈ s.flight := hp
    rw [hflight] at hp
    cases hp
  · have hseq : m ∈ s.seqs := hseq
    rw [hseqs] at hseq
    cases hseq
  · obtain rfl := Option.some.inj ha
    exact ⟨rfl, rfl, hordered.online (by simp [happlying])⟩

theorem CapabilityInv.idle (h : s.CapabilityInv row) (happlying : s.applying = .modes n listed) :
    ({ s with applying := .idle } : ToolState Schema).CapabilityInv row := by
  have hne : ∀ m listed, s.applying ≠ .capabilities m listed := by
    intro m listed heq
    rw [happlying] at heq
    cases heq
  refine ⟨h.own, h.greeting, fun m p hp _ => h.flight m p hp (hne m), fun _ _ _ hm => (by cases hm),
    fun hup _ => h.router hup hne, fun _ _ hm => (by cases hm), h.resync, fun listed' ha => ?_⟩
  obtain ⟨hknown, -, honline⟩ := h.applied listed' ha
  exact ⟨hknown, rfl, honline⟩

@[simp]
theorem answerResync_applying : (s.answerResync seq ok).applying = s.applying := by
  unfold ToolState.answerResync
  split
  · split_ifs <;> rfl
  · rfl

@[simp]
theorem answerResync_router : (s.answerResync seq ok).router = s.router := by
  unfold ToolState.answerResync
  split
  · split_ifs <;> rfl
  · rfl

@[simp]
theorem answerResync_greeting : (s.answerResync seq ok).greeting = s.greeting := by
  unfold ToolState.answerResync
  split
  · split_ifs <;> rfl
  · rfl

@[simp]
theorem answerResync_seqs : (s.answerResync seq ok).seqs = s.seqs := by
  unfold ToolState.answerResync
  split
  · split_ifs <;> rfl
  · rfl

/-- The answer to the update of the capabilities is the last. -/
theorem Ordered.tail_eq_nil {acks : List (ℕ × Bool)} (h : s.Ordered)
    (hacks : s.acks = (n, ok) :: acks) (happlying : s.applying = .capabilities n listed) :
    ({ s with acks } : ToolState Schema).seqs = [] := by
  have hseqs : s.seqs = n :: ({ s with acks } : ToolState Schema).seqs := by
    rw [seqs, hacks]
    rfl
  refine List.eq_nil_iff_forall_not_mem.2 fun m hm => ?_
  have hordered := h.ordered
  rw [hseqs] at hordered
  have hlt := List.rel_of_pairwise_cons hordered hm
  have hle := h.last n listed happlying m (hseqs ▸ List.mem_cons_of_mem _ hm)
  omega

theorem CapabilityInv.ack {acks : List (ℕ × Bool)} (h : s.CapabilityInv row)
    (hordered : s.Ordered) (hacks : s.acks = (seq, ok) :: acks) (hreads : s.readsAnswers = true)
    (hallowed : ∀ listed, s.applying = .capabilities seq listed → ok = true) :
    (({ s with acks } : ToolState Schema).answerResync seq ok |>.answerReconcile row seq
      ok).CapabilityInv row := by
  have hsub : ({ s with acks } : ToolState Schema).seqs.Sublist s.seqs := by
    rw [seqs, seqs, hacks]
    exact List.sublist_cons_self _ _
  have hmem : seq ∈ s.seqs := by
    rw [seqs, hacks]
    exact List.mem_cons_self
  have hgreeting := hordered.greeted (isSent_of_readsAnswers hreads).1
  have htail : ({ s with acks } : ToolState Schema).CapabilityInv row :=
    ⟨h.own, h.greeting, h.flight, h.carried, h.router,
      fun n listed hn hack => h.accepted n listed hn (hacks ▸ List.mem_cons_of_mem _ hack),
      fun n p hn hseq => h.resync n p hn (hsub.subset hseq), h.applied⟩
  have hresync : (({ s with acks } : ToolState Schema).answerResync seq ok).CapabilityInv row :=
    htail.answerResync fun p hp => h.resync seq p hp hmem
  have hordered' : (({ s with acks } : ToolState Schema).answerResync seq ok).Ordered :=
    (hordered.of_sublist hsub rfl rfl rfl hordered.greeted).answerResync
  unfold ToolState.answerReconcile
  split
  · exact hresync
  · next n listed hn =>
    split_ifs
    · exact hresync
    · exact hresync.afterModes hordered' hn
    · exact hresync.idle hn
  · next n listed hn =>
    split_ifs with hne hok
    · exact hresync
    · obtain rfl := not_not.1 hne
      have happlying : s.applying = .capabilities n listed := by simpa using hn
      refine capabilityInv_finish hordered' hn ?_ ?_ ?_
      · rw [answerResync_seqs]
        exact hordered.tail_eq_nil hacks happlying
      · rw [answerResync_greeting]
        exact hgreeting
      · rw [answerResync_router]
        exact h.accepted n listed happlying (hacks ▸ hok ▸ List.mem_cons_self)
    · obtain rfl := not_not.1 hne
      exact absurd (hallowed listed (by simpa using hn)) hok

/-- **The capabilities are kept.** -/
theorem CapabilityInv.step (h : s.CapabilityInv row) (hordered : s.Ordered)
    (hallowed : s.allowed row e = true) (hstep : s.step row e = some s') :
    s'.CapabilityInv row := by
  cases e with
  | list listed =>
    simp only [ToolState.step] at hstep
    split at hstep
    · next hidle => exact Option.some.inj hstep ▸ h.apply hordered hidle hallowed
    · cases hstep
  | handle v =>
    simp only [ToolState.step] at hstep
    split at hstep
    · next hflight => exact Option.some.inj hstep ▸ h.handle hordered hflight
    · cases hstep
  | ack =>
    simp only [ToolState.step] at hstep
    split at hstep
    · next seq ok acks hacks =>
      split_ifs at hstep with hreads
      refine Option.some.inj hstep ▸ h.ack hordered hacks hreads fun listed happlying => ?_
      rw [allowed, happlying, hacks] at hallowed
      cases ok <;> simp_all
    · cases hstep
  | timeout =>
    simp only [ToolState.step] at hstep
    split at hstep
    · cases hstep
    · next hn => exact Option.some.inj hstep ▸ h.idle hn
    · next hn => simp [allowed, hn] at hallowed
  | resync =>
    simp only [ToolState.step] at hstep
    split at hstep
    · next hdue =>
      obtain rfl := Option.some.inj hstep
      have hne : ∀ m listed, s.applying ≠ .capabilities m listed := by
        intro m listed hm
        have hsent := hordered.isSent m listed hm
        rw [hdue] at hsent
        cases hsent
      refine ⟨h.own, h.greeting, fun m p hp _ caps hcaps => ?_,
        fun n listed p hn _ => absurd hn (hne n listed),
        fun _ => h.router (.inr (by simp [hdue])), fun n listed hn _ => absurd hn (hne n listed),
        fun n p hn _ caps hcaps => ?_, fun listed ha => ?_⟩
      · rcases List.mem_append.1 hp with hp | hp
        · exact h.flight m p hp (hne m) caps hcaps
        · cases List.mem_singleton.1 hp
          cases hcaps
          exact h.own
      · cases hn
        cases hcaps
        exact h.own
      · obtain ⟨hknown, hidle, -⟩ := h.applied listed ha
        exact ⟨hknown, hidle, by simp⟩
    · cases hstep
  | resyncTimeout =>
    simp only [ToolState.step] at hstep
    split at hstep
    · next hawaiting =>
      obtain rfl := Option.some.inj hstep
      refine ⟨h.own, h.greeting, h.flight, h.carried,
        fun _ => h.router (.inr (by simp [hawaiting])), h.accepted, fun _ _ hn => (by cases hn),
        fun listed ha => ?_⟩
      obtain ⟨hknown, hidle, -⟩ := h.applied listed ha
      exact ⟨hknown, hidle, by simp⟩
    · cases hstep
  | disconnect =>
    simp only [ToolState.step] at hstep
    split_ifs at hstep with hup
    obtain rfl := Option.some.inj hstep
    exact ⟨h.own, h.greeting, h.flight, h.carried, fun _ => h.router (.inl hup), h.accepted,
      h.resync, h.applied⟩
  | lose n =>
    simp only [ToolState.step] at hstep
    split_ifs at hstep
    obtain rfl := Option.some.inj hstep
    have hsub : (s.flight.eraseIdx n).Sublist s.flight := List.eraseIdx_sublist ..
    exact ⟨h.own, h.greeting, fun m p hp => h.flight m p (hsub.subset hp),
      fun n listed p hn hp => h.carried n listed p hn (hsub.subset hp), h.router, h.accepted,
      fun n p hn hseq => h.resync n p hn
        (((List.Sublist.refl _).append (hsub.map Prod.fst)).subset hseq), h.applied⟩
  | requeue n =>
    simp only [ToolState.step] at hstep
    split_ifs at hstep
    rw [eraseIdx_append_getElem? (of_decide_eq_true hallowed)] at hstep
    exact Option.some.inj hstep ▸ h
  | loseAck n =>
    simp only [ToolState.step] at hstep
    split_ifs at hstep
    obtain rfl := Option.some.inj hstep
    have hsub : (s.acks.eraseIdx n).Sublist s.acks := List.eraseIdx_sublist ..
    exact ⟨h.own, h.greeting, h.flight, h.carried, h.router,
      fun n listed hn hack => h.accepted n listed hn (hsub.subset hack),
      fun n p hn hseq => h.resync n p hn
        (((hsub.map Prod.fst).append (List.Sublist.refl _)).subset hseq), h.applied⟩
  | requeueAck n =>
    simp only [ToolState.step] at hstep
    split_ifs at hstep
    rw [eraseIdx_append_getElem? (of_decide_eq_true hallowed)] at hstep
    exact Option.some.inj hstep ▸ h
  | hello =>
    simp only [ToolState.step] at hstep
    split_ifs at hstep
    obtain rfl := Option.some.inj hstep
    exact ⟨h.own, fun _ hinfo => Option.some.inj hinfo ▸ h.own, h.flight, h.carried, h.router,
      h.accepted, h.resync, h.applied⟩
  | welcome =>
    obtain ⟨info, hinfo, rfl⟩ := Option.map_eq_some_iff.1 hstep
    refine ⟨h.own, fun _ hnone => (by cases hnone), h.flight, h.carried,
      fun _ _ => h.greeting info hinfo, fun n listed hn hack => ?_, h.resync, h.applied⟩
    have hn : s.applying = .capabilities n listed := hn
    rw [allowed, hn] at hallowed
    exact absurd hack (of_decide_eq_true hallowed)
  | connect =>
    simp only [ToolState.step] at hstep
    split at hstep
    · split_ifs at hstep with hup
      obtain rfl := Option.some.inj hstep
      refine ⟨h.own, h.greeting, h.flight, h.carried, fun _ => h.router (.inl hup), h.accepted,
        fun _ _ hn => (by cases hn), fun listed ha => ?_⟩
      obtain ⟨hknown, hidle, -⟩ := h.applied listed ha
      exact ⟨hknown, hidle, by simp⟩
    · cases hstep

end ToolState

end Backplane.Mcp
