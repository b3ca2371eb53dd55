import Backplane.Mcp.ServerPatch

/-!
# What a change to an MCP server changes

A change writes four columns back as they were when the row was read, whether it sets them or not.
It keeps what a row needs only as long as it keeps the transport on the same side: the column of the
other side is taken over by the merge, and then it is refused.

* `updateMcpServer_eq_ok_iff` : the changes that succeed, and what they leave.
* `inv_of_reaches` : rows stay consistent, and between `stdio` and a url they do not change.
* `patch_faithful_iff` : when a change does what it asks for.
-/

namespace Backplane.McpServer

variable {policy : Policy} {existing row row' synthetic : Server} {req req' : Update} {s s' : State}
  {t : Transport}

/-! ### Stored rows and parsed requests -/

/-- A row that could have been created. -/
structure Server.Stored (s : Server) : Prop extends s.Consistent where
  /-- Its fields are well formed. -/
  shaped : failing s.checks = []
  /-- An empty url is none. -/
  url_ne : s.url ≠ some ""
  /-- An empty reference is none. -/
  ref_ne : s.authValueRef ≠ some ""

/-- What a request is parsed to. -/
structure Update.Parsed (p : Update) : Prop where
  /-- Its fields are well formed. -/
  shaped : failing p.checks = []
  /-- An empty url is none. -/
  url_ne : p.url ≠ some ""
  /-- An empty reference is none. -/
  ref_ne : p.authValueRef ≠ some ""

theorem failing_eq_nil {checks : List (String × Bool)} :
    failing checks = [] ↔ ∀ x ∈ checks, x.2 = true := by
  simp [failing]

theorem Server.shaped_iff {s : Server} : failing s.checks = [] ↔
    serverIdShape s.serverId = true ∧ urlScheme s.url = true ∧
      authValueRefShape s.authValueRef = true ∧ groupsGrammar s.groups = true ∧
      capabilitiesGrammar s.capabilities = true ∧ disabledToolsShape s.disabledTools = true ∧
      envRefsShape s.envRefs = true := by
  simp [failing_eq_nil, Server.checks]

theorem Update.shaped_iff {p : Update} : failing p.checks = [] ↔
    urlScheme p.url = true ∧ authValueRefShape p.authValueRef = true ∧
      p.groups.all groupsGrammar = true ∧ p.capabilities.all capabilitiesGrammar = true ∧
      p.disabledTools.all disabledToolsShape = true ∧ p.envRefs.all envRefsShape = true := by
  simp [failing_eq_nil, Update.checks]

theorem filter_ne_of_ne {v : Option String} (h : v ≠ some "") : v.filter (· ≠ "") = v := by
  cases v with
  | none => rfl
  | some u =>
    have hu : u ≠ "" := fun h0 => h (congrArg some h0)
    simp [Option.filter, hu]

theorem filter_ne (v : Option String) : v.filter (· ≠ "") ≠ some "" := by
  intro h
  simpa using (Option.filter_eq_some_iff.mp h).2

theorem all_filter_of_all {v : Option String} {f : String → Bool} {q : String → Bool}
    (h : v.all f = true) : (v.filter q).all f = true := by
  cases v with
  | none => rfl
  | some u =>
    by_cases hq : q u = true <;> simp_all [Option.filter]

theorem getD_of_all {α : Type} {v : Option α} {d : α} {f : α → Bool} (h : v.all f = true)
    (hd : f d = true) : f (v.getD d) = true := by
  cases v with
  | none => exact hd
  | some x => exact h

theorem all_or {v d : Option String} {f : String → Bool} (h : v.all f = true)
    (hd : d.all f = true) : (v.or d).all f = true := by
  cases v with
  | none => exact hd
  | some x => exact h

theorem or_ne {v d : Option String} (h : v ≠ some "") (hd : d ≠ some "") : v.or d ≠ some "" := by
  cases v with
  | none => exact hd
  | some x => exact h

theorem Update.parsed_of_parse (h : req.parse = .ok req') : req'.Parsed := by
  rw [Update.parse] at h
  split_ifs at h with hs
  cases h
  obtain ⟨h₁, h₂, h₃, h₄, h₅, h₆⟩ := Update.shaped_iff.mp hs
  exact ⟨Update.shaped_iff.mpr ⟨all_filter_of_all h₁, all_filter_of_all h₂, h₃, h₄, h₅, h₆⟩,
    filter_ne _, filter_ne _⟩

/-! ### What is checked -/

theorem Update.Parsed.url_merged (hp : req.Parsed) :
    (merged existing req).url = req.url.or existing.url := by
  rw [merged, filter_ne_of_ne hp.url_ne]

/-- The fields of a merged server are well formed, for they are those of the row or of the
change. -/
theorem Server.Stored.create_merged (h : existing.Stored) (hp : req.Parsed) :
    create (merged existing req) = .ok (merged existing req) := by
  obtain ⟨h₁, h₂, h₃, h₄, -, -, h₇⟩ := Server.shaped_iff.mp h.shaped
  obtain ⟨p₁, p₂, p₃, -, -, p₆⟩ := Update.shaped_iff.mp hp.shaped
  have hurl := @Update.Parsed.url_merged existing req hp
  have href : (merged existing req).authValueRef ≠ some "" ∧
      authValueRefShape (merged existing req).authValueRef = true := by
    dsimp only [merged]
    split_ifs
    · exact ⟨hp.ref_ne, p₂⟩
    · exact ⟨h.ref_ne, h₃⟩
  have hshaped : failing (merged existing req).checks = [] := by
    refine Server.shaped_iff.mpr ⟨h₁, ?_, href.2, getD_of_all p₃ h₄, rfl, rfl, getD_of_all p₆ h₇⟩
    rw [hurl]
    exact all_or p₁ h₂
  have hne : (merged existing req).url ≠ some "" := by
    rw [hurl]
    exact or_ne hp.url_ne h.url_ne
  rw [create, if_pos hshaped, filter_ne_of_ne hne, filter_ne_of_ne href.1]

theorem require_bind {error : Option Failure} {k : Except Failure Server} :
    (require error >>= fun _ => k) = .ok synthetic ↔ error = .none ∧ k = .ok synthetic := by
  cases error with
  | none => exact ⟨fun h => ⟨rfl, h⟩, fun h => h.2⟩
  | some e => exact ⟨(fun h => nomatch h), (fun h => nomatch h.1)⟩

theorem Server.Stored.prepare_eq_ok (h : existing.Stored) (hp : req.Parsed) :
    prepare policy existing req = .ok synthetic ↔
      (merged existing req).Consistent ∧ checkReach policy (merged existing req) = .none ∧
        merged existing req = synthetic := by
  have hprep : prepare policy existing req =
      (require ((authError (merged existing req).authKind (merged existing req).authValueRef
        (merged existing req).authHeaderName).map .value) >>= fun _ =>
        require ((merged existing req).transportError.map .value) >>= fun _ =>
        require (checkReach policy (merged existing req)) >>= fun _ =>
        .ok (merged existing req)) := by
    rw [prepare, h.create_merged hp]
    rfl
  rw [hprep, require_bind, require_bind, require_bind, Option.map_eq_none_iff,
    Option.map_eq_none_iff]
  constructor
  · rintro ⟨h₁, h₂, h₃, h₄⟩
    exact ⟨⟨h₁, h₂⟩, h₃, Except.ok.inj h₄⟩
  · rintro ⟨⟨h₁, h₂⟩, h₃, h₄⟩
    exact ⟨h₁, h₂, h₃, congrArg _ h₄⟩

/-! ### The two sides -/

theorem blank_eq_false {v : Option String} : blank v = false ↔ ∃ x ∈ v, x ≠ "" := by
  cases v <;> simp [blank]

/-- A consistent server of `stdio`. -/
theorem transportError_stdio {s : Server} (ht : s.transport = .stdio) :
    s.transportError = .none ↔
      (∃ x ∈ s.command, x ≠ "") ∧ s.url = .none ∧ s.authKind = .none := by
  rw [Server.transportError, if_pos ht, ← blank_eq_false]
  cases blank s.command <;> cases s.url <;> by_cases hk : s.authKind = .none <;> simp [hk]

/-- A consistent server with a url. -/
theorem transportError_url {s : Server} (ht : s.transport ≠ .stdio) :
    s.transportError = .none ↔ (∃ x ∈ s.url, x ≠ "") ∧ s.command = .none := by
  rw [Server.transportError, if_neg ht, ← blank_eq_false]
  cases blank s.url <;> cases s.command <;> simp

/-- No consistent row violates a constraint of the table. -/
theorem Server.Consistent.violated_eq_none {s : Server} (h : s.Consistent) :
    s.violated = .none := by
  rw [Server.violated, h.auth]
  by_cases ht : s.transport = .stdio
  · obtain ⟨⟨x, hx, -⟩, hurl, -⟩ := (transportError_stdio ht).mp h.transport
    rw [Option.mem_def] at hx
    simp [ht, hx, hurl]
  · obtain ⟨⟨x, hx, -⟩, hcommand⟩ := (transportError_url ht).mp h.transport
    rw [Option.mem_def] at hx
    simp [ht, hx, hcommand]

/-- A change passes the checks. -/
structure Passes (policy : Policy) (existing : Server) (req : Update) : Prop where
  /-- A credential that is set is complete. -/
  auth : ∀ kind ∈ req.authKind, authError kind req.authValueRef req.authHeaderName = .none
  /-- It does not lead from `stdio` to a url, or from a url to `stdio`. -/
  same : req.transport.getD existing.transport = .stdio ↔ existing.transport = .stdio
  /-- What is asked of it, of a server of `stdio`. -/
  stdio : existing.transport = .stdio → req.url = .none ∧
    req.authKind.getD existing.authKind = .none ∧
    ∃ command ∈ req.command.or existing.command, command ≠ "" ∧ command ∈ policy.launchers
  /-- What is asked of it, of a server with a url. -/
  url : existing.transport ≠ .stdio → req.command = .none ∧
    ∃ url ∈ req.url.or existing.url, policy.refuses url = false

theorem or_eq_none_of {v d : Option String} (hd : d = .none) : v.or d = .none ↔ v = .none := by
  rw [hd, Option.or_none]

theorem or_ne_none {v d : Option String} (hd : d ≠ .none) : v.or d ≠ .none := by
  cases v with
  | none => exact hd
  | some x => exact Option.some_ne_none x

theorem ne_none_of_mem {v : Option String} (h : ∃ x ∈ v, x ≠ "") : v ≠ .none := by
  obtain ⟨x, hx, -⟩ := h
  rw [Option.mem_def.mp hx]
  exact Option.some_ne_none x

/-- What the merge keeps of a row keeps it on its side. -/
theorem Server.Stored.same_side (h : existing.Stored) (hp : req.Parsed)
    (hm : (merged existing req).Consistent) :
    req.transport.getD existing.transport = .stdio ↔ existing.transport = .stdio := by
  have hurl := @Update.Parsed.url_merged existing req hp
  by_cases ht : existing.transport = .stdio
  · refine iff_of_true (Classical.byContradiction fun hne => ?_) ht
    -- the command of the row is still there
    obtain ⟨-, hcommand⟩ := (transportError_url (s := merged existing req) hne).mp hm.transport
    obtain ⟨hc, -⟩ := (transportError_stdio ht).mp h.transport
    exact or_ne_none (ne_none_of_mem hc) hcommand
  · refine iff_of_false (fun heq => ?_) ht
    -- the url of the row is still there
    obtain ⟨-, hnone, -⟩ := (transportError_stdio (s := merged existing req) heq).mp hm.transport
    obtain ⟨hu, -⟩ := (transportError_url ht).mp h.transport
    rw [hurl] at hnone
    exact or_ne_none (ne_none_of_mem hu) hnone

theorem auth_merged (h : existing.Stored) :
    authError (merged existing req).authKind (merged existing req).authValueRef
        (merged existing req).authHeaderName = .none ↔
      ∀ kind ∈ req.authKind, authError kind req.authValueRef req.authHeaderName = .none := by
  cases hk : req.authKind with
  | none =>
    simp only [merged, hk, Option.getD_none, Option.isSome_none]
    exact iff_of_true h.auth (fun _ h0 => nomatch h0)
  | some kind => simp [merged, hk]

theorem checkReach_stdio {s : Server} (ht : s.transport = .stdio) :
    checkReach policy s = .none ↔ ∃ x ∈ s.command, x ∈ policy.launchers := by
  rw [checkReach, if_pos ht]
  cases s.command <;> simp

theorem checkReach_url {s : Server} (ht : s.transport ≠ .stdio) :
    checkReach policy s = .none ↔ ∀ x ∈ s.url, policy.refuses x = false := by
  rw [checkReach, if_neg ht]
  cases s.url <;> simp

/-- **The changes that pass.**  A merged server is consistent and can be reached exactly when the
change asks for nothing of the other side. -/
theorem Server.Stored.passes_iff (h : existing.Stored) (hp : req.Parsed) :
    ((merged existing req).Consistent ∧ checkReach policy (merged existing req) = .none) ↔
      Passes policy existing req := by
  have hurl := @Update.Parsed.url_merged existing req hp
  constructor
  · rintro ⟨hm, hreach⟩
    have hside := h.same_side hp hm
    refine ⟨(auth_merged h).mp hm.auth, hside, ?_, ?_⟩
    · intro ht
      have hmt : (merged existing req).transport = .stdio := hside.mpr ht
      obtain ⟨⟨c, hc, hne⟩, hnone, hk⟩ := (transportError_stdio hmt).mp hm.transport
      obtain ⟨x, hx, hl⟩ := (checkReach_stdio hmt).mp hreach
      cases Option.mem_unique hc hx
      rw [hurl, or_eq_none_of ((transportError_stdio ht).mp h.transport).2.1] at hnone
      exact ⟨hnone, hk, c, hc, hne, hl⟩
    · intro ht
      have hmt : (merged existing req).transport ≠ .stdio := fun h0 => ht (hside.mp h0)
      obtain ⟨⟨u, hu, -⟩, hnone⟩ := (transportError_url hmt).mp hm.transport
      have hok := (checkReach_url hmt).mp hreach u hu
      rw [hurl] at hu
      exact ⟨(or_eq_none_of ((transportError_url ht).mp h.transport).2).mp hnone, u, hu, hok⟩
  · intro hpass
    by_cases ht : existing.transport = .stdio
    · have hmt : (merged existing req).transport = .stdio := hpass.same.mpr ht
      obtain ⟨hnone, hk, c, hc, hne, hl⟩ := hpass.stdio ht
      refine ⟨⟨(auth_merged h).mpr hpass.auth, (transportError_stdio hmt).mpr
        ⟨⟨c, hc, hne⟩, ?_, hk⟩⟩, (checkReach_stdio hmt).mpr ⟨c, hc, hl⟩⟩
      rw [hurl, or_eq_none_of ((transportError_stdio ht).mp h.transport).2.1]
      exact hnone
    · have hmt : (merged existing req).transport ≠ .stdio := fun h0 => ht (hpass.same.mp h0)
      obtain ⟨hnone, u, hu, hok⟩ := hpass.url ht
      rw [← hurl] at hu
      have hne : u ≠ "" := by
        rintro rfl
        exact or_ne hp.url_ne h.url_ne (hurl ▸ hu)
      refine ⟨⟨(auth_merged h).mpr hpass.auth, (transportError_url hmt).mpr
        ⟨⟨u, hu, hne⟩, ?_⟩⟩, (checkReach_url hmt).mpr ?_⟩
      · exact (or_eq_none_of ((transportError_url ht).mp h.transport).2).mpr hnone
      · intro x hx
        cases Option.mem_unique hx hu
        exact hok

/-! ### What is written -/

/-- The row as it was read and the row as it is are on one side. -/
def SameSide (existing row : Server) : Prop :=
  existing.transport = .stdio ↔ row.transport = .stdio

theorem transport_written (h : Passes policy existing req) (hside : SameSide existing row) :
    (written row req synthetic).transport = .stdio ↔ row.transport = .stdio := by
  have hsame := h.same
  dsimp only [written]
  cases ht : req.transport with
  | none => rfl
  | some t =>
    rw [ht] at hsame
    exact hsame.trans hside

theorem auth_written (h : row.Stored) (hpass : Passes policy existing req) :
    authError (written row req synthetic).authKind (written row req synthetic).authValueRef
      (written row req synthetic).authHeaderName = .none := by
  cases hk : req.authKind with
  | none =>
    simp only [written, hk, Option.getD_none, Option.isSome_none]
    exact h.auth
  | some kind => simpa [written, hk] using hpass.auth kind hk

/-- A change that passes leaves a consistent row, whatever the row has become since it was read. -/
theorem consistent_written (he : existing.Stored) (hrow : row.Stored) (hp : req.Parsed)
    (hpass : Passes policy existing req) (hside : SameSide existing row) :
    (written row req (merged existing req)).Consistent := by
  refine ⟨auth_written hrow hpass, ?_⟩
  have htr := @transport_written _ _ row (merged existing req) req hpass hside
  obtain ⟨hm, -⟩ := (he.passes_iff hp).mpr hpass
  by_cases ht : existing.transport = .stdio
  · have hmt : (merged existing req).transport = .stdio := hpass.same.mpr ht
    obtain ⟨hc, hu, -⟩ := (transportError_stdio hmt).mp hm.transport
    refine (transportError_stdio (htr.mpr (hside.mp ht))).mpr ⟨hc, hu, ?_⟩
    -- the credential is the one that is set, or that of the row
    obtain ⟨-, hk, -⟩ := hpass.stdio ht
    dsimp only [written]
    cases hreq : req.authKind with
    | none => exact ((transportError_stdio (hside.mp ht)).mp hrow.transport).2.2
    | some kind =>
      rw [hreq] at hk
      exact hk
  · have hmt : (merged existing req).transport ≠ .stdio := fun h0 => ht (hpass.same.mp h0)
    obtain ⟨hu, hc⟩ := (transportError_url hmt).mp hm.transport
    exact (transportError_url fun h0 => ht (hside.mpr (htr.mp h0))).mpr ⟨hu, hc⟩

/-- **What a change leaves, if it succeeds.** -/
theorem updateMcpServer_eq_ok_iff (he : existing.Stored) (hrow : row.Stored) (hp : req.Parsed)
    (hside : SameSide existing row) :
    updateMcpServer policy existing row req = .ok row' ↔
      Passes policy existing req ∧ row' = written row req (merged existing req) := by
  rw [updateMcpServer]
  constructor
  · intro h
    cases hprep : prepare policy existing req with
    | error e => rw [hprep] at h; cases h
    | ok synthetic =>
      obtain ⟨hm, hreach, rfl⟩ := (he.prepare_eq_ok hp).mp hprep
      have hpass := (he.passes_iff hp).mp ⟨hm, hreach⟩
      have hviol := (consistent_written he hrow hp hpass hside).violated_eq_none
      rw [hprep] at h
      simp only [bind, Except.bind, hviol] at h
      cases h
      exact ⟨hpass, rfl⟩
  · rintro ⟨hpass, rfl⟩
    obtain ⟨hm, hreach⟩ := (he.passes_iff hp).mpr hpass
    have hprep := (he.prepare_eq_ok hp).mpr ⟨hm, hreach, rfl⟩
    have hviol := (consistent_written he hrow hp hpass hside).violated_eq_none
    rw [hprep]
    simp only [bind, Except.bind, hviol]

theorem Server.Stored.written (hrow : row.Stored) (he : existing.Stored) (hp : req.Parsed)
    (hc : (written row req (merged existing req)).Consistent) :
    (written row req (merged existing req)).Stored := by
  obtain ⟨h₁, -, h₃, h₄, h₅, h₆, -⟩ := Server.shaped_iff.mp hrow.shaped
  obtain ⟨-, e₂, -, -, -, -, e₇⟩ := Server.shaped_iff.mp he.shaped
  obtain ⟨p₁, p₂, p₃, p₄, p₅, p₆⟩ := Update.shaped_iff.mp hp.shaped
  have hurl := @Update.Parsed.url_merged existing req hp
  have href : (McpServer.written row req (merged existing req)).authValueRef ≠ some "" ∧
      authValueRefShape (McpServer.written row req (merged existing req)).authValueRef = true := by
    dsimp only [McpServer.written]
    split_ifs
    · exact ⟨hp.ref_ne, p₂⟩
    · exact ⟨hrow.ref_ne, h₃⟩
  refine ⟨hc, Server.shaped_iff.mpr ⟨h₁, ?_, href.2, getD_of_all p₃ h₄, getD_of_all p₄ h₅,
    getD_of_all p₅ h₆, getD_of_all p₆ e₇⟩, ?_, href.1⟩
  · exact (congrArg urlScheme hurl).trans (all_or p₁ e₂)
  · exact fun h0 => or_ne hp.url_ne he.url_ne (hurl.symm.trans h0)

/-! ### Runs -/

/-- The row and what has been read of it are stored rows, on one side. -/
structure Inv (s : State) : Prop where
  row : s.row.Stored
  /-- What the changes in flight ask for, and have read. -/
  pending : ∀ x ∈ s.pending, x.1.Parsed ∧ x.2.Stored ∧ SameSide x.2 s.row

theorem Inv.step (h : Inv s) {e : Event} (hstep : step policy s e = some s') : Inv s' := by
  cases e with
  | read req =>
    rw [McpServer.step] at hstep
    cases hparse : req.parse with
    | error e => rw [hparse] at hstep; cases hstep
    | ok req' =>
      rw [hparse] at hstep
      cases hstep
      refine ⟨h.row, fun x hx => ?_⟩
      rcases List.mem_append.mp hx with hx | hx
      · exact h.pending x hx
      · rw [List.mem_singleton.mp hx]
        exact ⟨Update.parsed_of_parse hparse, h.row, Iff.rfl⟩
  | write i =>
    rw [McpServer.step] at hstep
    cases hi : s.pending[i]? with
    | none => rw [hi] at hstep; cases hstep
    | some x =>
      obtain ⟨req, existing⟩ := x
      rw [hi] at hstep
      cases hstep
      obtain ⟨hp, he, hside⟩ := h.pending _ (List.mem_of_getElem? hi)
      cases hup : updateMcpServer policy existing s.row req with
      | error e =>
        dsimp only
        exact ⟨h.row, fun x hx => h.pending x (List.mem_of_mem_eraseIdx hx)⟩
      | ok row' =>
        dsimp only
        obtain ⟨hpass, rfl⟩ := (updateMcpServer_eq_ok_iff he h.row hp hside).mp hup
        have hc := consistent_written he h.row hp hpass hside
        refine ⟨h.row.written he hp hc, fun x hx => ?_⟩
        obtain ⟨hp', he', hside'⟩ := h.pending x (List.mem_of_mem_eraseIdx hx)
        exact ⟨hp', he', hside'.trans (transport_written hpass hside).symm⟩

/-- **Rows stay well formed and consistent, on their side, in every run of changes.** -/
theorem inv_of_reaches {row₀ : Server} (h₀ : row₀.Stored)
    (h : (patches policy row₀).Reaches (fun _ _ => True) s) : Inv s := by
  have hinv : (patches policy row₀).Invariant (fun _ _ => True) Inv :=
    ⟨⟨h₀, fun x hx => absurd hx List.not_mem_nil⟩, fun hs _ hstep => Inv.step hs hstep⟩
  exact hinv.of_reaches h

/-! ### What a change asks for -/

/-- What a change writes back without setting it has not been changed since it was read. -/
structure Current (existing row : Server) (req : Update) : Prop where
  url : req.url = .none → existing.url = row.url
  command : req.command = .none → existing.command = row.command
  args : req.args = .none → existing.args = row.args
  envRefs : req.envRefs = .none → existing.envRefs = row.envRefs

/-- A part of a credential is set with its kind, or it is what the row has. -/
def Together (row : Server) (req : Update) : Prop :=
  req.authKind = .none → (∀ ref ∈ req.authValueRef, row.authValueRef = some ref) ∧
    ∀ header ∈ req.authHeaderName, row.authHeaderName = some header

theorem or_eq_or_iff {v d d' : Option String} : v.or d = v.or d' ↔ (v = .none → d = d') := by
  cases v <;> simp

theorem getD_eq_getD_iff {α : Type} {v : Option α} {d d' : α} :
    v.getD d = v.getD d' ↔ (v = .none → d = d') := by
  cases v <;> simp

theorem credential_eq_iff {kind : Option Credential} {v d : Option String} :
    (if kind.isSome then v else d) = (if kind.isSome then v else v.or d) ↔
      (kind = .none → ∀ x ∈ v, d = some x) := by
  cases kind <;> cases v <;> simp

/-- What is written is what is asked for when nothing is written back that has changed, and no part
of a credential is left out. -/
theorem written_eq_asked_iff (hp : req.Parsed) (hpass : Passes policy existing req)
    (hside : SameSide existing row) :
    written row req (merged existing req) = asked row req ↔
      Current existing row req ∧ Together row req := by
  have htr := @transport_written _ _ row (merged existing req) req hpass hside
  dsimp only [written] at htr
  have hstdio : ¬(req.transport.getD row.transport = .stdio ∧ row.transport ≠ .stdio) :=
    fun h => h.2 (htr.mp h.1)
  have hurl : ¬(req.transport.getD row.transport ≠ .stdio ∧ row.transport = .stdio) :=
    fun h => h.1 (htr.mpr h.2)
  have hu := @Update.Parsed.url_merged existing req hp
  rw [written, asked, Server.mk.injEq, hu]
  simp only [hstdio, hurl, decide_false, Bool.false_eq_true, if_false, true_and]
  rw [or_eq_or_iff, merged, or_eq_or_iff, getD_eq_getD_iff, getD_eq_getD_iff, credential_eq_iff,
    credential_eq_iff]
  constructor
  · rintro ⟨h₁, h₂, h₃, h₄, h₅, h₆⟩
    exact ⟨⟨h₁, h₄, h₅, h₆⟩, fun hk => ⟨h₂ hk, h₃ hk⟩⟩
  · rintro ⟨⟨h₁, h₄, h₅, h₆⟩, h⟩
    exact ⟨h₁, fun hk => (h hk).1, fun hk => (h hk).2, h₄, h₅, h₆⟩

/-- A change that has all its transport requires passes when the transport is on the side of the
row. -/
theorem Complete.passes_iff (h : Complete policy existing req t) :
    Passes policy existing req ↔ (t = .stdio ↔ existing.transport = .stdio) := by
  constructor
  · intro hpass
    have hsame := hpass.same
    rw [h.transport] at hsame
    exact hsame
  · intro hside
    refine ⟨h.auth, ?_, ?_, ?_⟩
    · rw [h.transport]
      exact hside
    · intro ht
      obtain ⟨hnone, hk, c, hc, hne, hl⟩ := h.stdio (hside.mpr ht)
      exact ⟨hnone, hk, c, by rw [Option.mem_def.mp hc]; rfl, hne, hl⟩
    · intro ht
      obtain ⟨hnone, u, hu, hok⟩ := h.url fun h0 => ht (hside.mp h0)
      exact ⟨hnone, u, by rw [Option.mem_def.mp hu]; rfl, hok⟩

/-- **When a change does what it asks for.**  In every run of changes to a row, a change in flight
changes what it sets, leaves a consistent row, and succeeds if it is complete, exactly when: if it
passes the checks, the columns it writes back are as they were read, and the parts of its credential
come with their kind; and if it is complete, it does not lead from `stdio` to a url or back. -/
theorem patch_faithful_iff {row₀ : Server} (h₀ : row₀.Stored)
    (h : (patches policy row₀).Reaches (fun _ _ => True) s) (hreq : (req, existing) ∈ s.pending) :
    Faithful policy existing s.row req ↔
      (Passes policy existing req → Current existing s.row req ∧ Together s.row req) ∧
        ∀ t, Complete policy existing req t → (t = .stdio ↔ existing.transport = .stdio) := by
  have hinv := inv_of_reaches h₀ h
  obtain ⟨hp, he, hside⟩ := hinv.pending _ hreq
  have hok := fun row' =>
    @updateMcpServer_eq_ok_iff policy existing s.row row' req he hinv.row hp hside
  constructor
  · intro hf
    refine ⟨fun hpass => ?_, fun t hcomplete => ?_⟩
    · exact (written_eq_asked_iff hp hpass hside).mp (hf.changes _ ((hok _).mpr ⟨hpass, rfl⟩))
    · obtain ⟨row', hrow'⟩ := hf.accepted t hcomplete
      exact (hcomplete.passes_iff).mp ((hok row').mp hrow').1
  · rintro ⟨hcur, hcomplete⟩
    refine ⟨fun row' hrow' => ?_, fun row' hrow' => ?_, fun t ht => ?_⟩
    · obtain ⟨hpass, rfl⟩ := (hok row').mp hrow'
      exact (written_eq_asked_iff hp hpass hside).mpr (hcur hpass)
    · obtain ⟨hpass, rfl⟩ := (hok row').mp hrow'
      exact consistent_written he hinv.row hp hpass hside
    · exact ⟨_, (hok _).mpr ⟨(ht.passes_iff).mpr (hcomplete t ht), rfl⟩⟩

/-- A server with a url. -/
def maps : Server := { serverId := "maps", url := some "http://maps/sse", transport := .sse }

theorem maps_stored : maps.Stored :=
  ⟨⟨by decide +kernel, by decide +kernel⟩, by decide +kernel, by decide, by decide⟩

/-- Two changes of one server, of its text and of its url; the url is written last. -/
theorem patch_faithful_two :
    ∃ s : State, s.row.description = "Maps" ∧
      Faithful ⟨["uvx"], fun _ => false⟩ maps s.row { url := some "http://maps2/sse" } := by
  have hrun : ((patches ⟨["uvx"], fun _ => false⟩ maps).run (fun _ _ => true) ⟨maps, []⟩
      [.read { url := some "http://maps2/sse" }, .read { description := some "Maps" },
        .write 1]) =
      some ⟨{ maps with description := "Maps" }, [({ url := some "http://maps2/sse" }, maps)]⟩ := by
    decide +kernel
  refine ⟨_, rfl, (patch_faithful_iff maps_stored (.of_run (fun _ _ _ => trivial) hrun)
    (List.mem_singleton_self _)).mpr ⟨fun _ => ⟨?_, ?_⟩, fun t h => ?_⟩⟩
  · exact ⟨(fun h => nomatch h), fun _ => rfl, fun _ => rfl, fun _ => rfl⟩
  · exact fun _ => ⟨(fun _ h => nomatch h), fun _ h => nomatch h⟩
  · exact nomatch h.transport

/-- A change that names `stdio` and has all that it requires is refused; and two changes, of the
arguments and of the text, both succeed, and the arguments are as before. -/
theorem refused_and_lost :
    (∃ s, (patches ⟨["uvx"], fun _ => false⟩ maps).Reaches (fun _ _ => True) s ∧
      ∃ x ∈ s.pending, ¬ Faithful ⟨["uvx"], fun _ => false⟩ x.2 s.row x.1) ∧
    ∃ s, (patches ⟨["uvx"], fun _ => false⟩ maps).Reaches (fun _ _ => True) s ∧
      s.row.args = ["-v"] ∧ ∃ x ∈ s.pending, x.1 = { description := some "Maps" } ∧
        ∃ row', updateMcpServer ⟨["uvx"], fun _ => false⟩ x.2 s.row x.1 = .ok row' ∧
          row'.args = [] := by
  constructor
  · have hrun : ((patches ⟨["uvx"], fun _ => false⟩ maps).run (fun _ _ => true) ⟨maps, []⟩
        [.read { transport := some .stdio, command := some "uvx" }]) =
        some ⟨maps, [({ transport := some .stdio, command := some "uvx" }, maps)]⟩ := by
      decide +kernel
    refine ⟨_, .of_run (fun _ _ _ => trivial) hrun, _, List.mem_singleton_self _, fun h => ?_⟩
    obtain ⟨row', hrow'⟩ := h.accepted .stdio ⟨rfl, (fun _ h => nomatch h),
      fun _ => ⟨rfl, rfl, "uvx", rfl, by decide, by decide⟩, fun h => absurd rfl h⟩
    have hfail : updateMcpServer ⟨["uvx"], fun _ => false⟩ maps maps
        { transport := some .stdio, command := some "uvx" } =
        .error (.value "url must be null when transport='stdio'") := by
      decide +kernel
    rw [hfail] at hrow'
    cases hrow'
  · have hrun : ((patches ⟨["uvx"], fun _ => false⟩ maps).run (fun _ _ => true) ⟨maps, []⟩
        [.read { description := some "Maps" }, .read { args := some ["-v"] }, .write 1]) =
        some ⟨{ maps with args := ["-v"] }, [({ description := some "Maps" }, maps)]⟩ := by
      decide +kernel
    refine ⟨_, .of_run (fun _ _ _ => trivial) hrun, rfl, _, List.mem_singleton_self _, rfl,
      { maps with description := "Maps" }, ?_, rfl⟩
    decide +kernel

end Backplane.McpServer
