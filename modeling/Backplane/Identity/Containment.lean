import Backplane.Concur.Discipline
import Backplane.Identity.Tokens

/-!
# What a service principal can mint

A service principal mints tokens for users that are neither admins nor service principals.  The
token outlives the check.

* `Lineage`, `lineage` : the tokens that go back to a service principal, rotated ones included.
* `Change.contained` : no such token is live when its user becomes privileged, or minted when the
  user is.
* `service_tokens_contained` : then none is redeemed by a privileged user.
-/

namespace Backplane

open Concur Directory

/-- The tokens that go back to a service principal. -/
structure Lineage where
  refresh : List TokenHash := []
  reset : List TokenHash := []

/-- What a transaction issues goes back to a service principal. -/
def Change.minted (l : Lineage) : Change → Bool
  | mintRefreshToken _ _ => true
  | mintResetToken _ level _ => level = "service"
  | refresh h => h ∈ l.refresh
  | resetPassword h _ => h ∈ l.reset
  | _ => false

/-- A token is issued, and goes back to a service principal or not. -/
def trace (minted : Bool) (token : Option (UserId × TokenHash)) (l : List TokenHash) :
    List TokenHash :=
  match token with
  | none => l
  | some (_, h) => if minted then h :: l else l.filter (· ≠ h)

/-- The tokens after an event. -/
def Lineage.next (l : Lineage) (x : Event DirAct) : Lineage :=
  match x.tx with
  | none => l
  | some (c, out) =>
    ⟨trace (c.minted l) (c.issues out) l.refresh, trace (c.minted l) (c.issuesReset out) l.reset⟩

/-- The tokens after all that has happened. -/
def lineage (log : Log DirAct) : Lineage := log.foldl (fun l x => l.next x.2) {}

namespace Directory

variable (s : Directory)

/-- Nobody has minted a live token for the user. -/
def untouched (l : Lineage) (u : UserId) : Bool :=
  (s.refreshTokens.select fun h t => decide (h ∈ l.refresh) && t.live s.clock &&
    decide (t.userId = u)).isEmpty &&
  (s.resetTokens.select fun h t => decide (h ∈ l.reset) && t.live s.clock &&
    decide (t.userId = u)).isEmpty

/-- The user, if there is one, is neither an admin nor a service principal. -/
def ordinary (u : UserId) : Bool := (s.users.lookup u).all fun r => !privileged r.level

end Directory

/-- A user becomes an admin or a service principal only without a live token minted by a service
principal, and a service principal mints for others only. -/
def Change.contained (l : Lineage) (s : Directory) : Change → Bool
  | updateUser u (some level) _ => !privileged level || s.untouched l u
  | mintRefreshToken _ u => s.ordinary u
  | mintResetToken _ level u => level ≠ "service" || s.ordinary u
  | _ => true

/-- The action is no transaction, or is so contained. -/
def DirAct.contained {β : Type} (l : Lineage) (e : DirEnv) (s : Directory) (a : DirAct β) : Bool :=
  a.change.all fun c => e.fault || c.contained l { s with clock := e.now }

/-- Every transaction is so contained. -/
def containing : Guard DirAct DirEnv Directory DirCall Reply :=
  ⟨fun _ _ => True, fun P _ _ a e => a.contained (lineage P.log) e P.shared = true⟩

/-- The tokens that go back to a service principal are not of privileged users. -/
structure Sheltered (s : Directory) (l : Lineage) : Prop where
  refresh : ∀ h u, h ∈ l.refresh → s.HasRefresh h u →
    ∃ level, s.HasLevel u level ∧ privileged level = false
  reset : ∀ h u, h ∈ l.reset → s.HasReset h u →
    ∃ level, s.HasLevel u level ∧ privileged level = false

section

variable {cfg : IdentitySettings} {e : DirEnv} {s s' : Directory} {out : Outcome} {c : Change}
  {l : Lineage} {u : UserId} {h k : TokenHash} {level : String}

theorem mem_trace {minted : Bool} {token : Option (UserId × TokenHash)} {ks : List TokenHash}
    (hm : h ∈ trace minted token ks) :
    (minted = true ∧ ∃ u, token = some (u, h)) ∨ (∀ u, token ≠ some (u, h)) ∧ h ∈ ks := by
  cases token with
  | none => exact .inr ⟨by simp, hm⟩
  | some x =>
    obtain ⟨u, k⟩ := x
    rw [trace] at hm
    by_cases hk : h = k
    · subst hk
      split_ifs at hm with hminted
      · exact .inl ⟨hminted, u, rfl⟩
      · exact absurd (List.mem_filter.1 hm).2 (by simp)
    · refine .inr ⟨by simpa using Ne.symm hk, ?_⟩
      split_ifs at hm
      · exact (List.mem_cons.1 hm).resolve_left hk
      · exact (List.mem_filter.1 hm).1

theorem untouched_iff : s.untouched l u = true ↔
    (∀ h ∈ l.refresh, ¬ s.HasRefresh h u) ∧ ∀ h ∈ l.reset, ¬ s.HasReset h u := by
  simp only [untouched, Bool.and_eq_true, List.isEmpty_iff, List.eq_nil_iff_forall_not_mem,
    Prod.forall, Table.mem_select, decide_eq_true_eq, HasRefresh, HasReset]
  constructor
  · rintro ⟨hr, hp⟩
    constructor
    · rintro h hm ⟨t, ht, hl, hu⟩
      exact hr h t ⟨ht, ⟨hm, hl⟩, hu⟩
    · rintro h hm ⟨t, ht, hl, hu⟩
      exact hp h t ⟨ht, ⟨hm, hl⟩, hu⟩
  · rintro ⟨hr, hp⟩
    constructor
    · rintro h t ⟨ht, ⟨hm, hl⟩, hu⟩
      exact hr h hm ⟨t, ht, hl, hu⟩
    · rintro h t ⟨ht, ⟨hm, hl⟩, hu⟩
      exact hp h hm ⟨t, ht, hl, hu⟩

/-- A user with a live token that goes back to a service principal does not become privileged. -/
theorem ordinary_follow (hc : c.contained l s = true) (hu : s.untouched l u = false)
    (hlevel : ∃ level, s.HasLevel u level ∧ privileged level = false)
    (hx : c.apply cfg e s = .ok (s', out)) :
    ∃ level, s'.HasLevel (c.follow s u) level ∧ privileged level = false := by
  obtain ⟨level, hl, hp⟩ := hlevel
  refine ⟨_, users_ok hl hx, ?_⟩
  unfold Change.relevel
  split
  · rename_i u' l' _
    split_ifs with h
    · subst h
      simpa [Change.contained, hu] using hc
    · exact hp
  · exact hp

theorem ordinary_of_guard (hu : s.users.lookup u ≠ none) (ho : s.ordinary u = true) :
    ∃ level, s.HasLevel u level ∧ privileged level = false := by
  obtain ⟨r, hr⟩ := Option.ne_none_iff_exists'.1 hu
  rw [Directory.ordinary, hr, Option.all_some, Bool.not_eq_true'] at ho
  exact ⟨r.level, ⟨r, hr, rfl⟩, ho⟩

/-- A refresh token that goes back to a service principal is issued to an ordinary user. -/
theorem issued_ordinary (hs : Sheltered s l) (hc : c.contained l s = true)
    (hx : c.apply cfg e s = .ok (s', out)) (hiss : c.issues out = some (u, h))
    (hm : c.minted l = true) : ∃ level, s'.HasLevel u level ∧ privileged level = false := by
  cases c with
  | mintRefreshToken service target =>
    obtain ⟨rfl, hins⟩ := mintRefreshToken_ok hx
    obtain ⟨rfl, -⟩ := Prod.mk.inj (Option.some.inj hiss)
    obtain ⟨level, hl, hp⟩ := ordinary_of_guard (insertRefreshToken_eq_some.1 hins).2.1 hc
    exact ⟨level, users_ok hl hx, hp⟩
  | refresh k =>
    obtain ⟨t, r, s₁, ht, hlive, -, rfl, -, -⟩ := refresh_ok hx
    obtain ⟨rfl, -⟩ := Prod.mk.inj (Option.some.inj hiss)
    obtain ⟨level, hl, hp⟩ := hs.refresh k t.userId (of_decide_eq_true hm) ⟨t, ht, hlive, rfl⟩
    exact ⟨level, users_ok hl hx, hp⟩
  | resetPassword k hash =>
    obtain ⟨t, r, s₁, ht, hlive, -, rfl, -, -⟩ := resetPassword_ok hx
    obtain ⟨rfl, -⟩ := Prod.mk.inj (Option.some.inj hiss)
    obtain ⟨level, hl, hp⟩ := hs.reset k t.userId (of_decide_eq_true hm) ⟨t, ht, hlive, rfl⟩
    exact ⟨level, users_ok hl hx, hp⟩
  | mintResetToken minter level target => exact absurd hiss (by simp [Change.issues])
  | _ => exact absurd hm Bool.false_ne_true

/-- So is a password-reset token. -/
theorem issuedReset_ordinary (hc : c.contained l s = true) (hx : c.apply cfg e s = .ok (s', out))
    (hiss : c.issuesReset out = some (u, h)) (hm : c.minted l = true) :
    ∃ level, s'.HasLevel u level ∧ privileged level = false := by
  cases c with
  | mintResetToken minter level target =>
    obtain ⟨rfl, hins⟩ := mintResetToken_ok hx
    obtain ⟨rfl, -⟩ := Prod.mk.inj (Option.some.inj hiss)
    obtain rfl : level = "service" := of_decide_eq_true hm
    obtain ⟨level, hl, hp⟩ := ordinary_of_guard (insertPasswordResetToken_eq_some.1 hins).2.1 hc
    exact ⟨level, users_ok hl hx, hp⟩
  | mintRefreshToken _ _ | refresh _ | resetPassword _ _ =>
    exact absurd hiss (by simp [Change.issuesReset])
  | _ => exact absurd hm Bool.false_ne_true

/-- **A transaction that is so contained keeps the tokens from privileged users.** -/
theorem Sheltered.apply (hs : Sheltered s l) (hc : c.contained l s = true)
    (hx : c.apply cfg e s = .ok (s', out)) :
    Sheltered s' ⟨trace (c.minted l) (c.issues out) l.refresh,
      trace (c.minted l) (c.issuesReset out) l.reset⟩ := by
  constructor
  · intro h u hm ht
    rcases refreshTokens_ok hx ht with hiss | ⟨hno, v, hv, rfl⟩
    · rcases mem_trace hm with ⟨hminted, -⟩ | ⟨hno, -⟩
      · exact issued_ordinary hs hc hx hiss hminted
      · exact absurd hiss (hno u)
    · rcases mem_trace hm with ⟨-, w, hw⟩ | ⟨-, hmem⟩
      · exact absurd hw (hno w)
      · refine ordinary_follow hc (Bool.eq_false_iff.2 fun hu => ?_) (hs.refresh h v hmem hv) hx
        exact (untouched_iff.1 hu).1 h hmem hv
  · intro h u hm ht
    rcases resetTokens_ok hx ht with hiss | ⟨hno, v, hv, rfl⟩
    · rcases mem_trace hm with ⟨hminted, -⟩ | ⟨hno, -⟩
      · exact issuedReset_ordinary hc hx hiss hminted
      · exact absurd hiss (hno u)
    · rcases mem_trace hm with ⟨-, w, hw⟩ | ⟨-, hmem⟩
      · exact absurd hw (hno w)
      · refine ordinary_follow hc (Bool.eq_false_iff.2 fun hu => ?_) (hs.reset h v hmem hv) hx
        exact (untouched_iff.1 hu).2 h hmem hv

theorem HasLevel.unique {r : UserRecord} (hr : s.users.lookup u = some r)
    (hl : s.HasLevel u level) : r.level = level := by
  obtain ⟨r', hr', rfl⟩ := hl
  rw [Option.some.inj (hr.symm.trans hr')]

/-- Whoever redeems a token that goes back to a service principal is an ordinary user. -/
theorem redeemed_ordinary (hs : Sheltered s l) (hx : c.apply cfg e s = .ok (s', .session u level k))
    (hm : c.minted l = true) : privileged level = false := by
  cases c with
  | refresh h =>
    obtain ⟨t, r, s₁, ht, hlive, hr, hout, -, -⟩ := refresh_ok hx
    obtain ⟨rfl, rfl, rfl⟩ := Outcome.session.inj hout
    obtain ⟨level, hl, hp⟩ := hs.refresh h t.userId (of_decide_eq_true hm) ⟨t, ht, hlive, rfl⟩
    rwa [HasLevel.unique hr hl]
  | resetPassword h hash =>
    obtain ⟨t, r, s₁, ht, hlive, hr, hout, -, -⟩ := resetPassword_ok hx
    obtain ⟨rfl, rfl, rfl⟩ := Outcome.session.inj hout
    obtain ⟨level, hl, hp⟩ := hs.reset h t.userId (of_decide_eq_true hm) ⟨t, ht, hlive, rfl⟩
    rwa [HasLevel.unique hr hl]
  | mintRefreshToken service target => exact absurd (mintRefreshToken_ok hx).1 (by simp)
  | mintResetToken minter l target => exact absurd (mintResetToken_ok hx).1 (by simp)
  | _ => exact absurd hm Bool.false_ne_true

end

/-! ### Runs -/

section

variable {cfg : IdentitySettings} {boot : DirBoot} {P : Pool DirAct Directory DirCall Reply}

theorem lineage_append {log : Log DirAct} {i : ℕ} {x : Event DirAct} :
    lineage (log ++ [(i, x)]) = (lineage log).next x := List.foldl_append

/-- Of all that has happened, no redemption of a token that goes back to a service principal was by
a privileged user. -/
def Redeemed (log : Log DirAct) : Prop :=
  ∀ l₁ i x l₂, log = l₁ ++ (i, x) :: l₂ → ∀ c u level k, x.tx = some (c, .session u level k) →
    c.minted (lineage l₁) = true → privileged level = false

theorem Redeemed.snoc {log : Log DirAct} {i : ℕ} {x : Event DirAct} (h : Redeemed log)
    (hx : ∀ c u level k, x.tx = some (c, .session u level k) → c.minted (lineage log) = true →
      privileged level = false) : Redeemed (log ++ [(i, x)]) := by
  intro l₁ j y l₂ hlog
  rcases List.eq_nil_or_concat' l₂ with rfl | ⟨l₂, z, rfl⟩
  · obtain ⟨rfl, hxy⟩ := List.append_inj' hlog rfl
    obtain ⟨-, rfl⟩ := Prod.mk.inj (List.singleton_inj.1 hxy)
    exact hx
  · rw [← List.cons_append, ← List.append_assoc] at hlog
    exact h l₁ j y l₂ (List.append_inj' hlog rfl).1

theorem Sheltered.later {s s' : Directory} {l : Lineage} (hs : Sheltered s l)
    (hclock : s.clock ≤ s'.clock) (hu : s'.users = s.users)
    (hr : s'.refreshTokens = s.refreshTokens) (hp : s'.resetTokens = s.resetTokens) :
    Sheltered s' l := by
  constructor
  · intro h u hm ht
    simp only [HasLevel, hu]
    exact hs.refresh h u hm (ht.earlier hr hclock)
  · intro h u hm ht
    simp only [HasLevel, hu]
    exact hs.reset h u hm (ht.earlier hp hclock)

theorem contained_exec {β : Type} {a : DirAct β} {e : DirEnv} {s s' : Directory} {b : β} {i : ℕ}
    {log : Log DirAct} (h : Sheltered s (lineage log) ∧ Redeemed log)
    (hg : a.contained (lineage log) e s = true) (he : a.exec cfg e s = some (s', b)) :
    Sheltered s' (lineage (log ++ [(i, ⟨a, b⟩)])) ∧ Redeemed (log ++ [(i, ⟨a, b⟩)]) := by
  have hnow : s.clock ≤ e.now := (DirAct.exec_eq he).1
  rw [lineage_append, Lineage.next]
  rcases DirAct.exec_cases he with ⟨hnone, hs'⟩ | ⟨c, out, hsome, hc, hf, hx⟩
  · rw [hnone]
    refine ⟨h.1.later (by rw [hs']; exact hnow) (by rw [hs']) (by rw [hs']) (by rw [hs']), ?_⟩
    exact h.2.snoc fun c u level k htx => absurd (hnone.symm.trans htx) (by simp)
  · rw [hsome]
    have hs : Sheltered { s with clock := e.now } (lineage log) := h.1.later hnow rfl rfl rfl
    rw [DirAct.contained, hc, Option.all_some, hf, Bool.false_or] at hg
    refine ⟨hs.apply hg hx, h.2.snoc fun c' u level k htx hm => ?_⟩
    obtain ⟨rfl, rfl⟩ := Prod.mk.inj (Option.some.inj (hsome.symm.trans htx))
    exact redeemed_ordinary hs hx hm

/-- **A token that a service principal has minted is not redeemed by an admin or a service
principal**, not for a session and not for a rotated token or a password, nor is one that it was
exchanged for, in every run whose transactions are so contained. -/
theorem service_tokens_contained (h : Run (identity cfg) containing (.init boot.directory) P)
    {l₁ l₂ : Log DirAct} {i : ℕ} {u : UserId} {level : String} {k : TokenHash} :
    (∀ h, P.log = l₁ ++ (i, ⟨.commit (.refresh h), .ok (.session u level k)⟩) :: l₂ →
      h ∈ (lineage l₁).refresh → level ≠ "admin" ∧ level ≠ "service") ∧
    ∀ h hash, P.log = l₁ ++ (i, ⟨.commit (.resetPassword h hash), .ok (.session u level k)⟩) :: l₂ →
      h ∈ (lineage l₁).reset → level ≠ "admin" ∧ level ≠ "service" := by
  have hP : Sheltered P.shared (lineage P.log) ∧ Redeemed P.log := by
    refine h.guarded (I := fun s log => Sheltered s (lineage log) ∧ Redeemed log) ?_
      fun hs hg he => contained_exec hs hg he
    exact ⟨⟨fun h u hm => absurd hm (by simp [lineage, Pool.init]),
      fun h u hm => absurd hm (by simp [lineage, Pool.init])⟩,
      fun l₁ i x l₂ hlog => absurd hlog (by simp [Pool.init])⟩
  have hlevel : privileged level = false → level ≠ "admin" ∧ level ≠ "service" := by
    simp [privileged]
  refine ⟨fun h hlog hm => hlevel ?_, fun h hash hlog hm => hlevel ?_⟩
  · exact hP.2 _ _ _ _ hlog _ _ _ _ rfl (decide_eq_true hm)
  · exact hP.2 _ _ _ _ hlog _ _ _ _ rfl (decide_eq_true hm)

end

/-! ### A directory to run -/

namespace Sample

/-- The event, if it is the exchange of a refresh token: the token, and the session. -/
def exchanged (x : Event DirAct) : Option (TokenHash × UserId × String × TokenHash) :=
  match x.tx with
  | some (.refresh h, .session u level k) => some (h, u, level, k)
  | _ => none

theorem exchanged_eq_some {x : Event DirAct} {h k : TokenHash} {u : UserId} {level : String}
    (hx : exchanged x = some (h, u, level, k)) :
    x = ⟨.commit (.refresh h), .ok (.session u level k)⟩ := by
  unfold exchanged at hx
  split at hx
  · rename_i htx
    simp only [Option.some.injEq, Prod.mk.injEq] at hx
    obtain ⟨rfl, rfl, rfl, rfl⟩ := hx
    exact Event.tx_eq_some.1 htx
  · exact absurd hx (by simp)

/-- The channel's principal mints a refresh token for a new user. -/
def minted : List (Move DirEnv DirCall) :=
  .start (.createUser (newUser "tier1")) :: List.replicate 3 (.step 0 {}) ++
    .start (.mintRefreshToken "usr_service_bot" "usr_") ::
      List.replicate 3 (.step 1 { secret := "t1" })

/-- The token is exchanged. -/
def exchange (i : ℕ) : List (Move DirEnv DirCall) :=
  .start (.refresh "t1") :: List.replicate 2 (.step i { secret := "t2" })

end Sample

/-- The token of an ordinary user. -/
theorem service_tokens_contained_minted : ∃ P l₁ i u level k, (identity {}).run
      (fun P _ _ a e => a.contained (lineage P.log) e P.shared) (.init Sample.dirBoot.directory)
      (Sample.minted ++ Sample.exchange 2) = some P ∧
    P.log = l₁ ++ [(i, ⟨.commit (.refresh "t1"), .ok (.session u level k)⟩)] ∧
    "t1" ∈ (lineage l₁).refresh ∧ level ≠ "admin" ∧ level ≠ "service" := by
  have hplay : (((identity {}).run (fun P _ _ a e => a.contained (lineage P.log) e P.shared)
      (.init Sample.dirBoot.directory) (Sample.minted ++ Sample.exchange 2)).bind fun P =>
        P.log.getLast?.bind fun x => (Sample.exchanged x.2).map fun y =>
          (y, decide ("t1" ∈ (lineage P.log.dropLast).refresh))) =
      some (("t1", "usr_", "tier1", "t2"), true) := by
    decide +kernel
  obtain ⟨P, hP, h⟩ := Option.bind_eq_some_iff.1 hplay
  obtain ⟨⟨i, x⟩, hlast, h⟩ := Option.bind_eq_some_iff.1 h
  obtain ⟨y, hy, h⟩ := Option.map_eq_some_iff.1 h
  obtain ⟨rfl, hmem⟩ := Prod.mk.inj h
  obtain rfl := Sample.exchanged_eq_some hy
  have hlog := (List.dropLast_append_getLast? _ hlast).symm
  have hrun : Run (identity {}) containing (.init Sample.dirBoot.directory) P :=
    Run.of_run (fun _ _ => trivial) (fun _ _ _ _ _ hc => hc) hP
  exact ⟨P, _, i, _, _, _, hP, hlog, of_decide_eq_true hmem,
    (service_tokens_contained hrun).1 "t1" hlog (of_decide_eq_true hmem)⟩

/-- The user is made an admin before the token is exchanged. -/
theorem service_tokens_not_contained : ¬ ∀ (cfg : IdentitySettings) (boot : DirBoot)
    (P : Pool DirAct Directory DirCall Reply) (l₁ l₂ : Log DirAct) (i : ℕ) (h k : TokenHash)
    (u : UserId) (level : String), Run (identity cfg) .free (.init boot.directory) P →
    P.log = l₁ ++ (i, ⟨.commit (.refresh h), .ok (.session u level k)⟩) :: l₂ →
    h ∈ (lineage l₁).refresh → level ≠ "admin" ∧ level ≠ "service" := by
  intro hall
  have hplay : (((identity {}).run (fun _ _ _ _ _ => true) (.init Sample.dirBoot.directory)
      (Sample.minted ++ [.start (.updateUser "usr_" (some "admin") none), .step 2 {}] ++
        Sample.exchange 3)).bind fun P =>
        P.log.getLast?.bind fun x => (Sample.exchanged x.2).map fun y =>
          (y, decide ("t1" ∈ (lineage P.log.dropLast).refresh))) =
      some (("t1", "usr_", "admin", "t2"), true) := by
    decide +kernel
  obtain ⟨P, hP, h⟩ := Option.bind_eq_some_iff.1 hplay
  obtain ⟨⟨i, x⟩, hlast, h⟩ := Option.bind_eq_some_iff.1 h
  obtain ⟨y, hy, h⟩ := Option.map_eq_some_iff.1 h
  obtain ⟨rfl, hmem⟩ := Prod.mk.inj h
  obtain rfl := Sample.exchanged_eq_some hy
  exact (hall {} Sample.dirBoot P _ [] i "t1" _ _ _
    (Run.of_run (fun _ _ => trivial) (fun _ _ _ _ _ _ => trivial) hP)
    (List.dropLast_append_getLast? _ hlast).symm (of_decide_eq_true hmem)).1 rfl

end Backplane
