import Backplane.Chatbot.CredentialInvariant
import Mathlib.Logic.Relation

/-!
# How a channel recovers

A refresh token that the channel stores stays where it is until its successor arrives.  If the
refresh fails, the next call presents the token again.

* `ChannelState.allowed` : no refresh with a stored token fails.
* `ChannelState.Recovers` : no token is presented twice, a call that is served returns, and none
  waits in vain.
* `credentials_recover` : in every run of such steps, the channel recovers.
-/

namespace Backplane.Chatbot

namespace ChannelState

/-! ### What may happen -/

/-- The router accepts the stored tokens that are presented, its answers to them arrive, and it
drops no token between minting and exchanging it; the channel starts again only if the token in its
file has not been presented. -/
def allowed (s : ChannelState) : ChannelEvent → Bool
  | .handle c => (s.calls.lookup c).all fun call => match call.stage with
    | .refreshing t none | .renewing t none => (s.router.accepts t).isSome
    | _ => true
  | .fail c => (s.calls.lookup c).all fun call => match call.stage with
    | .refreshing _ _ | .renewing _ _ => false
    | _ => true
  | .restart => s.client.fileToken.all (· ∉ s.presented)
  | .drop t => s.calls.entries.all fun x => x.2.minted ≠ some t
  | _ => true

/-- The call waits for a lock that the other one holds. -/
def Waits (s : ChannelState) (c c' : CallId) : Prop :=
  ∃ call, s.calls.lookup c = some call ∧
    (call.stage = .waitService ∧ s.client.serviceLock = some c' ∨
      call.stage = .waitUser ∧ ∃ u, call.user = some u ∧ s.client.userLocks.lookup u = some c')

/-- What is claimed of a state. -/
structure Recovers (service : UserId) (ttl : ℕ) (s : ChannelState) : Prop where
  /-- No token has been presented twice. -/
  once : s.presented.Nodup
  /-- A call that has been served has not raised. -/
  returns : ∀ c call, s.calls.lookup c = some call → call.stage = .done none → call.served = false
  /-- A call goes on, or the one that it waits for does. -/
  goesOn : ∀ c call, s.calls.lookup c = some call → call.stage.isDone = false →
    ∃ c', Relation.ReflTransGen s.Waits c c' ∧
      ∃ e ∈ [ChannelEvent.enter c', .handle c', .receive c' true], (s.step service ttl e).isSome

variable {service : UserId} {ttl : ℕ} {s s' : ChannelState} {c c' : CallId} {call old : Call}
  {u : UserId} {t : Secret} {a : Access} {x : Slot} {o : Option Access} {e : ChannelEvent}

/-! ### The events -/

theorem Inv.begin (h : s.Inv) (hnew : s.calls.lookup c = none) (user : Option UserId) :
    (s.begin c user).Inv := by
  have hnone : ∀ call, s.calls.lookup c ≠ some call := fun call hcall => by
    rw [hnew] at hcall
    cases hcall
  have hlock := h.noUserLock fun call hcall => absurd hcall (hnone call)
  have hservice := h.noServiceLock fun call hcall => absurd hcall (hnone call)
  have hcalm : s.Calm c := h.calm (.refl s) fun old hold => absurd hold (hnone old)
  cases user with
  | none =>
    refine h.askService (.refl c s) ⟨fun u => ?_, hservice, h.file, hcalm⟩
    exact ⟨fun hu => absurd hu (hlock u), fun hu => by cases hu⟩
  | some u =>
    rw [ChannelState.begin]
    split
    · exact h.finish (.refl c s) (fun ho => by cases ho) (fun v hv => absurd hv (hlock v)) h.file
        hcalm
    · exact h.put (.refl c s) (fun hu => by cases hu) (fun hs => absurd hs hservice)
        (fun v hv => absurd hv (hlock v)) h.file (hcalm _ rfl rfl)

theorem Inv.enterUser (h : s.Inv) (hcall : s.calls.lookup c = some call)
    (hstage : call.stage = .waitUser) (huser : call.user = some u)
    (hfree : s.client.userLocks.lookup u = none) : (s.enterUser c call u).Inv := by
  have hlock := h.noUserLock (c := c) fun call' hcall' => by
    obtain rfl := Option.some.inj (hcall.symm.trans hcall')
    rw [hstage]
    rfl
  have hservice := h.noServiceLock (c := c) fun call' hcall' t answer hstage' => by
    obtain rfl := Option.some.inj (hcall.symm.trans hcall')
    rw [hstage] at hstage'
    cases hstage'
  have hasks : call.stage.asks = false := hstage ▸ rfl
  have ho : Others c s { s with client.userLocks := s.client.userLocks.insert u c } := {
    Others.refl c s with
    userLocks := fun v c' hne => by
      rw [Table.lookup_insert]
      split_ifs with hv
      · subst hv
        simp [hfree, hne.symm]
      · exact Iff.rfl }
  have hk : Keeps s { s with client.userLocks := s.client.userLocks.insert u c } :=
    ⟨rfl, rfl, rfl, rfl, rfl⟩
  have hheld : ∀ v, (s.client.userLocks.insert u c).lookup v = some c ↔ call.user = some v := by
    intro v
    rw [Table.lookup_insert, huser]
    split_ifs with hv
    · simp [hv]
    · exact ⟨fun hv => absurd hv (hlock v), fun huv => absurd (Option.some.inj huv).symm hv⟩
  have hcalm := h.calm (c := c) hk fun old hold x hx => by
    obtain rfl := Option.some.inj (hcall.symm.trans hold)
    exact absurd hx.asks (by rw [hasks]; exact Bool.false_ne_true)
  rw [ChannelState.enterUser]
  dsimp only
  split
  · exact h.finish ho (fun ho => by cases ho) (fun v hv => (hheld v).1 hv) h.file hcalm
  · split
    · rename_i t a htoken
      have hok : Call.Ok ({ s with client.userLocks := s.client.userLocks.insert u c }.present t) c
          { call with stage := .refreshing t none } :=
        ⟨u, a, huser, (hheld u).2 huser, htoken, fun x hx => by cases hx⟩
      refine h.put ho.present hok (fun hs => absurd hs hservice) (fun v hv => ⟨(hheld v).1 hv, rfl⟩)
        h.file ?_
      refine h.present hk hcall hasks (x := .user u) (congrArg (Option.map Prod.fst) htoken)
        (fun hask => h.lock_of_asking hask hfree) (fun t' ht' => by cases ht') ⟨huser, t, none, rfl⟩
    · exact h.askService ho ⟨hheld, hservice, h.file, hcalm⟩

theorem Inv.enterService (h : s.Inv) (hcall : s.calls.lookup c = some call)
    (hstage : call.stage = .waitService) (hfree : s.client.serviceLock = none) :
    (s.enterService c call).Inv := by
  have hok := h.calls c call hcall
  rw [Call.Ok, hstage] at hok
  have hservice : s.client.serviceLock ≠ some c := by
    rw [hfree]
    exact (Option.some_ne_none c).symm
  have hasks : call.stage.asks = false := hstage ▸ rfl
  have hheld : ∀ v, s.client.userLocks.lookup v = some c ↔ call.user = some v :=
    fun v => ⟨h.user_of_lock hcall, hok v⟩
  have hcalm : s.Calm c := h.calm (.refl s) fun old hold x hx => by
    obtain rfl := Option.some.inj (hcall.symm.trans hold)
    exact absurd hx.asks (by rw [hasks]; exact Bool.false_ne_true)
  rw [ChannelState.enterService]
  split
  · exact h.withService (.refl c s) ⟨hheld, hservice, h.file, hcalm⟩
  · split
    · exact h.finish (.refl c s) (fun _ => rfl) (fun v hv => (hheld v).1 hv) h.file hcalm
    · rename_i t htoken
      have ho : Others c s { s with client.serviceLock := some c } := {
        Others.refl c s with
        serviceLock := fun c' hne => by simp [hfree, hne.symm] }
      have hok' : Call.Ok ({ s with client.serviceLock := some c }.present t) c
          { call with stage := .renewing t none } :=
        ⟨hok, rfl, htoken, fun x hx => by cases hx⟩
      refine h.put ho.present hok' (fun _ => ⟨t, none, rfl⟩) (fun v hv => ⟨(hheld v).1 hv, rfl⟩)
        h.file ?_
      exact h.present ⟨rfl, rfl, rfl, rfl, rfl⟩ hcall hasks (x := .service) htoken
        (fun hask => h.serviceLock_of_asking hask hfree) (fun t' ht' => by cases ht') ⟨t, none, rfl⟩

/-- The request of a call fails, if it does not ask with a stored token; or the call gives up. -/
theorem Inv.raise {served : Bool} (h : s.Inv) (hcall : s.calls.lookup c = some call)
    (hstage : ∀ x, call.Asks c x → x = .hand c) (hserved : served = false) :
    (s.finish c { call with served } none).Inv := by
  have huser : ∀ u, s.client.userLocks.lookup u = some c → call.user = some u :=
    fun u hu => h.user_of_lock hcall hu
  refine h.finish (.refl c s) (fun _ => hserved) huser h.file (h.calm (.refl s) fun old hold => ?_)
  obtain rfl := Option.some.inj (hcall.symm.trans hold)
  exact hstage

/-! ### The router -/

theorem Inv.lt_of_minted (h : s.Inv) (hcall : s.calls.lookup c = some call)
    (ht : call.minted = some t) : s.held (.hand c) = some t ∧ t < s.router.issued := by
  have hheld : s.held (.hand c) = some t := by
    rw [held, hcall, Option.bind_some, Call.hand]
    rw [Call.minted] at ht
    split <;> simp_all [Call.minted]
  exact ⟨hheld, h.tokens.issued _ t hheld⟩

theorem Inv.others_issue (h : s.Inv) (r : TokenRouter) (hissued : r.issued = s.router.issued)
    (hrows : ∀ c' call t row, c' ≠ c → s.calls.lookup c' = some call → call.minted = some t →
      s.router.rows.lookup t = some row → r.rows.lookup t = some row) (u : UserId) :
    Others c s { s with router := r.issue u } := {
  Others.refl c s with
  rows := fun c' call t row hne hcall hminted hrow => by
    change AList.lookup t (AList.insert r.issued _ r.rows) = _
    have hlt := (h.lt_of_minted hcall hminted).2
    rw [Table.lookup_insert, if_neg fun heq => Nat.ne_of_lt hlt (heq.trans hissued)]
    exact hrows c' call t row hne hcall hminted hrow }

/-- The router answers a refresh: who has the token minted is not affected. -/
theorem Inv.others_refresh (h : s.Inv) (hx : s.held x = some t)
    (hne : ∀ c', c' ≠ c → x ≠ .hand c') :
    Others c s { s with router := (s.router.refresh ttl s.now t).2 } := by
  rw [TokenRouter.refresh]
  split
  · exact .refl c s
  · refine h.others_issue (s.router.use t) rfl (fun c' call t' row hc' hcall hminted hrow => ?_) _
    rw [TokenRouter.use, Table.lookup_update, if_neg, hrow]
    intro heq
    have hheld := (h.lt_of_minted hcall hminted).1
    exact hne c' hc' (h.tokens.inj x _ t hx (heq ▸ hheld))

theorem Inv.others_mint (h : s.Inv) :
    Others c s { s with router := (s.router.mint service s.now a u).2 } := by
  rw [TokenRouter.mint]
  split_ifs
  · exact h.others_issue s.router rfl (fun _ _ _ _ _ _ _ hrow => hrow) u
  · exact .refl c s

theorem refresh_spec (r : TokenRouter) (ttl now : ℕ) (t : Secret) :
    r.accepts t = none ∧ r.refresh ttl now t = (.refused, r) ∨
      (∃ a, (r.refresh ttl now t).1 = .pair r.issued a) ∧
        (r.refresh ttl now t).2.issued = r.issued + 1 := by
  rw [TokenRouter.refresh]
  split
  · exact .inl ⟨‹_›, rfl⟩
  · exact .inr ⟨⟨_, rfl⟩, rfl⟩

theorem Inv.handleRefreshing (h : s.Inv) (hcall : s.calls.lookup c = some call)
    (hstage : call.stage = .refreshing t none) (haccepts : (s.router.accepts t).isSome = true) :
    ({ s with router := (s.router.refresh ttl s.now t).2 }.put c
      { call with stage := .refreshing t (some (s.router.refresh ttl s.now t).1) }).Inv := by
  have hok := h.calls c call hcall
  rw [Call.Ok, hstage] at hok
  obtain ⟨u, a, huser, hlock, htoken, -⟩ := hok
  rcases refresh_spec s.router ttl s.now t with ⟨hnone, -⟩ | ⟨⟨a', hpair⟩, hissued⟩
  · rw [hnone] at haccepts
    cases haccepts
  · refine h.handled hcall (.inr ⟨hissued, by rw [hpair]; rfl⟩)
      (h.others_refresh (x := .user u) (congrArg (Option.map Prod.fst) htoken)
        fun _ _ hx => by cases hx) ⟨u, a, huser, hlock, htoken, fun x hx => ?_⟩ rfl
      (by rw [hstage]; rfl) (fun t answer hr => by rw [hstage] at hr; cases hr) fun x _ hx => ?_
    · exact ⟨_, a', (Option.some.inj hx).symm.trans hpair⟩
    · cases x with
      | service => obtain ⟨t, answer, hr⟩ := hx; rw [hstage] at hr; cases hr
      | user v => exact ⟨hx.1, t, _, rfl⟩
      | hand c' => obtain ⟨-, t, hr⟩ := hx; rw [hstage] at hr; cases hr

theorem Inv.handleRenewing {served : Bool} (h : s.Inv) (hcall : s.calls.lookup c = some call)
    (hstage : call.stage = .renewing t none) (haccepts : (s.router.accepts t).isSome = true) :
    ({ s with router := (s.router.refresh ttl s.now t).2 }.put c
      { call with stage := .renewing t (some (s.router.refresh ttl s.now t).1), served }).Inv := by
  have hok := h.calls c call hcall
  rw [Call.Ok, hstage] at hok
  obtain ⟨huser, hlock, htoken, -⟩ := hok
  rcases refresh_spec s.router ttl s.now t with ⟨hnone, -⟩ | ⟨⟨a', hpair⟩, hissued⟩
  · rw [hnone] at haccepts
    cases haccepts
  · refine h.handled hcall (.inr ⟨hissued, by rw [hpair]; rfl⟩)
      (h.others_refresh (x := .service) htoken fun _ _ hx => by cases hx)
      ⟨huser, hlock, htoken, fun x hx => ?_⟩ rfl (by rw [hstage]; rfl)
      (fun t answer _ => ⟨_, _, rfl⟩) fun x _ hx => ?_
    · exact ⟨_, a', (Option.some.inj hx).symm.trans hpair⟩
    · cases x with
      | service => exact ⟨t, _, rfl⟩
      | user v => obtain ⟨-, t, answer, hr⟩ := hx; rw [hstage] at hr; cases hr
      | hand c' => obtain ⟨-, t, hr⟩ := hx; rw [hstage] at hr; cases hr

theorem Inv.handleMinting (h : s.Inv) (hcall : s.calls.lookup c = some call)
    (hstage : call.stage = .minting a none) (huser : call.user = some u) :
    ({ s with router := (s.router.mint service s.now a u).2 }.put c { call with
      stage := .minting a (some (s.router.mint service s.now a u).1)
      served := call.served && s.router.admits service s.now a && s.router.services u }).Inv := by
  have hok := h.calls c call hcall
  rw [Call.Ok, hstage] at hok
  obtain ⟨v, hv, hlock, -⟩ := hok
  obtain rfl := Option.some.inj (huser.symm.trans hv)
  have hasks : ∀ x, ¬ call.Asks c x := fun x hx => by
    have hasks := hx.asks
    rw [hstage] at hasks
    cases hasks
  have ho : Others c s { s with router := (s.router.mint service s.now a u).2 } := h.others_mint
  by_cases hmint : (s.router.admits service s.now a && s.router.services u) = true
  · rw [TokenRouter.mint, if_pos hmint] at ho ⊢
    refine h.handled hcall (.inr ⟨rfl, rfl⟩) ho ⟨u, huser, hlock, fun x hx _ => ?_⟩ rfl
      (by rw [hstage]; rfl) (fun t answer hr => by rw [hstage] at hr; cases hr)
      fun x _ hx => absurd hx (hasks x)
    obtain rfl := Option.some.inj hx
    refine ⟨s.router.issued, rfl, ?_⟩
    exact (Table.lookup_insert ..).trans (if_pos rfl)
  · rw [TokenRouter.mint, if_neg hmint] at ho ⊢
    refine h.handled hcall (.inl ⟨rfl, rfl⟩) ho ⟨u, huser, hlock, fun x _ hserved => ?_⟩ rfl
      (by rw [hstage]; rfl) (fun t answer hr => by rw [hstage] at hr; cases hr)
      fun x _ hx => absurd hx (hasks x)
    rw [Bool.and_assoc] at hserved
    exact absurd (Bool.and_eq_true_iff.1 hserved).2 hmint

theorem Inv.handleRedeeming (h : s.Inv) (hcall : s.calls.lookup c = some call)
    (hstage : call.stage = .redeeming t none) (huser : call.user = some u) :
    ({ s with router := (s.router.refresh ttl s.now t).2 }.put c { call with
      stage := .redeeming t (some (s.router.refresh ttl s.now t).1)
      served := call.served && s.router.services u }).Inv := by
  have hok := h.calls c call hcall
  rw [Call.Ok, hstage] at hok
  obtain ⟨v, hv, hlock, hopen, -⟩ := hok
  obtain rfl := Option.some.inj (huser.symm.trans hv)
  have hheld : s.held (.hand c) = some t := by
    rw [held, hcall, Option.bind_some, Call.hand, hstage]
    simp only [Call.minted, hstage]
  have ho : Others c s { s with router := (s.router.refresh ttl s.now t).2 } :=
    h.others_refresh hheld fun c' hne hx => hne (Slot.hand.inj hx).symm
  have hasks : ∀ x, x ≠ .hand c → ¬ call.Asks c x := by
    intro x hx hasks
    cases x with
    | service => obtain ⟨t, answer, hr⟩ := hasks; rw [hstage] at hr; cases hr
    | user v => obtain ⟨-, t, answer, hr⟩ := hasks; rw [hstage] at hr; cases hr
    | hand c' => exact hx (congrArg _ hasks.1)
  rcases refresh_spec s.router ttl s.now t with ⟨hnone, hrefused⟩ | ⟨⟨a', hpair⟩, hissued⟩
  · rw [hrefused] at ho ⊢
    refine h.handled hcall (.inl ⟨rfl, rfl⟩) ho
      ⟨u, huser, hlock, (fun hx => by cases hx), fun x _ hserved => ?_⟩ rfl
      (by rw [hstage]; rfl) (fun t answer hr => by rw [hstage] at hr; cases hr)
      fun x hne hx => absurd hx (hasks x hne)
    -- The token that was minted is there, and the user is active.
    obtain ⟨hserved, hservices⟩ := Bool.and_eq_true_iff.1 hserved
    have hactive := (Bool.and_eq_true_iff.1 hservices).2
    rw [TokenRouter.accepts, hopen rfl hserved] at hnone
    simp [Option.filter, hactive] at hnone
  · refine h.handled hcall (.inr ⟨hissued, by rw [hpair]; rfl⟩) ho
      ⟨u, huser, hlock, (fun hx => by cases hx), fun x hx _ => ?_⟩ rfl
      (by rw [hstage]; rfl) (fun t answer hr => by rw [hstage] at hr; cases hr)
      fun x hne hx => absurd hx (hasks x hne)
    exact ⟨_, a', (Option.some.inj hx).symm.trans hpair⟩

/-! ### The answers -/

theorem Inv.storeUser (h : s.Inv) (hcall : s.calls.lookup c = some call)
    (huser : call.user = some u) (hlock : s.client.userLocks.lookup u = some c) (hhand : call.hand = some t)
    (hredeeming : ∀ t', call.stage ≠ .redeeming t' none)
    (hrenewing : ∀ t' answer, call.stage ≠ .renewing t' answer) :
    (s.storeUser c call t a).Inv := by
  have ho : Others c s { s with client.userTokens := s.client.userTokens.insert u (t, a) } := {
    Others.refl c s with
    userTokens := fun v c' hne hv => by
      rw [Table.lookup_insert, if_neg]
      rintro rfl
      exact hne (Option.some.inj (hv.symm.trans hlock)) }
  have husers : ∀ v, s.client.userLocks.lookup v = some c → call.user = some v :=
    fun v hv => h.user_of_lock hcall hv
  have hstored : ({ s with client.userTokens := s.client.userTokens.insert u (t, a) } :
      ChannelState).held (.user u) = some t := by
    rw [held, Table.lookup_insert, if_pos rfl]
    rfl
  have hrest : ∀ z : Slot, z ≠ .user u → z ≠ .hand c →
      ({ s with client.userTokens := s.client.userTokens.insert u (t, a) } : ChannelState).held z =
        s.held z := by
    intro z hz _
    cases z with
    | service => rfl
    | user v =>
      rw [held, Table.lookup_insert, if_neg fun hv => hz (congrArg _ hv)]
      rfl
    | hand c' => rfl
  rw [ChannelState.storeUser, huser]
  refine h.finish ho (fun hn => by cases hn) husers h.file
    (h.calm_move hcall hhand hredeeming rfl rfl rfl hstored (by simp) hrest fun z hz hasks => ?_)
  cases z with
  | service =>
    obtain ⟨t', answer, hstage⟩ := hasks
    exact hrenewing t' answer hstage
  | user v => exact hz (congrArg _ (Option.some.inj (hasks.1.symm.trans huser)))
  | hand c' =>
    obtain ⟨-, t', hstage⟩ := hasks
    exact hredeeming t' hstage

theorem Inv.storeService {written : Bool} {t₀ : Secret} {answer : Option Answer} (h : s.Inv)
    (hcall : s.calls.lookup c = some call) (hstage : call.stage = .renewing t₀ answer)
    (hhand : call.hand = some t) : (s.storeService c call t a written).Inv := by
  have hok := h.calls c call hcall
  rw [Call.Ok, hstage] at hok
  obtain ⟨huser, hlock, -, -⟩ := hok
  have hheld : ∀ v, s.client.userLocks.lookup v = some c ↔ call.user = some v :=
    fun v => ⟨h.user_of_lock hcall, huser v⟩
  have hheld' : s.held (.hand c) = some t := by
    rw [held, hcall]
    exact hhand
  have hissued := h.tokens.issued (.hand c) t hheld'
  have hnotOther : ∀ {c'}, c' ≠ c → s.client.serviceLock ≠ some c' := fun hne hc' =>
    hne (Option.some.inj (hc'.symm.trans hlock))
  -- What is stored is calm, whatever becomes of the lock.
  have hcalm : ∀ s' : ChannelState, s'.calls = s.calls → s'.presented = s.presented →
      s'.router.issued = s.router.issued → s'.client.configToken = some t →
      s'.client.userTokens = s.client.userTokens → s'.Calm c := by
    intro s' hcalls hpresented hissued hconfig husers
    refine h.calm_move hcall hhand (fun t' hr => ?_) hcalls hpresented hissued (y := .service)
      hconfig (by simp) (fun z hz _ => ?_) fun z hz hasks => ?_
    · rw [hstage] at hr
      cases hr
    · cases z with
      | service => exact absurd rfl hz
      | user v => exact congrArg (fun k => (AList.lookup v k).map Prod.fst) husers
      | hand c' => exact congrArg (fun k => (AList.lookup c' k).bind Call.hand) hcalls
    · cases z with
      | service => exact hz rfl
      | user v => obtain ⟨-, t', answer, hr⟩ := hasks; rw [hstage] at hr; cases hr
      | hand c' => obtain ⟨-, t', hr⟩ := hasks; rw [hstage] at hr; cases hr
  rw [ChannelState.storeService]
  cases written with
  | true =>
    refine h.withService ⟨rfl, fun _ _ _ => Iff.rfl, fun _ _ _ _ => rfl, fun c' hne => ?_,
      fun c' hne hc' => absurd hc' (hnotOther hne), fun _ _ _ _ _ _ _ hrow => hrow⟩
      ⟨hheld, (fun hn => by cases hn), fun t' ht' => ?_, hcalm _ rfl rfl rfl rfl rfl⟩
    · exact ⟨fun hn => (by cases hn), fun hc' => absurd hc' (hnotOther hne)⟩
    · obtain rfl := Option.some.inj ht'
      exact hissued
  | false =>
    exact h.finish ⟨rfl, fun _ _ _ => Iff.rfl, fun _ _ _ _ => rfl, fun _ _ => Iff.rfl,
      fun c' hne hc' => absurd hc' (hnotOther hne), fun _ _ _ _ _ _ _ hrow => hrow⟩ (fun _ => rfl)
      (fun v hv => (hheld v).1 hv) h.file (hcalm _ rfl rfl rfl rfl rfl)

theorem Inv.receive {written : Bool} (h : s.Inv)
    (hstep : ChannelState.step service ttl s (.receive c written) = some s') : s'.Inv := by
  obtain ⟨call, hcall, hstep⟩ := Option.bind_eq_some_iff.1 hstep
  have hok := h.calls c call hcall
  have hraise : (∀ x, call.Asks c x → x = .hand c) → call.served = false →
      (s.finish c call none).Inv := h.raise hcall
  have hnothing : call.stage.asks = false → ∀ x, call.Asks c x → x = .hand c :=
    fun hasks x hx => absurd hx.asks (by rw [hasks]; exact Bool.false_ne_true)
  rw [Call.Ok] at hok
  cases hstage : call.stage with
  | waitUser | waitService | done o =>
    rw [hstage] at hstep
    cases hstep
  | refreshing t₀ answer =>
    rw [hstage] at hstep hok
    obtain ⟨u, a, huser, hlock, -, hpair⟩ := hok
    cases answer with
    | none => cases hstep
    | some x =>
      obtain ⟨t, a', rfl⟩ := hpair x rfl
      refine Option.some.inj hstep ▸ h.storeUser hcall huser hlock (by rw [Call.hand, hstage])
        (fun t' hr => ?_) fun t' answer hr => ?_
      · rw [hstage] at hr; cases hr
      · rw [hstage] at hr; cases hr
  | renewing t₀ answer =>
    rw [hstage] at hstep hok
    obtain ⟨-, -, -, hpair⟩ := hok
    cases answer with
    | none => cases hstep
    | some x =>
      obtain ⟨t, a', rfl⟩ := hpair x rfl
      exact Option.some.inj hstep ▸ h.storeService hcall hstage (by rw [Call.hand, hstage])
  | minting a answer =>
    rw [hstage] at hstep hok
    obtain ⟨u, huser, hlock, hminted⟩ := hok
    cases answer with
    | none => cases hstep
    | some x =>
      have hasks : call.stage.asks = false := hstage ▸ rfl
      cases x with
      | minted t =>
        have hok' : Call.Ok (s.present t) c { call with stage := .redeeming t none } := by
          refine ⟨u, huser, hlock, fun _ hserved => ?_, fun x hx => by cases hx⟩
          obtain ⟨t', ht', hrow⟩ := hminted _ rfl hserved
          cases ht'
          exact hrow
        have hservice := h.noServiceLock (c := c) fun call' hcall' t answer hr => by
          obtain rfl := Option.some.inj (hcall.symm.trans hcall')
          rw [hstage] at hr
          cases hr
        have hhand : call.hand = some t := by
          rw [Call.hand, hstage]
          simp only [Call.minted, hstage]
        have husers : ∀ v, s.client.userLocks.lookup v = some c → call.user = some v :=
          fun v hv => h.user_of_lock hcall hv
        refine Option.some.inj hstep ▸ h.put (Others.refl c s).present hok'
          (fun hs => absurd hs hservice) (fun v hv => ⟨husers v hv, rfl⟩) h.file
          (h.present (.refl s) hcall hasks (x := .hand c) ?_ ?_ (fun t' ht' => ?_) ⟨rfl, t, rfl⟩)
        · rw [held, hcall]
          exact hhand
        · rintro ⟨c', call', hcall', rfl, t', hr⟩
          obtain rfl := Option.some.inj (hcall.symm.trans hcall')
          rw [hstage] at hr
          cases hr
        · rw [hhand]
          exact ht'
      | pair t a | refused =>
        refine Option.some.inj hstep ▸ hraise (hnothing hasks) ?_
        by_contra hserved
        obtain ⟨t', hx, -⟩ := hminted _ rfl ((Bool.not_eq_false _).mp hserved)
        cases hx
  | redeeming t₀ answer =>
    rw [hstage] at hstep hok
    obtain ⟨u, huser, hlock, -, hpair⟩ := hok
    cases answer with
    | none => cases hstep
    | some x =>
      have hasks : call.stage.asks = false := hstage ▸ rfl
      cases x with
      | pair t a =>
        refine Option.some.inj hstep ▸ h.storeUser hcall huser hlock (by rw [Call.hand, hstage])
          (fun t' hr => ?_) fun t' answer hr => ?_
        · rw [hstage] at hr; cases hr
        · rw [hstage] at hr; cases hr
      | minted t | refused =>
        refine Option.some.inj hstep ▸ hraise (hnothing hasks) ?_
        by_contra hserved
        obtain ⟨n, a, hx⟩ := hpair _ rfl ((Bool.not_eq_false _).mp hserved)
        cases hx

/-! ### What the channel does not do -/

theorem Inv.of_router (h : s.Inv) (r : TokenRouter) (hissued : s.router.issued ≤ r.issued)
    (hrows : ∀ c call t row, s.calls.lookup c = some call → call.minted = some t →
      s.router.rows.lookup t = some row → r.rows.lookup t = some row) :
    ({ s with router := r } : ChannelState).Inv where
  tokens := h.tokens.weaken (fun _ _ ht => ⟨ht, id⟩) hissued
  file t ht := Nat.lt_of_lt_of_le (h.file t ht) hissued
  calls c call hcall := by
    have ho : Others (c + 1) s { s with router := r } := {
      Others.refl (c + 1) s with
      rows := fun c' call t row _ => hrows c' call t row }
    have hok : call.Ok { s with router := r } c := (h.calls c call hcall).frame (by simp) hcall ho
    exact hok
  serviceLock := h.serviceLock
  userLocks := h.userLocks

theorem Inv.restart (h : s.Inv) (hfile : s.client.fileToken.all (· ∉ s.presented) = true) :
    ({ s with
      client := { configToken := s.client.fileToken, fileToken := s.client.fileToken }
      calls := ∅ } : ChannelState).Inv := by
  refine ⟨⟨fun x t hx => ?_, h.tokens.old, fun x y t hx hy => ?_, h.tokens.nodup,
    fun x t hx ht => ?_⟩, h.file, fun c call hcall => (by cases hcall), fun c hc => (by cases hc),
    fun u c hc => (by cases hc)⟩
  · cases x with
    | service => exact h.file t hx
    | user u => cases hx
    | hand c => cases hx
  · cases x with
    | service => cases y with
      | service => rfl
      | user u => cases hy
      | hand c => cases hy
    | user u => cases hx
    | hand c => cases hx
  · cases x with
    | service =>
      rw [show s.client.fileToken = some t from hx, Option.all_some] at hfile
      exact absurd ht (of_decide_eq_true hfile)
    | user u => cases hx
    | hand c => cases hx

theorem mem_entries (h : s.calls.lookup c = some call) : ⟨c, call⟩ ∈ s.calls.entries :=
  AList.mem_lookup_iff.1 h

/-- **What an event that is allowed keeps.** -/
theorem Inv.step (h : s.Inv) (hallowed : s.allowed e = true)
    (hstep : s.step service ttl e = some s') : s'.Inv := by
  cases e with
  | call c user =>
    rw [ChannelState.step] at hstep
    split_ifs at hstep with hnew
    exact Option.some.inj hstep ▸ h.begin (Option.not_isSome_iff_eq_none.1 hnew) user
  | enter c =>
    obtain ⟨call, hcall, hstep⟩ := Option.bind_eq_some_iff.1 hstep
    split at hstep
    · rename_i u hstage huser
      split_ifs at hstep with hfree
      exact Option.some.inj hstep ▸
        h.enterUser hcall hstage huser (Option.not_isSome_iff_eq_none.1 hfree)
    · rename_i hstage
      split_ifs at hstep with hfree
      exact Option.some.inj hstep ▸
        h.enterService hcall hstage (Option.not_isSome_iff_eq_none.1 hfree)
    · cases hstep
  | handle c =>
    obtain ⟨call, hcall, hstep⟩ := Option.bind_eq_some_iff.1 hstep
    rw [allowed, hcall, Option.all_some] at hallowed
    split at hstep
    · rename_i t hstage
      rw [hstage] at hallowed
      exact Option.some.inj hstep ▸ h.handleRefreshing hcall hstage hallowed
    · rename_i t hstage
      rw [hstage] at hallowed
      exact Option.some.inj hstep ▸ h.handleRenewing hcall hstage hallowed
    · rename_i a u hstage huser
      exact Option.some.inj hstep ▸ h.handleMinting hcall hstage huser
    · rename_i t u hstage huser
      exact Option.some.inj hstep ▸ h.handleRedeeming hcall hstage huser
    · cases hstep
  | receive c written => exact h.receive hstep
  | fail c =>
    obtain ⟨call, hcall, hstep⟩ := Option.bind_eq_some_iff.1 hstep
    rw [allowed, hcall, Option.all_some] at hallowed
    split_ifs at hstep
    refine Option.some.inj hstep ▸ h.raise hcall (fun x hx => ?_) rfl
    cases x with
    | service =>
      obtain ⟨t, answer, hstage⟩ := hx
      rw [hstage] at hallowed
      cases hallowed
    | user u =>
      obtain ⟨-, t, answer, hstage⟩ := hx
      rw [hstage] at hallowed
      cases hallowed
    | hand c' => exact congrArg _ hx.1
  | restart => exact Option.some.inj hstep ▸ h.restart hallowed
  | tick n =>
    exact Option.some.inj hstep ▸ ⟨h.tokens, h.file, h.calls, h.serviceLock, h.userLocks⟩
  | drop t =>
    refine Option.some.inj hstep ▸ h.of_router _ le_rfl fun c call t' row hcall hminted hrow => ?_
    have hne := of_decide_eq_true (List.all_eq_true.1 hallowed _ (mem_entries hcall))
    refine (AList.lookup_erase_ne fun heq => hne ?_).trans hrow
    exact heq ▸ hminted
  | issue u =>
    refine Option.some.inj hstep ▸ h.of_router _ (Nat.le_succ _)
      fun c call t row hcall hminted hrow => ?_
    have hlt := (h.lt_of_minted hcall hminted).2
    exact (Table.lookup_insert ..).trans ((if_neg (Nat.ne_of_lt hlt)).trans hrow)
  | users suspended deleted serviced =>
    exact Option.some.inj hstep ▸ h.of_router _ le_rfl fun _ _ _ _ _ _ hrow => hrow

/-! ### The channel recovers -/

/-- A request that has been sent is answered, or its answer arrives. -/
theorem Inv.answered (h : s.Inv) (hcall : s.calls.lookup c = some call)
    (hcritical : call.stage.isCritical = true) (hstage : call.stage ≠ .waitService) :
    ∃ e ∈ [ChannelEvent.enter c, .handle c, .receive c true], (s.step service ttl e).isSome := by
  have hok := h.calls c call hcall
  rw [Call.Ok] at hok
  cases hst : call.stage with
  | waitUser | done o =>
    rw [hst] at hcritical
    cases hcritical
  | waitService => exact absurd hst hstage
  | refreshing t answer | renewing t answer =>
    cases answer with
    | none => exact ⟨.handle c, by simp, by simp [ChannelState.step, hcall, hst]⟩
    | some x =>
      cases x <;> exact ⟨.receive c true, by simp, by simp [ChannelState.step, hcall, hst]⟩
  | minting a answer =>
    rw [hst] at hok
    obtain ⟨u, huser, -⟩ := hok
    cases answer with
    | none => exact ⟨.handle c, by simp, by simp [ChannelState.step, hcall, hst, huser]⟩
    | some x =>
      cases x <;> exact ⟨.receive c true, by simp, by simp [ChannelState.step, hcall, hst]⟩
  | redeeming t answer =>
    rw [hst] at hok
    obtain ⟨u, huser, -⟩ := hok
    cases answer with
    | none => exact ⟨.handle c, by simp, by simp [ChannelState.step, hcall, hst, huser]⟩
    | some x =>
      cases x <;> exact ⟨.receive c true, by simp, by simp [ChannelState.step, hcall, hst]⟩

/-- A call that waits for the lock of the channel. -/
theorem Inv.goesOn_service (h : s.Inv) (hcall : s.calls.lookup c = some call)
    (hstage : call.stage = .waitService) : ∃ c', Relation.ReflTransGen s.Waits c c' ∧
      ∃ e ∈ [ChannelEvent.enter c', .handle c', .receive c' true],
        (s.step service ttl e).isSome := by
  cases hlock : s.client.serviceLock with
  | none => exact ⟨c, .refl, .enter c, by simp, by simp [ChannelState.step, hcall, hstage, hlock]⟩
  | some c' =>
    obtain ⟨call', hcall', t, answer, hstage'⟩ := h.serviceLock c' hlock
    refine ⟨c', .single ⟨call, hcall, .inl ⟨hstage, hlock⟩⟩, h.answered hcall' ?_ ?_⟩
    · rw [hstage']
      rfl
    · rw [hstage']
      simp

theorem Inv.goesOn (h : s.Inv) (hcall : s.calls.lookup c = some call)
    (hopen : call.stage.isDone = false) : ∃ c', Relation.ReflTransGen s.Waits c c' ∧
      ∃ e ∈ [ChannelEvent.enter c', .handle c', .receive c' true],
        (s.step service ttl e).isSome := by
  by_cases hservice : call.stage = .waitService
  · exact h.goesOn_service hcall hservice
  by_cases huser : call.stage = .waitUser
  · have hok := h.calls c call hcall
    rw [Call.Ok, huser] at hok
    obtain ⟨u, hu⟩ := Option.ne_none_iff_exists'.1 hok
    cases hlock : s.client.userLocks.lookup u with
    | none =>
      exact ⟨c, .refl, .enter c, by simp, by simp [ChannelState.step, hcall, huser, hu, hlock]⟩
    | some c' =>
      -- The holder goes on, or it waits for the lock of the channel.
      obtain ⟨call', hcall', hu', hcritical⟩ := h.userLocks u c' hlock
      have hwaits : s.Waits c c' := ⟨call, hcall, .inr ⟨huser, u, hu, hlock⟩⟩
      by_cases hservice' : call'.stage = .waitService
      · obtain ⟨c'', hpath, hgoes⟩ := h.goesOn_service hcall' hservice'
        exact ⟨c'', hpath.head hwaits, hgoes⟩
      · exact ⟨c', .single hwaits, h.answered hcall' hcritical hservice'⟩
  · refine ⟨c, .refl, h.answered hcall ?_ hservice⟩
    cases hstage : call.stage <;> simp_all [Stage.isCritical, Stage.isDone]

theorem Inv.recovers (h : s.Inv) : s.Recovers service ttl where
  once := h.tokens.nodup
  returns c call hcall hdone := by
    have hok := h.calls c call hcall
    rw [Call.Ok, hdone] at hok
    exact hok rfl
  goesOn _ _ hcall hopen := h.goesOn hcall hopen

theorem onboarded_inv (service : UserId) (provisioned : Bool) :
    (onboarded service provisioned).Inv := by
  have hheld : ∀ x t, (onboarded service provisioned).held x = some t →
      x = .service ∧ t < (onboarded service provisioned).router.issued := by
    intro x t hx
    cases provisioned <;> cases x <;> cases hx
    exact ⟨rfl, Nat.zero_lt_one⟩
  refine ⟨⟨fun x t hx => (hheld x t hx).2, fun t ht => (by cases ht),
    fun x y t hx hy => (hheld x t hx).1.trans (hheld y t hy).1.symm, List.nodup_nil,
    fun x t hx ht => (by cases ht)⟩, fun t ht => ?_, fun c call hcall => (by cases hcall),
    fun c hc => ?_, fun u c hc => ?_⟩
  · cases provisioned <;> cases ht
    exact Nat.zero_lt_one
  · cases provisioned <;> cases hc
  · cases provisioned <;> cases hc

end ChannelState

/-- **The channel recovers** in every run in which the router accepts the stored tokens that are
presented and its answers to them arrive: no token is presented twice, and a call returns if it is
answered while its credential is good and the user is serviced. -/
theorem credentials_recover {provisioned : Bool}
    (h : (channelSystem service ttl provisioned).Reaches (fun s e => s.allowed e = true) s) :
    s.Recovers service ttl := by
  have hinv : (channelSystem service ttl provisioned).Invariant (fun s e => s.allowed e = true)
      ChannelState.Inv := {
    init := ChannelState.onboarded_inv service provisioned
    step := fun hs hallowed hstep => hs.step hallowed hstep }
  exact (hinv.of_reaches h).recovers

namespace Sample

/-- A user is serviced, and gets a first token. -/
def firstToken : List ChannelEvent :=
  [.users [] [] ["u"], .call 0 (some "u"), .enter 0, .enter 0, .handle 0, .receive 0 true,
    .handle 0, .receive 0 true, .handle 0, .receive 0 true]

/-- The access token has expired, and the answer to the refresh is lost. -/
def lostAnswer : List ChannelEvent :=
  firstToken ++ [.tick 900, .call 1 (some "u"), .enter 1, .handle 1, .fail 1]

def nextCall : List ChannelEvent :=
  lostAnswer ++ [.call 2 (some "u"), .enter 2, .handle 2, .receive 2 true]

/-- How a call has ended, and whether it was served. -/
def ended (c : CallId) (s : ChannelState) : Option (Option Access × Bool) :=
  (s.calls.lookup c).bind fun call => match call.stage with
    | .done o => some (o, call.served)
    | _ => none

end Sample

theorem credentials_recover_first : ∃ s,
    (channelSystem "chat" 900 true).run ChannelState.allowed (.onboarded "chat" true)
      Sample.firstToken = some s ∧
      Sample.ended 0 s = some (some ⟨"u", 900⟩, true) ∧ s.Recovers "chat" 900 := by
  have hrun : ((channelSystem "chat" 900 true).run ChannelState.allowed (.onboarded "chat" true)
      Sample.firstToken).map (Sample.ended 0) = some (some (some ⟨"u", 900⟩, true)) := by
    decide +kernel
  obtain ⟨s, hs, hended⟩ := Option.map_eq_some_iff.1 hrun
  exact ⟨s, hs, hended, credentials_recover (.of_run (fun _ _ h => h) hs)⟩

/-- **A token is presented twice** when the answer to its refresh was lost, and the call fails
although it is served. -/
theorem lost_answer_sticks :
    (¬ ∀ s, (channelSystem "chat" 900 true).Reaches (fun _ _ => True) s → s.presented.Nodup) ∧
    ¬ ∀ s, (channelSystem "chat" 900 true).Reaches (fun _ _ => True) s → ∀ c call,
      s.calls.lookup c = some call → call.stage = .done none → call.served = false := by
  have hrun : ((channelSystem "chat" 900 true).run (fun _ _ => true) (.onboarded "chat" true)
      Sample.nextCall).map (fun s => (s.presented, Sample.ended 2 s)) =
        some ([3, 3, 2, 0], some (none, true)) := by decide +kernel
  obtain ⟨s, hs, hread⟩ := Option.map_eq_some_iff.1 hrun
  obtain ⟨hpresented, hended⟩ := Prod.mk.inj hread
  have hreach : (channelSystem "chat" 900 true).Reaches (fun _ _ => True) s :=
    .of_run (fun _ _ _ => trivial) hs
  refine ⟨fun hall => ?_, fun hall => ?_⟩
  · have hnodup := hall s hreach
    rw [hpresented] at hnodup
    exact absurd hnodup (by decide)
  · obtain ⟨call, hcall, hdone⟩ := Option.bind_eq_some_iff.1 hended
    split at hdone
    · rename_i o hstage
      obtain ⟨rfl, hserved⟩ := Prod.mk.inj (Option.some.inj hdone)
      have hfalse := hall s hreach 2 call hcall hstage
      rw [hserved] at hfalse
      cases hfalse
    · cases hdone

end Backplane.Chatbot
