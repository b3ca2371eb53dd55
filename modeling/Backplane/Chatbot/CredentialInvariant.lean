import Backplane.Chatbot.Credentials
import Backplane.Data.SingleUse

/-!
# Where the tokens of a channel are

A refresh token is in the configuration, among the tokens of a user, or in the hand of a call.  The
locks keep two calls from asking for a successor of one token.

* `Slot`, `ChannelState.held` : the places, and what is there.
* `Call.Ok` : what a call relies on, where it is.
* `ChannelState.Inv` : what holds at any time; `Inv.put`, `Inv.finish`, `Inv.askService`,
  `Inv.handled` : what keeps it when a call moves.
-/

namespace Backplane.Chatbot

/-! ### Where tokens are -/

/-- A place where the channel has a refresh token. -/
inductive Slot
  | service
  | user (u : UserId)
  /-- A call, which has been answered or minted one. -/
  | hand (c : CallId)

/-- The token that the call has been minted, and has not exchanged. -/
def Call.minted (call : Call) : Option Secret :=
  match call.stage with
  | .minting _ (some (.minted t)) | .redeeming t none => some t
  | _ => none

/-- The token that the call has, and has not stored. -/
def Call.hand (call : Call) : Option Secret :=
  match call.stage with
  | .refreshing _ (some (.pair t _)) | .renewing _ (some (.pair t _))
  | .redeeming _ (some (.pair t _)) => some t
  | _ => call.minted

/-- The call asks for a successor of the token in this place. -/
def Call.Asks (call : Call) (c : CallId) : Slot → Prop
  | .service => ∃ t answer, call.stage = .renewing t answer
  | .user u => call.user = some u ∧ ∃ t answer, call.stage = .refreshing t answer
  | .hand c' => c' = c ∧ ∃ t, call.stage = .redeeming t none

/-- The call asks for a successor. -/
def Stage.asks : Stage → Bool
  | .refreshing _ _ | .renewing _ _ | .redeeming _ none => true
  | _ => false

theorem Call.Asks.asks {call : Call} {c : CallId} {x : Slot} (h : call.Asks c x) :
    call.stage.asks = true := by
  cases x with
  | service =>
    obtain ⟨t, answer, hstage⟩ := h
    rw [hstage, Stage.asks]
  | user u =>
    obtain ⟨-, t, answer, hstage⟩ := h
    rw [hstage, Stage.asks]
  | hand c' =>
    obtain ⟨-, t, hstage⟩ := h
    rw [hstage, Stage.asks]

/-- The call holds the lock of its user. -/
def Stage.isCritical : Stage → Bool
  | .waitUser | .done _ => false
  | _ => true

namespace ChannelState

/-- The token in a place. -/
def held (s : ChannelState) : Slot → Option Secret
  | .service => s.client.configToken
  | .user u => (s.client.userTokens.lookup u).map Prod.fst
  | .hand c => (s.calls.lookup c).bind Call.hand

/-- Some call asks for a successor of the token in this place. -/
def IsAsking (s : ChannelState) (x : Slot) : Prop :=
  ∃ c call, s.calls.lookup c = some call ∧ call.Asks c x

end ChannelState

/-! ### What holds at any time -/

/-- What a call relies on. -/
def Call.Ok (s : ChannelState) (c : CallId) (call : Call) : Prop :=
  match call.stage with
  | .waitUser => call.user ≠ none
  | .waitService => ∀ u, call.user = some u → s.client.userLocks.lookup u = some c
  | .refreshing t answer => ∃ u a, call.user = some u ∧ s.client.userLocks.lookup u = some c ∧
      s.client.userTokens.lookup u = some (t, a) ∧ ∀ x, answer = some x → ∃ n a, x = .pair n a
  | .renewing t answer => (∀ u, call.user = some u → s.client.userLocks.lookup u = some c) ∧
      s.client.serviceLock = some c ∧ s.client.configToken = some t ∧
      ∀ x, answer = some x → ∃ n a, x = .pair n a
  | .minting _ answer => ∃ u, call.user = some u ∧ s.client.userLocks.lookup u = some c ∧
      ∀ x, answer = some x → call.served = true →
        ∃ t, x = .minted t ∧ s.router.rows.lookup t = some ⟨u, false⟩
  | .redeeming t answer => ∃ u, call.user = some u ∧ s.client.userLocks.lookup u = some c ∧
      (answer = none → call.served = true → s.router.rows.lookup t = some ⟨u, false⟩) ∧
      ∀ x, answer = some x → call.served = true → ∃ n a, x = .pair n a
  | .done o => o = none → call.served = false

namespace ChannelState

/-- What holds at any time. -/
structure Inv (s : ChannelState) : Prop where
  /-- The tokens are good once. -/
  tokens : SingleUse s.held s.IsAsking s.presented s.router.issued
  /-- The token in the file has been issued. -/
  file : ∀ t, s.client.fileToken = some t → t < s.router.issued
  /-- The calls have what they rely on. -/
  calls : ∀ c call, s.calls.lookup c = some call → call.Ok s c
  /-- The lock of the channel is held by a call that refreshes. -/
  serviceLock : ∀ c, s.client.serviceLock = some c →
    ∃ call, s.calls.lookup c = some call ∧ ∃ t answer, call.stage = .renewing t answer
  /-- The locks of users are held by calls for them. -/
  userLocks : ∀ u c, s.client.userLocks.lookup u = some c →
    ∃ call, s.calls.lookup c = some call ∧ call.user = some u ∧ call.stage.isCritical = true

/-- What the other calls rely on is as it was. -/
structure Others (c : CallId) (s s' : ChannelState) : Prop where
  calls : s'.calls = s.calls
  userLocks : ∀ u c', c' ≠ c →
    (s'.client.userLocks.lookup u = some c' ↔ s.client.userLocks.lookup u = some c')
  userTokens : ∀ u c', c' ≠ c → s.client.userLocks.lookup u = some c' →
    s'.client.userTokens.lookup u = s.client.userTokens.lookup u
  serviceLock : ∀ c', c' ≠ c → (s'.client.serviceLock = some c' ↔ s.client.serviceLock = some c')
  /-- The token of the channel, while they hold the lock. -/
  configToken : ∀ c', c' ≠ c → s.client.serviceLock = some c' →
    s'.client.configToken = s.client.configToken
  /-- The rows of the tokens that they have been minted. -/
  rows : ∀ c' call t row, c' ≠ c → s.calls.lookup c' = some call → call.minted = some t →
    s.router.rows.lookup t = some row → s'.router.rows.lookup t = some row

end ChannelState

variable {s s' : ChannelState} {c c' : CallId} {call old : Call} {u : UserId} {t : Secret}
  {a : Access} {x : Slot} {o : Option Access}

theorem Call.Ok.frame (hok : call.Ok s c') (hne : c' ≠ c) (hcall : s.calls.lookup c' = some call)
    (h : ChannelState.Others c s s') : call.Ok s' c' := by
  have hrow : ∀ t row, call.minted = some t → s.router.rows.lookup t = some row →
      s'.router.rows.lookup t = some row := fun t row => h.rows c' call t row hne hcall
  have hlock : ∀ u, s.client.userLocks.lookup u = some c' →
      s'.client.userLocks.lookup u = some c' := fun u hu => (h.userLocks u c' hne).2 hu
  unfold Call.Ok at hok ⊢
  split at hok <;> rename_i hstage
  · exact hok
  · exact fun u hu => hlock u (hok u hu)
  · obtain ⟨u, a, huser, hu, htoken, hanswer⟩ := hok
    exact ⟨u, a, huser, hlock u hu, (h.userTokens u c' hne hu).trans htoken, hanswer⟩
  · obtain ⟨huser, hservice, htoken, hanswer⟩ := hok
    exact ⟨fun u hu => hlock u (huser u hu), (h.serviceLock c' hne).2 hservice,
      (h.configToken c' hne hservice).trans htoken, hanswer⟩
  · obtain ⟨u, huser, hu, hanswer⟩ := hok
    refine ⟨u, huser, hlock u hu, fun x hx hserved => ?_⟩
    obtain ⟨t, rfl, ht⟩ := hanswer x hx hserved
    subst hx
    exact ⟨t, rfl, hrow t _ (by rw [Call.minted, hstage]) ht⟩
  · obtain ⟨u, huser, hu, hopen, hanswer⟩ := hok
    refine ⟨u, huser, hlock u hu, fun hx hserved => ?_, hanswer⟩
    subst hx
    exact hrow _ _ (by rw [Call.minted, hstage]) (hopen rfl hserved)
  · exact hok

namespace ChannelState

theorem Others.refl (c : CallId) (s : ChannelState) : Others c s s :=
  ⟨rfl, fun _ _ _ => Iff.rfl, fun _ _ _ _ => rfl, fun _ _ => Iff.rfl, fun _ _ _ => rfl,
    fun _ _ _ _ _ _ _ h => h⟩

/-- The locks of the call are free. -/
theorem Others.release (h : Others c s s') (user : Option UserId) :
    Others c s { s' with client := s'.client.release c user } where
  calls := h.calls
  userLocks u c' hne := by
    rw [← h.userLocks u c' hne]
    cases user with
    | none => exact Iff.rfl
    | some v =>
      change AList.lookup u (if _ then _ else _) = _ ↔ _
      split_ifs with hv
      · by_cases hu : u = v
        · subst hu
          rw [AList.lookup_erase, hv]
          simp [Ne.symm hne]
        · rw [AList.lookup_erase_ne hu]
      · exact Iff.rfl
  userTokens := h.userTokens
  serviceLock c' hne := by
    rw [← h.serviceLock c' hne]
    change Option.filter _ _ = _ ↔ _
    simp [Option.filter_eq_some_iff, hne]
  configToken := h.configToken
  rows := h.rows

/-! ### A call moves -/

theorem held_put_hand : (s.put c call).held (.hand c) = call.hand := by
  rw [held, put, Table.lookup_insert, if_pos rfl]
  rfl

theorem held_put (hx : x ≠ .hand c) : (s.put c call).held x = s.held x := by
  cases x with
  | service => rfl
  | user u => rfl
  | hand c' =>
    have hne : c' ≠ c := fun h => hx (congrArg _ h)
    rw [held, put, Table.lookup_insert, if_neg hne]
    rfl

/-- Who asks when a call has moved. -/
theorem IsAsking.put (h : s.IsAsking x)
    (hold : ∀ old, s.calls.lookup c = some old → old.Asks c x → call.Asks c x) :
    (s.put c call).IsAsking x := by
  obtain ⟨c', call', hcall', hasks⟩ := h
  by_cases hc : c' = c
  · subst hc
    exact ⟨c', call, by rw [ChannelState.put, Table.lookup_insert, if_pos rfl],
      hold call' hcall' hasks⟩
  · exact ⟨c', call', by rw [ChannelState.put, Table.lookup_insert, if_neg hc, hcall'], hasks⟩

/-- A call moves, and the other ones have what they rely on. -/
theorem Inv.put (h : s.Inv) (ho : Others c s s') (hok : call.Ok s' c)
    (hservice : s'.client.serviceLock = some c → ∃ t answer, call.stage = .renewing t answer)
    (huser : ∀ u, s'.client.userLocks.lookup u = some c →
      call.user = some u ∧ call.stage.isCritical = true)
    (hfile : ∀ t, s'.client.fileToken = some t → t < s'.router.issued)
    (htokens : SingleUse (s'.put c call).held (s'.put c call).IsAsking s'.presented
      s'.router.issued) : (s'.put c call).Inv := by
  have hself : (s'.put c call).calls.lookup c = some call := by
    rw [ChannelState.put, Table.lookup_insert, if_pos rfl]
  have hother : ∀ c', c' ≠ c → (s'.put c call).calls.lookup c' = s.calls.lookup c' := by
    intro c' hne
    rw [ChannelState.put, Table.lookup_insert, if_neg hne, ho.calls]
  refine ⟨htokens, hfile, fun c' call' hcall' => ?_, fun c' hc' => ?_, fun u c' hc' => ?_⟩
  · by_cases hc : c' = c
    · subst hc
      obtain rfl := Option.some.inj (hself.symm.trans hcall')
      exact hok
    · rw [hother c' hc] at hcall'
      have hok' : call'.Ok s' c' := (h.calls c' call' hcall').frame hc hcall' ho
      exact hok'
  · by_cases hc : c' = c
    · subst hc
      exact ⟨call, hself, hservice hc'⟩
    · rw [hother c' hc]
      exact h.serviceLock c' ((ho.serviceLock c' hc).1 hc')
  · by_cases hc : c' = c
    · subst hc
      exact ⟨call, hself, huser u hc'⟩
    · rw [hother c' hc]
      exact h.userLocks u c' ((ho.userLocks u c' hc).1 hc')

/-- The tokens are good once, if the call has none and asks for none. -/
def Calm (s : ChannelState) (c : CallId) : Prop :=
  ∀ call : Call, call.hand = none → call.stage.asks = false →
    SingleUse (s.put c call).held (s.put c call).IsAsking s.presented s.router.issued

theorem Inv.finish (h : s.Inv) (ho : Others c s s') (hserved : o = none → call.served = false)
    (huser : ∀ u, s'.client.userLocks.lookup u = some c → call.user = some u)
    (hfile : ∀ t, s'.client.fileToken = some t → t < s'.router.issued) (hcalm : s'.Calm c) :
    (s'.finish c call o).Inv := by
  refine h.put (ho.release call.user) hserved (fun hlock => ?_) (fun u hu => ?_) hfile
    (hcalm _ rfl rfl)
  · exact absurd (Option.filter_eq_some_iff.1 hlock).2 (by simp)
  · -- Its user's lock is free, and it holds no other one.
    exfalso
    cases hv : call.user with
    | none =>
      rw [hv] at hu huser
      cases huser u hu
    | some v =>
      rw [hv] at hu huser
      change AList.lookup u (if _ then _ else _) = _ at hu
      split_ifs at hu with hlock
      · by_cases huv : u = v
        · rw [huv, AList.lookup_erase] at hu
          cases hu
        · rw [AList.lookup_erase_ne huv] at hu
          exact huv (Option.some.inj (huser u hu)).symm
      · obtain rfl := Option.some.inj (huser u hu)
        exact hlock hu

/-- What a call has when it goes on with the access token of the channel, or asks for it. -/
structure Ready (c : CallId) (call : Call) (s : ChannelState) : Prop where
  /-- It holds the lock of its user, and no other one of a user. -/
  user : ∀ u, s.client.userLocks.lookup u = some c ↔ call.user = some u
  /-- It does not hold the lock of the channel. -/
  service : s.client.serviceLock ≠ some c
  /-- The token in the file has been issued. -/
  file : ∀ t, s.client.fileToken = some t → t < s.router.issued
  /-- The tokens are good once. -/
  calm : s.Calm c

theorem Inv.withService (h : s.Inv) (ho : Others c s s') (hready : s'.Ready c call) :
    (s'.withService c call a).Inv := by
  rw [ChannelState.withService]
  split
  · exact h.finish ho (fun hn => by cases hn) (fun u => (hready.user u).1) hready.file hready.calm
  · rename_i u huser
    have hok : Call.Ok s' c { call with stage := .minting a none } :=
      ⟨u, huser, (hready.user u).2 huser, fun x hx => by cases hx⟩
    exact h.put ho hok (fun hlock => absurd hlock hready.service)
      (fun v hv => ⟨(hready.user v).1 hv, rfl⟩) hready.file (hready.calm _ rfl rfl)

theorem Inv.askService (h : s.Inv) (ho : Others c s s') (hready : s'.Ready c call) :
    (s'.askService c call).Inv := by
  rw [ChannelState.askService]
  split
  · exact h.withService ho hready
  · exact h.put ho (fun u hu => (hready.user u).2 hu) (fun hlock => absurd hlock hready.service)
      (fun v hv => ⟨(hready.user v).1 hv, rfl⟩) hready.file (hready.calm _ rfl rfl)

/-! ### The tokens when a call moves -/

/-- The same calls, the same tokens. -/
structure Keeps (s s' : ChannelState) : Prop where
  calls : s'.calls = s.calls
  configToken : s'.client.configToken = s.client.configToken
  userTokens : s'.client.userTokens = s.client.userTokens
  /-- Those that were presented. -/
  presented : s'.presented = s.presented
  /-- How many were issued. -/
  issued : s'.router.issued = s.router.issued

theorem Keeps.refl (s : ChannelState) : Keeps s s := ⟨rfl, rfl, rfl, rfl, rfl⟩

theorem Keeps.held (h : Keeps s s') : s'.held = s.held := by
  funext x
  cases x with
  | service => exact h.configToken
  | user u => exact congrArg (fun t => (AList.lookup u t).map Prod.fst) h.userTokens
  | hand c => exact congrArg (fun t => (AList.lookup c t).bind Call.hand) h.calls

theorem IsAsking.congr (h : s.IsAsking x) (hcalls : s'.calls = s.calls) : s'.IsAsking x := by
  rw [IsAsking, hcalls]
  exact h

theorem Inv.calm (h : s.Inv) (hk : Keeps s s')
    (hold : ∀ old, s.calls.lookup c = some old → ∀ x, old.Asks c x → x = .hand c) : s'.Calm c := by
  intro call hhand _
  rw [hk.presented, hk.issued]
  refine h.tokens.weaken (fun x t ht => ?_) le_rfl
  by_cases hx : x = .hand c
  · rw [hx, held_put_hand, hhand] at ht
    cases ht
  · rw [held_put hx, hk.held] at ht
    refine ⟨ht, fun hasks => (hasks.congr hk.calls).put fun old hcall hold' => ?_⟩
    rw [hk.calls] at hcall
    exact absurd (hold old hcall x hold') hx

theorem Inv.present (h : s.Inv) (hk : Keeps s s') (hcall : s.calls.lookup c = some old)
    (hold : old.stage.asks = false) (hx : s.held x = some t) (hfree : ¬ s.IsAsking x)
    (hhand : ∀ t, call.hand = some t → old.hand = some t) (hasks : call.Asks c x) :
    SingleUse ((s'.present t).put c call).held ((s'.present t).put c call).IsAsking
      (t :: s'.presented) s'.router.issued := by
  rw [hk.presented, hk.issued]
  refine h.tokens.present hx hfree (fun y t' ht => ⟨?_, fun hy => ?_⟩) ?_
  · by_cases hy : y = .hand c
    · rw [hy, held_put_hand] at ht
      rw [hy, held, hcall]
      exact hhand t' ht
    · rw [held_put hy] at ht
      rw [← hk.held]
      exact ht
  · refine (hy.congr hk.calls).put fun old' hcall' hold' => ?_
    rw [hk.calls, hcall] at hcall'
    obtain rfl := Option.some.inj hcall'
    exact absurd hold'.asks (by rw [hold]; exact Bool.false_ne_true)
  · exact ⟨c, call, by rw [ChannelState.put, Table.lookup_insert, if_pos rfl], hasks⟩

/-- A call stores the token that it has. -/
theorem Inv.calm_move {y : Slot} (h : s.Inv) (hcall : s.calls.lookup c = some old)
    (hhand : old.hand = some t) (hfree : ∀ t', old.stage ≠ .redeeming t' none)
    (hcalls : s'.calls = s.calls) (hpresented : s'.presented = s.presented)
    (hissued : s'.router.issued = s.router.issued) (hy : s'.held y = some t) (hyc : y ≠ .hand c)
    (hrest : ∀ z, z ≠ y → z ≠ .hand c → s'.held z = s.held z)
    (hasks : ∀ z, z ≠ y → ¬ old.Asks c z) : s'.Calm c := by
  intro call hnone _
  rw [hpresented, hissued]
  refine h.tokens.move (x := .hand c) (y := y) (t := t) ?_ ?_ ?_ (fun _ => ?_)
    fun z t' hz hzy ht => ?_
  · rw [held, hcall]
    exact hhand
  · rintro ⟨c', call', hcall', rfl, t', hstage⟩
    rw [hcall] at hcall'
    exact hfree t' (Option.some.inj hcall' ▸ hstage)
  · rw [held_put hyc, hy]
  · rw [held_put_hand, hnone]
  · rw [held_put hz, hrest z hzy hz] at ht
    refine ⟨ht, fun hask => (hask.congr hcalls).put fun old' hcall' hold' => ?_⟩
    rw [hcalls, hcall] at hcall'
    obtain rfl := Option.some.inj hcall'
    exact absurd hold' (hasks z hzy)

theorem Inv.handled {r : TokenRouter} (h : s.Inv) (hcall : s.calls.lookup c = some old)
    (hr : r = s.router ∧ call.hand = none ∨
      r.issued = s.router.issued + 1 ∧ call.hand = some s.router.issued)
    (ho : Others c s { s with router := r }) (hok : call.Ok { s with router := r } c)
    (huser : call.user = old.user) (hcritical : call.stage.isCritical = old.stage.isCritical)
    (hrenewing : ∀ t answer, old.stage = .renewing t answer →
      ∃ t answer, call.stage = .renewing t answer)
    (hasks : ∀ x, x ≠ .hand c → old.Asks c x → call.Asks c x) :
    ({ s with router := r }.put c call).Inv := by
  have hle : s.router.issued ≤ r.issued := by
    rcases hr with ⟨rfl, -⟩ | ⟨hissued, -⟩
    · exact le_rfl
    · omega
  have hother : ∀ y t, y ≠ .hand c → ({ s with router := r }.put c call).held y = some t →
      s.held y = some t ∧ (s.IsAsking y → ({ s with router := r }.put c call).IsAsking y) := by
    intro y t hy ht
    rw [held_put hy] at ht
    have hrouter : s.IsAsking y → ({ s with router := r } : ChannelState).IsAsking y := id
    refine ⟨ht, fun hask => (hrouter hask).put fun old' hcall' hold' => ?_⟩
    obtain rfl := Option.some.inj (hcall.symm.trans hcall')
    exact hasks y hy hold'
  refine h.put ho hok (fun hlock => ?_) (fun u hu => ?_)
    (fun t ht => Nat.lt_of_lt_of_le (h.file t ht) hle) ?_
  · obtain ⟨call', hcall', t, answer, hstage⟩ := h.serviceLock c hlock
    rw [hcall] at hcall'
    exact hrenewing t answer (Option.some.inj hcall' ▸ hstage)
  · obtain ⟨call', hcall', hu', hstage⟩ := h.userLocks u c hu
    rw [hcall] at hcall'
    obtain rfl := Option.some.inj hcall'
    exact ⟨huser.trans hu', hcritical.trans hstage⟩
  · rcases hr with ⟨rfl, hhand⟩ | ⟨hissued, hhand⟩
    · refine h.tokens.weaken (fun y t ht => ?_) le_rfl
      by_cases hy : y = .hand c
      · rw [hy, held_put_hand, hhand] at ht
        cases ht
      · exact hother y t hy ht
    · change SingleUse _ _ s.presented r.issued
      rw [hissued]
      refine h.tokens.issue (x := .hand c) ?_ fun y t => hother y t
      rw [held_put_hand, hhand]

/-! ### What calls hold -/

theorem Inv.noUserLock (h : s.Inv) (hcall : ∀ call, s.calls.lookup c = some call →
    call.stage.isCritical = false) (u : UserId) : s.client.userLocks.lookup u ≠ some c := by
  intro hlock
  obtain ⟨call, hcall', -, hcritical⟩ := h.userLocks u c hlock
  rw [hcall call hcall'] at hcritical
  cases hcritical

theorem Inv.noServiceLock (h : s.Inv) (hcall : ∀ call, s.calls.lookup c = some call →
    ∀ t answer, call.stage ≠ .renewing t answer) : s.client.serviceLock ≠ some c := by
  intro hlock
  obtain ⟨call, hcall', t, answer, hstage⟩ := h.serviceLock c hlock
  exact hcall call hcall' t answer hstage

theorem Inv.user_of_lock (h : s.Inv) (hcall : s.calls.lookup c = some call)
    (hlock : s.client.userLocks.lookup u = some c) : call.user = some u := by
  obtain ⟨call', hcall', huser, -⟩ := h.userLocks u c hlock
  exact Option.some.inj (hcall.symm.trans hcall') ▸ huser

theorem Inv.lock_of_asking (h : s.Inv) (hask : s.IsAsking (.user u)) :
    s.client.userLocks.lookup u ≠ none := by
  obtain ⟨c, call, hcall, huser, t, answer, hstage⟩ := hask
  have hok := h.calls c call hcall
  rw [Call.Ok, hstage] at hok
  obtain ⟨v, -, hv, hlock, -⟩ := hok
  obtain rfl := Option.some.inj (huser.symm.trans hv)
  rw [hlock]
  exact Option.some_ne_none c

theorem Inv.serviceLock_of_asking (h : s.Inv) (hask : s.IsAsking .service) :
    s.client.serviceLock ≠ none := by
  obtain ⟨c, call, hcall, t, answer, hstage⟩ := hask
  have hok := h.calls c call hcall
  rw [Call.Ok, hstage] at hok
  rw [hok.2.1]
  exact Option.some_ne_none c

theorem Others.present (h : Others c s s') : Others c s (s'.present t) :=
  ⟨h.calls, h.userLocks, h.userTokens, h.serviceLock, h.configToken, h.rows⟩

end ChannelState

end Backplane.Chatbot
