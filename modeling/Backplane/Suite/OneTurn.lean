import Backplane.Suite.Turns

/-!
# One turn at a time

* `TurnAct.exec_turn` : what a step can do to a turn.
* `turnWork` : what the channel does in a turn, and what it has learned about the task.
* `TurnInv` : only the last turn of a session is inside, and only a turn inside has a live task.
* `TurnInv.exec` : one step keeps it.
* `one_turn` : the result, for every run in which turns are patient.
-/

namespace Backplane

open Concur Prog

/-! ### What a step does to a turn -/

/-- What the steps of others can do to a turn. -/
structure Turn.Meets (t t' : Turn) : Prop where
  /-- It stays where it is. -/
  inside : t'.inside = t.inside
  /-- A task that is over stays so. -/
  ended : t.stage.live = false → t'.stage.live = false
  /-- A task that was not sent is not sent by others. -/
  unsent : t.stage = .unsent → t'.stage = .unsent

/-- The turn whose channel takes the step. -/
def TurnAct.own {β : Type} : TurnAct β → Option ℕ
  | attempt n _ | send n | awaitAck n | awaitResult n | unlock n => some n
  | _ => none

section

variable {s s' : TurnBoard} {e : TurnEnv} {β : Type} {a : TurnAct β} {b : β} {n m : ℕ} {t u : Turn}
  {f : Turn → Turn}

theorem Turn.Meets.refl (t : Turn) : t.Meets t := ⟨rfl, id, id⟩

theorem TurnBoard.turns_mark (s : TurnBoard) (n m : ℕ) (f : Turn → Turn) :
    (s.mark n f).turns[m]? = if n = m then s.turns[m]?.map f else s.turns[m]? := by
  rw [mark, List.getElem?_modify]
  split_ifs <;> cases s.turns[m]? <;> rfl

theorem TurnBoard.length_mark (s : TurnBoard) (n : ℕ) (f : Turn → Turn) :
    (s.mark n f).turns.length = s.turns.length := by
  rw [mark, List.length_modify]

theorem TurnBoard.stage_eq (h : s.turns[n]? = some t) : s.stage n = t.stage := by
  rw [stage, h]
  rfl

/-- A step leaves the turns of others alone, and forgets none. -/
theorem TurnAct.exec_turn (he : a.exec e s = some (s', b)) (h : s.turns[m]? = some t) :
    ∃ t', s'.turns[m]? = some t' ∧ t'.session = t.session ∧
      (t'.inside = true → t.inside = true) ∧ (a.own ≠ some m → t.Meets t') := by
  have hmark (n : ℕ) (f : Turn → Turn) (hs : (f t).session = t.session)
      (hi : (f t).inside = true → t.inside = true)
      (hf : a.own = some n ∨ t.Meets (f t)) :
      ∃ t', (s.mark n f).turns[m]? = some t' ∧ t'.session = t.session ∧
        (t'.inside = true → t.inside = true) ∧ (a.own ≠ some m → t.Meets t') := by
    rw [TurnBoard.turns_mark, h]
    split
    · rename_i hn
      subst hn
      exact ⟨f t, rfl, hs, hi, fun hne => hf.resolve_left hne⟩
    · exact ⟨t, rfl, rfl, id, fun _ => .refl t⟩
  have hsame : ∃ t', s.turns[m]? = some t' ∧ t'.session = t.session ∧
      (t'.inside = true → t.inside = true) ∧ (a.own ≠ some m → t.Meets t') :=
    ⟨t, h, rfl, id, fun _ => .refl t⟩
  cases a with
  | lock sid =>
    simp only [exec] at he
    split at he <;> cases he
    refine ⟨t, ?_, rfl, id, fun _ => .refl t⟩
    show (s.turns ++ [_])[m]? = some t
    rw [List.getElem?_append_left (List.getElem?_eq_some_iff.1 h).1, h]
  | send n =>
    simp only [exec] at he
    obtain ⟨r, -, hr⟩ := Option.map_eq_some_iff.1 he
    cases hr
    split
    · exact hsame
    · exact hmark n _ rfl id (.inl rfl)
  | awaitAck n =>
    obtain ⟨r, -, hr⟩ := Option.map_eq_some_iff.1 he
    cases hr
    exact hsame
  | awaitResult n =>
    obtain ⟨r, -, hr⟩ := Option.map_eq_some_iff.1 he
    cases hr
    exact hsame
  | unlock n =>
    cases he
    exact hmark n (fun t => { t with inside := false }) rfl (fun hf => by cases hf) (.inl rfl)
  | ack n accept =>
    cases he
    refine hmark n _ ?_ ?_ (.inr ?_)
    · split <;> rfl
    · split <;> exact id
    · split
      · rename_i hs
        exact ⟨rfl, fun hl => by simp [hs, TaskStage.live] at hl, fun hu => by simp [hs] at hu⟩
      · exact .refl t
  | take n =>
    simp only [exec] at he
    split at he <;> cases he <;> exact hsame
  | delegate n k =>
    simp only [exec] at he
    split at he <;> cases he
    · exact hmark n (fun t => { t with executor := k + 1 }) rfl id (.inr ⟨rfl, id, id⟩)
    · exact hsame
  | report n k status =>
    cases he
    refine hmark n _ ?_ ?_ (.inr ?_)
    · split <;> rfl
    · split <;> exact id
    · split
      · rename_i hs
        exact ⟨rfl, fun _ => rfl, fun hu => by simp [hs.1] at hu⟩
      · exact .refl t
  | close n status =>
    cases he
    refine hmark n _ ?_ ?_ (.inr ?_)
    · split <;> rfl
    · split <;> exact id
    · split
      · rename_i hs
        exact ⟨rfl, fun _ => rfl, fun hu => by simp [hs] at hu⟩
      · exact .refl t
  | attempt | append => cases he; exact hsame

/-- Only the lock makes turns. -/
theorem TurnAct.exec_length (he : a.exec e s = some (s', b)) :
    s'.turns.length = s.turns.length ∨
      ∃ sid, s'.turns = s.turns ++ [{ session := sid }] ∧ s.locked sid = false := by
  cases a with
  | lock sid =>
    simp only [exec] at he
    split at he <;> cases he
    rename_i hfree
    exact .inr ⟨sid, rfl, by simpa using hfree⟩
  | send n =>
    obtain ⟨r, -, hr⟩ := Option.map_eq_some_iff.1 he
    cases hr
    left
    split
    · rfl
    · exact s.length_mark n _
  | awaitAck n | awaitResult n =>
    obtain ⟨r, -, hr⟩ := Option.map_eq_some_iff.1 he
    cases hr
    exact .inl rfl
  | take n =>
    simp only [exec] at he
    split at he <;> cases he <;> exact .inl rfl
  | delegate n k =>
    simp only [exec] at he
    split at he <;> cases he
    · exact .inl (s.length_mark n _)
    · exact .inl rfl
  | unlock n => cases he; exact .inl (s.length_mark n _)
  | ack n => cases he; exact .inl (s.length_mark n _)
  | report n => cases he; exact .inl (s.length_mark n _)
  | close n => cases he; exact .inl (s.length_mark n _)
  | attempt | append => cases he; exact .inl rfl

/-! ### What the channel does in a turn -/

/-- How far the channel has come with a turn. -/
inductive TurnPhase
  /-- It waits for the lock. -/
  | fresh
  /-- It is inside, and has not sent the task. -/
  | opened (n : ℕ)
  | waiting (n : ℕ)
  /-- It no longer waits for the task. -/
  | settled (n : ℕ)
  | done

/-- The channel sends one task, waits for it, and leaves. -/
def turnWork : Discipline TurnAct TurnPhase where
  ok q a := match a with
    | .lock _ => q = .fresh
    | .attempt n _ | .unlock n => q = .opened n ∨ q = .settled n
    | .send n => q = .opened n
    | .awaitAck n | .awaitResult n => q = .waiting n
    | _ => True
  ans _ _ := True
  next q a b := match a, b with
    | .lock _, n => .opened n
    | .send n, .got () => .waiting n
    | .send n, _ => .settled n
    | .awaitAck n, .got true => .waiting n
    | .awaitAck n, _ => .settled n
    | .awaitResult n, _ => .settled n
    | .unlock _, _ => .done
    | _, _ => q

theorem turnWork_attempts (n : ℕ) (q : TurnPhase) (hq : q = .opened n ∨ q = .settled n)
    (xs : List ChannelStep) : turnWork.Obeys q (attempts n xs) fun q' _ => q' = q := by
  induction xs with
  | nil => rfl
  | cons x xs ih =>
    refine Discipline.obeys_perform_bind.2 ⟨hq, fun b _ => ?_⟩
    cases b with
    | true => exact ih
    | false => rfl

theorem turnWork_spawnAndAwait (n : ℕ) :
    turnWork.Obeys (.opened n) (spawnAndAwait n) fun q _ => q = .settled n := by
  refine Discipline.obeys_perform_bind.2 ⟨rfl, fun sent _ => ?_⟩
  cases sent with
  | failed => rfl
  | cancelled => rfl
  | got =>
    refine Discipline.obeys_perform_bind.2 ⟨rfl, fun ack _ => ?_⟩
    cases ack with
    | failed => rfl
    | cancelled => rfl
    | got accepted =>
      cases accepted with
      | false => rfl
      | true => exact ⟨rfl, fun _ _ => rfl⟩

theorem turnWork_lockedTurn (n attachments : ℕ) (text : Bool) :
    turnWork.Obeys (.opened n) (lockedTurn n attachments text) fun q _ =>
      q = .opened n ∨ q = .settled n := by
  refine Discipline.obeys_bind.2 ((turnWork_attempts n _ (.inl rfl) _).mono fun q b hq => ?_)
  subst hq
  cases b with
  | false => exact .inl rfl
  | true =>
    refine Discipline.obeys_bind.2 ((turnWork_spawnAndAwait n).mono fun q r hq => ?_)
    subst hq
    cases r with
    | cancelled => exact .inr rfl
    | failed =>
      exact Discipline.obeys_bind.2 ((turnWork_attempts n _ (.inr rfl) _).mono
        fun q _ hq => .inr hq)
    | got files =>
      exact Discipline.obeys_bind.2 ((turnWork_attempts n _ (.inr rfl) _).mono
        fun q _ hq => .inr hq)

theorem turnWork_work (n k : ℕ) (status : TaskStatus) (ops : List AgentOp) :
    turnWork.Obeys .fresh (work n k status ops) fun _ _ => True := by
  induction ops with
  | nil => exact ⟨trivial, fun _ _ => trivial⟩
  | cons op ops ih =>
    cases op with
    | append => exact ⟨trivial, fun _ _ => ih⟩
    | delegate => exact ⟨trivial, fun _ _ => ih⟩

theorem turnWork_body (c : TurnCall) : turnWork.Obeys .fresh c.body fun _ _ => True := by
  cases c with
  | message sid attachments text =>
    refine Discipline.obeys_perform_bind.2 ⟨rfl, fun n _ => ?_⟩
    refine Discipline.obeys_bind.2 ((turnWork_lockedTurn n attachments text).mono fun q _ hq => ?_)
    exact ⟨hq, fun _ _ => trivial⟩
  | agent n ops status => exact ⟨trivial, fun k _ => turnWork_work n k status ops⟩
  | admission | closing => exact ⟨trivial, fun _ _ => trivial⟩

/-! ### One step -/

/-- What the channel knows of a turn. -/
def TurnPhase.Holds (s : TurnBoard) : TurnPhase → Prop
  | fresh | done => True
  | opened n => ∃ t, s.turns[n]? = some t ∧ t.inside = true ∧ t.stage = .unsent
  | waiting n => ∃ t, s.turns[n]? = some t ∧ t.inside = true
  | settled n => ∃ t, s.turns[n]? = some t ∧ t.inside = true ∧ t.stage.live = false

/-- The turn of a phase. -/
def TurnPhase.turn : TurnPhase → Option ℕ
  | fresh | done => none
  | opened n | waiting n | settled n => some n

/-- Only the last turn of a session is inside, and only a turn inside has a live task. -/
structure TurnInv (s : TurnBoard) : Prop where
  /-- A turn with a later one of its session has left. -/
  last : ∀ (m n : ℕ) (t u : Turn), m < n → s.turns[m]? = some t → s.turns[n]? = some u →
    t.session = u.session → t.inside = false
  /-- A turn that has left has no live task. -/
  settled : ∀ (n : ℕ) (t : Turn), s.turns[n]? = some t → t.inside = false → t.stage.live = false
  /-- What has begun is there. -/
  known : ∀ n, .began n ∈ s.history → n < s.turns.length
  /-- Rows are written for the last turn. -/
  ordered : s.history.Pairwise fun x y => ∀ m n t u, x = .began m → y = .wrote n →
    s.turns[m]? = some t → s.turns[n]? = some u → t.session = u.session → m ≤ n

theorem TurnInv.init : TurnInv {} where
  last _ _ _ _ _ h := absurd h (by simp)
  settled _ _ h := absurd h (by simp)
  known _ h := absurd h List.not_mem_nil
  ordered := .nil

/-- **One turn at a time.** -/
theorem TurnInv.oneTurn (h : TurnInv s) : OneTurn s := by
  refine ⟨fun m n t u hm hn hs ht hu => ?_, h.ordered⟩
  -- The earlier of the two has left, so its task is over.
  obtain hlt | heq | hlt := Nat.lt_trichotomy m n
  · rw [h.settled m t hm (h.last m n t u hlt hm hn hs)] at ht
    cases ht
  · exact heq
  · rw [h.settled n u hn (h.last n m u t hlt hn hm hs.symm)] at hu
    cases hu

/-- A turn that is there afterwards was there, unless it has just begun. -/
theorem TurnAct.exec_back (he : a.exec e s = some (s', b)) (hm : m < s.turns.length)
    (h : s'.turns[m]? = some u) : ∃ t, s.turns[m]? = some t ∧ u.session = t.session ∧
      (u.inside = true → t.inside = true) ∧ (a.own ≠ some m → t.Meets u) := by
  obtain ⟨t', ht', hrest⟩ := exec_turn he (List.getElem?_eq_getElem hm)
  rw [h] at ht'
  obtain rfl := Option.some.inj ht'
  exact ⟨_, List.getElem?_eq_getElem hm, hrest⟩

/-- What is in order stays in order while sessions keep their turns. -/
theorem TurnInv.ordered_exec (h : TurnInv s) (he : a.exec e s = some (s', b)) :
    s.history.Pairwise fun x y => ∀ m n t u, x = .began m → y = .wrote n →
      s'.turns[m]? = some t → s'.turns[n]? = some u → t.session = u.session → m ≤ n := by
  refine h.ordered.imp_of_mem fun {x y} hx _ hxy m n t u hxm hyn hm hn hs => ?_
  by_contra hlt
  subst hxm
  have hmlt := h.known m hx
  obtain ⟨t₀, hm₀, ht₀, -⟩ := TurnAct.exec_back he hmlt hm
  obtain ⟨u₀, hn₀, hu₀, -⟩ := TurnAct.exec_back he (by omega) hn
  exact hlt (hxy m n t₀ u₀ rfl hyn hm₀ hn₀ (ht₀.symm.trans (hs.trans hu₀)))

/-- A step that begins no turn keeps the invariant, if what it leaves has no live task. -/
theorem TurnInv.keep (h : TurnInv s) (he : a.exec e s = some (s', b))
    (hlen : s'.turns.length = s.turns.length)
    (hsettled : ∀ n u, a.own = some n → s'.turns[n]? = some u → u.inside = false →
      u.stage.live = false)
    (hhist : s'.history = s.history ∨ ∃ n, s'.history = s.history ++ [.wrote n] ∧
      s.stage n = .running) : TurnInv s' := by
  have hback (m : ℕ) (u : Turn) (hm : s'.turns[m]? = some u) := TurnAct.exec_back he
    (hlen ▸ (List.getElem?_eq_some_iff.1 hm).1) hm
  refine ⟨fun m n t u hlt hm hn hs => ?_, fun n u hn hu => ?_, fun n hn => ?_, ?_⟩
  · obtain ⟨t₀, hm₀, ht₀, hin, -⟩ := hback m t hm
    obtain ⟨u₀, hn₀, hu₀, -⟩ := hback n u hn
    have hout := h.last m n t₀ u₀ hlt hm₀ hn₀ (ht₀.symm.trans (hs.trans hu₀))
    by_contra hc
    rw [hin (by simpa using hc)] at hout
    cases hout
  · by_cases hown : a.own = some n
    · exact hsettled n u hown hn hu
    · obtain ⟨t, ht, -, -, hmeets⟩ := hback n u hn
      have hm := hmeets hown
      exact hm.ended (h.settled n t ht (hm.inside ▸ hu))
  · rw [hlen]
    obtain hsame | ⟨k, hnew, -⟩ := hhist
    · exact h.known n (hsame ▸ hn)
    · rw [hnew] at hn
      exact h.known n (by simpa using hn)
  · obtain hsame | ⟨k, hnew, hrun⟩ := hhist
    · rw [hsame]
      exact h.ordered_exec he
    · rw [hnew, List.pairwise_append]
      refine ⟨h.ordered_exec he, List.pairwise_singleton _ _, ?_⟩
      -- Only the last turn of a session is written for: the others have left, their tasks are over.
      rintro x - y hy m n t u rfl rfl hm hn hs
      obtain rfl : n = k := by simpa using hy
      by_contra hlt
      obtain ⟨t₀, hm₀, ht₀, -⟩ := hback m t hm
      obtain ⟨u₀, hn₀, hu₀, -⟩ := hback n u hn
      have hout := h.last n m u₀ t₀ (by omega) hn₀ hm₀ (hu₀.symm.trans (hs.symm.trans ht₀))
      have hover := h.settled n u₀ hn₀ hout
      rw [← TurnBoard.stage_eq hn₀, hrun] at hover
      cases hover

theorem TurnInv.begin {sid : SessionId} (h : TurnInv s) (hfree : s.locked sid = false)
    (he : (TurnAct.lock sid).exec e s = some (s', n)) : TurnInv s' := by
  have hleft (m : ℕ) (t : Turn) (hm : s.turns[m]? = some t) (hs : t.session = sid) :
      t.inside = false := by
    have hall := List.any_eq_false.1 hfree t (List.mem_of_getElem? hm)
    simpa [hs] using hall
  have hord := h.ordered_exec he
  obtain rfl : s' = TurnBoard.note { s with turns := s.turns ++ [{ session := sid }] }
      (.began s.turns.length) := by
    simp only [TurnAct.exec, hfree] at he
    exact (Prod.mk.inj (Option.some.inj he)).1.symm
  have hold {m : ℕ} {t : Turn} (hm : (s.turns ++ [({ session := sid } : Turn)])[m]? = some t)
      (hlt : m < s.turns.length) : s.turns[m]? = some t := by
    rwa [List.getElem?_append_left hlt] at hm
  have hlen {m : ℕ} {t : Turn} (hm : (s.turns ++ [({ session := sid } : Turn)])[m]? = some t) :
      m < s.turns.length ∨ m = s.turns.length ∧ t = { session := sid } := by
    rw [List.getElem?_append] at hm
    split at hm
    · exact .inl ‹_›
    · rw [List.getElem?_singleton] at hm
      split at hm
      · exact .inr ⟨by omega, (Option.some.inj hm).symm⟩
      · cases hm
  refine ⟨fun m n t u hlt hm hn hs => ?_, fun n u hn hu => ?_, fun n hn => ?_, ?_⟩
  · obtain hn' | ⟨rfl, rfl⟩ := hlen hn
    · exact h.last m n t u hlt (hold hm (by omega)) (hold hn hn') hs
    · exact hleft m t (hold hm hlt) hs
  · obtain hn' | ⟨-, rfl⟩ := hlen hn
    · exact h.settled n u (hold hn hn') hu
    · cases hu
  · show n < (s.turns ++ [_]).length
    rw [List.length_append, List.length_singleton]
    obtain hn | hn := List.mem_append.1 hn
    · have := h.known n hn
      omega
    · have : n = s.turns.length := by simpa using hn
      omega
  · show (s.history ++ [_]).Pairwise _
    rw [List.pairwise_append]
    refine ⟨hord, List.pairwise_singleton _ _, ?_⟩
    rintro x - y hy m n t u - rfl
    exact absurd (List.mem_singleton.1 hy) (by simp)

/-! ### Every step -/

variable {q : TurnPhase}

/-- An `await` ends with what it waits for, or raises. -/
theorem TurnAct.awaited_eq {α : Type} {ready : Option α} {r : Awaited α}
    (h : awaited e ready = some r) :
    (∃ x, r = .got x ∧ ready = some x) ∨ e.raises = true ∧ (r = .failed ∨ r = .cancelled) := by
  unfold awaited at h
  split at h
  · rename_i hr
    obtain rfl := Option.some.inj h
    exact .inr ⟨hr, by split <;> simp⟩
  · obtain ⟨x, hx, rfl⟩ := Option.map_eq_some_iff.1 h
    exact .inl ⟨x, rfl, hx⟩

/-- What the channel knows stays true while others move. -/
theorem TurnPhase.Holds.frame (h : q.Holds s) (he : a.exec e s = some (s', b))
    (hown : ∀ n, q.turn = some n → a.own ≠ some n) : q.Holds s' := by
  cases q with
  | fresh => trivial
  | done => trivial
  | opened n =>
    obtain ⟨t, ht, hi, hu⟩ := h
    obtain ⟨t', ht', -, -, hm⟩ := TurnAct.exec_turn he ht
    have hmeets := hm (hown n rfl)
    exact ⟨t', ht', hmeets.inside.trans hi, hmeets.unsent hu⟩
  | waiting n =>
    obtain ⟨t, ht, hi⟩ := h
    obtain ⟨t', ht', -, -, hm⟩ := TurnAct.exec_turn he ht
    exact ⟨t', ht', (hm (hown n rfl)).inside.trans hi⟩
  | settled n =>
    obtain ⟨t, ht, hi, ho⟩ := h
    obtain ⟨t', ht', -, -, hm⟩ := TurnAct.exec_turn he ht
    have hmeets := hm (hown n rfl)
    exact ⟨t', ht', hmeets.inside.trans hi, hmeets.ended ho⟩

/-- A step of an agent or of the router keeps the invariant. -/
theorem TurnInv.exec_other (h : TurnInv s) (hq : q.Holds s) (he : a.exec e s = some (s', b))
    (hlen : s'.turns.length = s.turns.length) (hown : a.own = none)
    (hhist : s'.history = s.history ∨ ∃ n, s'.history = s.history ++ [.wrote n] ∧
      s.stage n = .running) : TurnInv s' ∧ q.Holds s' :=
  ⟨h.keep he hlen (fun n _ hn => by rw [hown] at hn; cases hn) hhist,
    hq.frame he fun n _ hn => by rw [hown] at hn; cases hn⟩

theorem TurnInv.sends {r : Awaited Unit} (h : TurnInv s) (hq : (TurnPhase.opened n).Holds s)
    (hg : (TurnAct.send n).patient e s) (he : (TurnAct.send n).exec e s = some (s', r)) :
    TurnInv s' ∧ (turnWork.next (.opened n) (.send n) r).Holds s' := by
  obtain ⟨t, ht, hi, hu⟩ := hq
  obtain ⟨r', hr, hpair⟩ := Option.map_eq_some_iff.1 he
  obtain ⟨hs, rfl⟩ := Prod.mk.inj hpair
  have hin : ∃ st, s'.turns[n]? = some { t with stage := st } := by
    subst hs
    split
    · exact ⟨t.stage, ht⟩
    · exact ⟨.sent, by rw [TurnBoard.turns_mark, if_pos rfl, ht, Option.map_some]⟩
  obtain ⟨st, hst⟩ := hin
  refine ⟨h.keep he ?_ (fun m u hm hm' hout => ?_) (.inl ?_), ?_⟩
  · subst hs
    split
    · rfl
    · exact s.length_mark n _
  · obtain rfl := Option.some.inj hm
    obtain rfl := Option.some.inj (hst.symm.trans hm')
    exact absurd hi (by simp [show t.inside = false from hout])
  · subst hs
    split <;> rfl
  · obtain ⟨x, rfl, -⟩ | ⟨hraise, hr⟩ := TurnAct.awaited_eq hr
    · exact ⟨_, hst, hi⟩
    · -- What raises has not been sent.
      rw [if_pos (hg hraise)] at hs
      subst hs
      have hset : (TurnPhase.settled n).Holds s := ⟨t, ht, hi, by rw [hu]; rfl⟩
      obtain rfl | rfl := hr <;> exact hset

/-- A patient step keeps the invariant, and what the channel knows comes true. -/
theorem TurnInv.exec (h : TurnInv s) (hq : q.Holds s) (hok : turnWork.ok q a)
    (hg : a.patient e s) (he : a.exec e s = some (s', b)) :
    TurnInv s' ∧ (turnWork.next q a b).Holds s' := by
  cases a with
  | lock sid =>
    have hfree : s.locked sid = false := by
      simp only [TurnAct.exec] at he
      split at he
      · cases he
      · rename_i hnot
        simpa using hnot
    refine ⟨h.begin hfree he, ?_⟩
    simp only [TurnAct.exec, hfree] at he
    cases he
    exact ⟨{ session := sid }, List.getElem?_concat_length, rfl, rfl⟩
  | attempt n what =>
    cases he
    exact ⟨h, hq⟩
  | send n =>
    obtain rfl : q = .opened n := hok
    exact h.sends hq hg he
  | awaitAck n =>
    obtain rfl : q = .waiting n := hok
    obtain ⟨t, ht, hi⟩ := hq
    obtain ⟨r, hr, hs⟩ := Option.map_eq_some_iff.1 he
    cases hs
    refine ⟨h, ?_⟩
    obtain ⟨x, rfl, hx⟩ | ⟨hraise, hr⟩ := TurnAct.awaited_eq hr
    · cases x with
      | true => exact ⟨t, ht, hi⟩
      | false =>
        refine ⟨t, ht, hi, ?_⟩
        rw [TurnBoard.stage_eq ht] at hx
        split at hx
        · rename_i hst
          rw [hst]
          rfl
        · cases hx
        · cases hx
        · cases hx
        · cases hx
    · have hover := hg hraise
      rw [TurnBoard.stage_eq ht] at hover
      have hset : (TurnPhase.settled n).Holds s := ⟨t, ht, hi, hover⟩
      obtain rfl | rfl := hr <;> exact hset
  | awaitResult n =>
    obtain rfl : q = .waiting n := hok
    obtain ⟨t, ht, hi⟩ := hq
    obtain ⟨r, hr, hs⟩ := Option.map_eq_some_iff.1 he
    cases hs
    refine ⟨h, t, ht, hi, ?_⟩
    obtain ⟨x, rfl, hx⟩ | ⟨hraise, -⟩ := TurnAct.awaited_eq hr
    · rw [TurnBoard.stage_eq ht] at hx
      split at hx
      · rename_i hst
        rw [hst]
        rfl
      · cases hx
    · rw [← TurnBoard.stage_eq ht]
      exact hg hraise
  | unlock n =>
    have hover : ∃ t, s.turns[n]? = some t ∧ t.stage.live = false := by
      obtain rfl | rfl := hok
      · obtain ⟨t, ht, -, hu⟩ := hq
        exact ⟨t, ht, by rw [hu]; rfl⟩
      · obtain ⟨t, ht, -, ho⟩ := hq
        exact ⟨t, ht, ho⟩
    obtain ⟨t, ht, ho⟩ := hover
    have he' := he
    cases he'
    refine ⟨h.keep he (s.length_mark n _) (fun m u hm hu _ => ?_) (.inl rfl), trivial⟩
    obtain rfl := Option.some.inj hm
    rw [TurnBoard.turns_mark, if_pos rfl, ht] at hu
    obtain rfl := Option.some.inj hu
    exact ho
  | append n =>
    have he' := he
    cases he'
    exact h.exec_other hq he rfl rfl (.inr ⟨n, rfl, hg⟩)
  | take n =>
    simp only [TurnAct.exec] at he
    split at he <;> cases he <;> exact ⟨h, hq⟩
  | delegate n k =>
    refine h.exec_other hq he ?_ rfl (.inl ?_) <;> simp only [TurnAct.exec] at he <;>
      split at he <;> cases he
    · exact s.length_mark n _
    · rfl
    · rfl
    · rfl
  | ack n accept =>
    have he' := he
    cases he'
    exact h.exec_other hq he (s.length_mark n _) rfl (.inl rfl)
  | report n k status =>
    have he' := he
    cases he'
    exact h.exec_other hq he (s.length_mark n _) rfl (.inl rfl)
  | close n status =>
    have he' := he
    cases he'
    exact h.exec_other hq he (s.length_mark n _) rfl (.inl rfl)

end

/-! ### The result -/

/-- Turns are made under the lock. -/
def turnMaking : Making TurnAct TurnBoard where
  makes x := match x with
    | ⟨.lock _, n⟩ => some n
    | _ => none
  count s := s.turns.length

/-- What the coroutine `i` knows. -/
structure TurnPhase.Knows (i : ℕ) (q : TurnPhase) (s : TurnBoard) (log : Log TurnAct) : Prop where
  /-- Its turn is where it thinks. -/
  holds : q.Holds s
  own : ∀ n, q.turn = some n → turnMaking.Owns log i n

section

variable {s s' : TurnBoard} {e : TurnEnv} {β : Type} {a : TurnAct β} {b : β} {q : TurnPhase}
  {log : Log TurnAct} {i n : ℕ}

theorem turnWork_own (hok : turnWork.ok q a) (ho : a.own = some n) : q.turn = some n := by
  cases a with
  | attempt m | unlock m =>
    cases ho
    obtain rfl | rfl := hok <;> rfl
  | send | awaitAck | awaitResult =>
    cases ho
    obtain rfl : q = _ := hok
    rfl
  | _ => cases ho

/-- The turn of what the channel knows next is its own. -/
theorem TurnPhase.Knows.next (h : q.Knows i s log) (hok : turnWork.ok q a)
    (hq : (turnWork.next q a b).Holds s') :
    (turnWork.next q a b).Knows i s' (log ++ [(i, ⟨a, b⟩)]) := by
  refine ⟨hq, fun n hn => ?_⟩
  have hkeep (hn : q.turn = some n) : turnMaking.Owns (log ++ [(i, ⟨a, b⟩)]) i n :=
    (h.own n hn).append
  cases a with
  | lock sid =>
    obtain rfl := Option.some.inj hn
    exact Making.Owns.of_makes rfl
  | send m =>
    obtain rfl : q = .opened m := hok
    cases b <;> exact hkeep hn
  | awaitAck m =>
    obtain rfl : q = .waiting m := hok
    cases b with
    | got accepted => cases accepted <;> exact hkeep hn
    | _ => exact hkeep hn
  | awaitResult m =>
    obtain rfl : q = .waiting m := hok
    exact hkeep hn
  | unlock m => cases hn
  | _ => exact hkeep hn

theorem TurnInv.makes (he : a.exec e s = some (s', b)) : turnMaking.count s ≤ turnMaking.count s' ∧
    ∀ n, turnMaking.makes ⟨a, b⟩ = some n →
      n = turnMaking.count s ∧ n < turnMaking.count s' := by
  refine ⟨?_, fun n hn => ?_⟩
  · obtain heq | ⟨sid, heq, -⟩ := TurnAct.exec_length he
    · exact Nat.le_of_eq heq.symm
    · show s.turns.length ≤ s'.turns.length
      rw [heq, List.length_append]
      omega
  · cases a with
    | lock sid =>
      simp only [TurnAct.exec] at he
      split at he <;> cases he
      obtain rfl := Option.some.inj hn
      refine ⟨rfl, ?_⟩
      show s.turns.length < (s.turns ++ [_]).length
      rw [List.length_append, List.length_singleton]
      omega
    | _ => cases hn

end

/-- The invariant, and that turns belong to coroutines. -/
structure TurnWorld (s : TurnBoard) (log : Log TurnAct) : Prop where
  /-- Only the last turn of a session is inside. -/
  inv : TurnInv s
  /-- Turns belong to coroutines. -/
  owners : turnMaking.Owners s log

theorem turns_sound : Sound turns patientTurns turnWork (fun _ => .fresh) {} TurnWorld
    (fun i _ q => q.Knows i) where
  init := ⟨TurnInv.init, .init⟩
  start _ _ _ := ⟨trivial, fun _ h => by cases h⟩
  step _ _ hg he hw hk hok := by
    obtain ⟨hinv, hq⟩ := hw.inv.exec hk.holds hok hg he
    obtain ⟨hle, hnew⟩ := TurnInv.makes he
    exact ⟨trivial, ⟨hinv, hw.owners.exec hle hnew _⟩, hk.next hok hq⟩
  frame _ _ _ he hw hk hok _ _ _ hj hk' := by
    refine ⟨hk'.holds.frame he fun n hn ho => ?_, fun n hn => (hk'.own n hn).append⟩
    exact hj (hw.owners.one _ _ n (hk'.own n hn) (hk.own n (turnWork_own hok ho)))

/-- **One turn at a time**: while every turn waits until its task is over, and agents write for
tasks that are not, a session has at most one task that is not terminal and no rows of a turn that
a later one has followed. -/
theorem one_turn {P : Pool TurnAct TurnBoard TurnCall Unit}
    (h : Run turns patientTurns (.init {}) P) : OneTurn P.shared :=
  (turns_sound.of_run turnWork_body h).1.inv.oneTurn

/-! ### Giving up -/

/-- Checks that a step is patient. -/
def TurnAct.isPatient {β : Type} (e : TurnEnv) (s : TurnBoard) : TurnAct β → Bool
  | send _ => !e.raises || e.lost
  | awaitAck n | awaitResult n => !e.raises || !(s.stage n).live
  | append n => decide (s.stage n = .running)
  | _ => true

theorem TurnAct.patient_of_isPatient {e : TurnEnv} {s : TurnBoard} {β : Type} {a : TurnAct β}
    (h : a.isPatient e s = true) : a.patient e s := by
  cases a with
  | send n =>
    intro hr
    simpa [isPatient, hr] using h
  | awaitAck n | awaitResult n =>
    intro hr
    simpa [isPatient, hr] using h
  | append n => exact of_decide_eq_true (p := s.stage n = .running) h
  | _ => trivial

namespace Sample

/-- A message is sent, and its task taken on. -/
def sentTurn (i n : ℕ) : List (Move TurnEnv TurnCall) :=
  [.start (.admission n true), .step i {}, .step i {}, .step i {}, .step i {}, .step (i + 1) {},
    .step i {}]

/-- The agent answers, and the channel relays the answer. -/
def relayed : List (Move TurnEnv TurnCall) :=
  [.start (.agent 0 [.append] .succeeded), .step 2 {}, .step 2 {}, .step 2 {}, .step 0 {},
    .step 0 {}, .step 0 {}, .step 0 {}, .step 0 {}]

/-- The channel does not get the result in time. -/
def gaveUp : List (Move TurnEnv TurnCall) :=
  [.start (.agent 0 [.append] .succeeded), .step 0 { raises := true }, .step 0 {}, .step 0 {}]

end Sample

/-- Two messages one after the other. -/
theorem one_turn_after_other : ∃ P, Run turns patientTurns (.init {}) P ∧
    P.shared.turns.map Turn.stage = [.ended .succeeded, .running] ∧
    P.shared.history = [.began 0, .wrote 0, .began 1] ∧ OneTurn P.shared := by
  have hplay : (turns.run (fun P _ _ a e => a.isPatient e P.shared) (.init {})
      (.start (.message "chat" 0 true) :: Sample.sentTurn 0 0 ++ Sample.relayed ++
        .start (.message "chat" 0 true) :: Sample.sentTurn 3 1)).map
      (fun P => (P.shared.turns.map Turn.stage, P.shared.history)) =
        some ([.ended .succeeded, .running], [.began 0, .wrote 0, .began 1]) := by
    decide +kernel
  obtain ⟨P, hP, hend⟩ := Option.map_eq_some_iff.1 hplay
  obtain ⟨hstages, hhistory⟩ := Prod.mk.inj hend
  have hrun : Run turns patientTurns (.init {}) P :=
    Run.of_run (fun _ _ => trivial) (fun _ _ _ _ _ hc => TurnAct.patient_of_isPatient hc) hP
  exact ⟨P, hrun, hstages, hhistory, one_turn hrun⟩

/-- The channel gives up on a turn whose task goes on: the next message is a second task of the
session, and the agent of the first appends its row after it has begun. -/
theorem two_turns_in_flight : ∃ P, Run turns .free (.init {}) P ∧
    P.shared.turns.map (fun t => (t.session, t.stage)) = [("chat", .running), ("chat", .running)] ∧
    P.shared.history = [.began 0, .began 1, .wrote 0] ∧ ¬ OneTurn P.shared := by
  have hplay : (turns.run (fun _ _ _ _ _ => true) (.init {})
      (.start (.message "chat" 0 true) :: Sample.sentTurn 0 0 ++ Sample.gaveUp ++
        .start (.message "chat" 0 true) :: Sample.sentTurn 3 1 ++ [.step 2 {}, .step 2 {}])).map
      (fun P => (P.shared.turns.map (fun t => (t.session, t.stage)), P.shared.history)) =
        some ([("chat", .running), ("chat", .running)], [.began 0, .began 1, .wrote 0]) := by
    decide +kernel
  obtain ⟨P, hP, hend⟩ := Option.map_eq_some_iff.1 hplay
  obtain ⟨hturns, hhistory⟩ := Prod.mk.inj hend
  refine ⟨P, Run.of_run (fun _ _ => trivial) (fun _ _ _ _ _ _ => trivial) hP, hturns, hhistory, ?_⟩
  intro hone
  have hget (n : ℕ) (hn : n < 2) : ∃ t, P.shared.turns[n]? = some t ∧ t.session = "chat" ∧
      t.stage = .running := by
    have hmap := congrArg (fun l => l[n]?) hturns
    simp only [List.getElem?_map] at hmap
    obtain rfl | rfl : n = 0 ∨ n = 1 := by omega
    all_goals
      obtain ⟨t, ht, heq⟩ := Option.map_eq_some_iff.1 hmap
      exact ⟨t, ht, (Prod.mk.inj heq).1, (Prod.mk.inj heq).2⟩
  obtain ⟨t, ht, hts, htr⟩ := hget 0 (by omega)
  obtain ⟨u, hu, hus, hur⟩ := hget 1 (by omega)
  have heq := hone.exclusive 0 1 t u ht hu (hts.trans hus.symm) (by rw [htr]; rfl)
    (by rw [hur]; rfl)
  omega

end Backplane
