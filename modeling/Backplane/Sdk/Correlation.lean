import Backplane.Data.Lru
import Mathlib.Data.List.Induction

/-!
# Pending correlations

`PendingMap` hands out futures under the id of a correlation and settles them when the answer to it
arrives.  An answer that comes before its future is kept for a while.  Everything happens on one
event loop, and no operation awaits.

* `PendingMap.register`, `PendingMap.resolve`, … : the operations.
* `PendingMap.run` : a sequence of operations.
* `Registered.outcomeBy` : what a future is settled with, read off the operations that follow.
* `PendingSound` : every future is settled so.
* `pending_sound` : it is, unless a key is registered while a future waits under it.
* `future_orphaned` : registering a key again loses the future that waits under it.
-/

namespace Backplane

variable {K V E : Type} [DecidableEq K]

/-- A future of the event loop. -/
inductive FutureState (V E : Type)
  /-- Nobody has settled it. -/
  | waiting
  /-- It has a result or an exception. -/
  | settled (r : Except E V)
  /-- Who awaited it was cancelled. -/
  | cancelled
  deriving DecidableEq

/-- `done` -/
def FutureState.done : FutureState V E → Bool
  | waiting => false
  | _ => true

/-- `_Pending` -/
structure PendingEntry where
  future : ℕ
  deadline : ℕ
  deriving DecidableEq

/-- The settings of a map. -/
structure PendingSettings where
  defaultTimeout : ℕ
  bufferResolves : ℕ
  bufferMaxSize : ℕ

/-- The deadline of a future; a timeout of zero is none. -/
def PendingSettings.deadline (cfg : PendingSettings) (now : ℕ) (timeout : Option ℕ) : ℕ :=
  now + (timeout.filter (· ≠ 0)).getD cfg.defaultTimeout

/-- `PendingMap`; the futures it has handed out, in order, each with its key. -/
structure PendingMap (K V E : Type) where
  pending : Table K PendingEntry := ∅
  /-- `_buffered`: what came too early, and when. -/
  buffered : Table K (Except E V × ℕ) := ∅
  /-- What `register` has returned. -/
  futures : List (K × FutureState V E) := []

namespace PendingMap

variable (cfg : PendingSettings) (now : ℕ) (m : PendingMap K V E)

/-- `register`: the future, by its place among the futures. -/
def register (k : K) (timeout : Option ℕ) : PendingMap K V E × ℕ :=
  match m.buffered.lookup k with
  | some (r, _) =>
    ({ m with buffered := m.buffered.erase k, futures := m.futures ++ [(k, .settled r)] },
      m.futures.length)
  | none =>
    ({ m with
        pending := m.pending.insert k ⟨m.futures.length, cfg.deadline now timeout⟩
        futures := m.futures ++ [(k, .waiting)] },
      m.futures.length)

/-- `_buffer_late_value`; `none`: the buffer may hold nothing, and dropping the oldest raises. -/
def bufferLateValue (k : K) (r : Except E V) : Option (PendingMap K V E) :=
  if cfg.bufferMaxSize ≤ m.buffered.entries.length ∧ (m.buffered.lookup k).isNone then
    if m.buffered.entries = [] then none
    else some { m with buffered := m.buffered.dropOldest.assign k (r, now) }
  else some { m with buffered := m.buffered.assign k (r, now) }

/-- Settle a future that is not done. -/
def settle (i : ℕ) (r : FutureState V E) : PendingMap K V E :=
  { m with futures := m.futures.modify i fun f => if f.2.done then f else (f.1, r) }

/-- `resolve` and `reject`: whether there was a future; `none`: it raises. -/
def deliver (k : K) (r : Except E V) : PendingMap K V E × Option Bool :=
  match m.pending.lookup k with
  | none =>
    match m.bufferLateValue cfg now k r with
    | none => (m, none)
    | some m => (m, some false)
  | some p => ({ m with pending := m.pending.erase k }.settle p.future (.settled r), some true)

/-- `resolve` -/
def resolve (k : K) (v : V) : PendingMap K V E × Option Bool := m.deliver cfg now k (.ok v)

/-- `reject` -/
def reject (k : K) (exc : E) : PendingMap K V E × Option Bool := m.deliver cfg now k (.error exc)

/-- Reject these keys, one after the other. -/
def rejectEach (exc : E) (ks : List K) : PendingMap K V E :=
  ks.foldl (fun m k => (m.reject cfg now k exc).1) m

/-- `reject_all` -/
def rejectAll (exc : E) : PendingMap K V E := m.rejectEach cfg now exc m.pending.keys

/-- One round of `_reap`: time out what is due and forget what came too early too long ago. -/
def reap (timedOut : E) : PendingMap K V E :=
  let expired := (m.pending.select fun _ p => p.deadline ≤ now).map Prod.fst
  let m := m.rejectEach cfg now timedOut expired
  { m with buffered := m.buffered.deleteWhere fun _ x => cfg.bufferResolves < now - x.2 }

end PendingMap

/-- An operation on the map. -/
inductive PendingOp (K V E : Type)
  | register (k : K) (timeout : Option ℕ)
  | resolve (k : K) (v : V)
  | reject (k : K) (exc : E)
  | rejectAll (exc : E)
  /-- One round of `_reap`. -/
  | reap
  /-- Who awaits this future is cancelled. -/
  | cancel (i : ℕ)

section

variable (cfg : PendingSettings) (timedOut : E)

/-- What an operation does at a time. -/
def PendingMap.apply (m : PendingMap K V E) (now : ℕ) : PendingOp K V E → PendingMap K V E
  | .register k timeout => (m.register cfg now k timeout).1
  | .resolve k v => (m.resolve cfg now k v).1
  | .reject k exc => (m.reject cfg now k exc).1
  | .rejectAll exc => m.rejectAll cfg now exc
  | .reap => m.reap cfg now timedOut
  | .cancel i => m.settle i .cancelled

/-- What a sequence of operations leaves, each at its time. -/
def PendingMap.run (m : PendingMap K V E) (ops : List (ℕ × PendingOp K V E)) : PendingMap K V E :=
  ops.foldl (fun m x => m.apply cfg timedOut x.1 x.2) m

end

/-! ### What a future is settled with -/

/-- A future that was registered and has to wait. -/
structure Registered (K : Type) where
  /-- Its place among the futures. -/
  future : ℕ
  key : K
  deadline : ℕ

/-- What an operation settles the future with, if it does. -/
def Registered.outcomeOf (timedOut : E) (f : Registered K) (now : ℕ) :
    PendingOp K V E → Option (FutureState V E)
  | .register _ _ => none
  | .resolve k v => if k = f.key then some (.settled (.ok v)) else none
  | .reject k exc => if k = f.key then some (.settled (.error exc)) else none
  | .rejectAll exc => some (.settled (.error exc))
  | .reap => if f.deadline ≤ now then some (.settled (.error timedOut)) else none
  | .cancel i => if i = f.future then some .cancelled else none

/-- The first of these operations that settles the future decides what with. -/
def Registered.outcomeBy (timedOut : E) (f : Registered K) (ops : List (ℕ × PendingOp K V E)) :
    FutureState V E :=
  (ops.findSome? fun x => f.outcomeOf timedOut x.1 x.2).getD .waiting

theorem Registered.done_of_outcomeOf {timedOut : E} {f : Registered K} {now : ℕ}
    {op : PendingOp K V E} {st : FutureState V E} (h : f.outcomeOf timedOut now op = some st) :
    st.done = true := by
  cases op <;> simp only [outcomeOf, Option.ite_none_right_eq_some, Option.some.injEq] at h
  case register => exact absurd h (by simp)
  case rejectAll => exact h ▸ rfl
  all_goals exact h.2 ▸ rfl

/-- The value or the error that an operation addresses to the key. -/
def PendingOp.addressed (k : K) : PendingOp K V E → Option (Except E V)
  | .resolve k' v => if k' = k then some (.ok v) else none
  | .reject k' exc => if k' = k then some (.error exc) else none
  | _ => none

/-- Every future is settled at most once, with what is addressed to its key, and as soon as it can
be. -/
structure PendingSound (cfg : PendingSettings) (timedOut : E) (ops : List (ℕ × PendingOp K V E)) :
    Prop where
  /-- A future is settled with the buffered value, or by the first operation that decides. -/
  outcome : ∀ l₁ now k timeout l₂, ops = l₁ ++ (now, .register k timeout) :: l₂ →
    (PendingMap.run cfg timedOut {} ops).futures[(PendingMap.run cfg timedOut {} l₁).futures.length]? =
      some (k, match (PendingMap.run cfg timedOut {} l₁).buffered.lookup k with
        | some (r, _) => .settled r
        | none => Registered.outcomeBy timedOut
          ⟨(PendingMap.run cfg timedOut {} l₁).futures.length, k, cfg.deadline now timeout⟩ l₂)
  /-- What is buffered was addressed to its key. -/
  buffered : ∀ l₁ l₂ k r t, ops = l₁ ++ l₂ →
    (PendingMap.run cfg timedOut {} l₁).buffered.lookup k = some (r, t) →
      ∃ op, (t, op) ∈ l₁ ∧ op.addressed k = some r

/-- No future waits under the key that is registered. -/
def PendingOp.allowed (m : PendingMap K V E) : PendingOp K V E → Bool
  | .register k _ => (m.pending.lookup k).all fun p => m.futures[p.future]?.any fun f => f.2.done
  | _ => true

/-- No key is registered while a future waits under it. -/
def PendingMap.unambiguous (cfg : PendingSettings) (timedOut : E) (m : PendingMap K V E) :
    List (ℕ × PendingOp K V E) → Bool
  | [] => true
  | x :: ops => x.2.allowed m && unambiguous cfg timedOut (m.apply cfg timedOut x.1 x.2) ops

/-! ### One operation -/

namespace PendingMap

variable {cfg : PendingSettings} {timedOut exc : E} {now : ℕ} {m m' m'' : PendingMap K V E}
  {k k' : K} {r : Except E V} {st : FutureState V E} {i j : ℕ} {p : PendingEntry}
  {op : PendingOp K V E}

omit [DecidableEq K] in
theorem settle_futures : (m.settle i st).futures[j]? =
    m.futures[j]?.map fun f => if j = i ∧ f.2.done = false then (f.1, st) else f := by
  rw [settle, List.getElem?_modify]
  by_cases hj : i = j
  · subst hj
    refine congrArg (fun g => Option.map g m.futures[i]?) (funext fun f => ?_)
    cases f.2.done <;> simp
  · have hj' : j ≠ i := Ne.symm hj
    simp [hj, hj']

theorem bufferLateValue_eq (h : m.bufferLateValue cfg now k r = some m') :
    m'.pending = m.pending ∧ m'.futures = m.futures ∧ ∀ k' x, m'.buffered.lookup k' = some x →
      m.buffered.lookup k' = some x ∨ k' = k ∧ x = (r, now) := by
  have hassign : ∀ (t : Table K (Except E V × ℕ)) k' x,
      (t.assign k (r, now)).lookup k' = some x → t.lookup k' = some x ∨ k' = k ∧ x = (r, now) := by
    intro t k' x hx
    rw [Table.lookup_assign] at hx
    split_ifs at hx with hk
    · exact .inr ⟨hk, (Option.some.inj hx).symm⟩
    · exact .inl hx
  unfold bufferLateValue at h
  split_ifs at h with hfull hempty
  · obtain rfl := Option.some.inj h
    refine ⟨rfl, rfl, fun k' x hx => ?_⟩
    exact (hassign _ k' x hx).imp_left Table.lookup_of_dropOldest
  · obtain rfl := Option.some.inj h
    exact ⟨rfl, rfl, hassign _⟩

/-- An answer settles the future under its key, or is kept, or is lost. -/
theorem deliver_cases (cfg : PendingSettings) (now : ℕ) (m : PendingMap K V E) (k : K)
    (r : Except E V) :
    (∃ p, m.pending.lookup k = some p ∧
      (m.deliver cfg now k r).1 =
        settle { m with pending := m.pending.erase k } p.future (.settled r)) ∨
    m.pending.lookup k = none ∧ (m.deliver cfg now k r).1.pending = m.pending ∧
      (m.deliver cfg now k r).1.futures = m.futures ∧
      ∀ k' x, (m.deliver cfg now k r).1.buffered.lookup k' = some x →
        m.buffered.lookup k' = some x ∨ k' = k ∧ x = (r, now) := by
  unfold deliver
  cases hp : m.pending.lookup k with
  | some p => exact .inl ⟨p, rfl, rfl⟩
  | none =>
    refine .inr ⟨rfl, ?_⟩
    cases hb : m.bufferLateValue cfg now k r with
    | none => exact ⟨rfl, rfl, fun _ _ h => .inl h⟩
    | some m' => exact bufferLateValue_eq hb

/-- Futures keep their keys, and those that are done stay as they are. -/
def Later (m m' : PendingMap K V E) : Prop :=
  ∀ (i : ℕ) (k : K) (st : FutureState V E), m.futures[i]? = some (k, st) →
    ∃ st', m'.futures[i]? = some (k, st') ∧ (st.done = true → st' = st)

omit [DecidableEq K] in
theorem Later.of_futures (h : m'.futures = m.futures) : m.Later m' :=
  fun _ _ st hi => ⟨st, h ▸ hi, fun _ => rfl⟩

omit [DecidableEq K] in
theorem Later.trans (h : m.Later m') (h' : m'.Later m'') : m.Later m'' := by
  intro i k st hi
  obtain ⟨st₁, h₁, hd₁⟩ := h i k st hi
  obtain ⟨st₂, h₂, hd₂⟩ := h' i k st₁ h₁
  refine ⟨st₂, h₂, fun hd => ?_⟩
  rw [hd₂ (by rw [hd₁ hd, hd]), hd₁ hd]

omit [DecidableEq K] in
theorem later_settle : m.Later (m.settle j st) := by
  intro i k st' hi
  rw [settle_futures, hi, Option.map_some]
  by_cases hd : i = j ∧ st'.done = false
  · rw [if_pos hd]
    exact ⟨st, rfl, fun h => absurd (hd.2.symm.trans h) (by simp)⟩
  · rw [if_neg hd]
    exact ⟨st', rfl, fun _ => rfl⟩

theorem later_deliver : m.Later (m.deliver cfg now k r).1 := by
  obtain ⟨p, -, h⟩ | ⟨-, -, h, -⟩ := deliver_cases cfg now m k r
  · rw [h]
    exact (Later.of_futures rfl).trans later_settle
  · exact .of_futures h

theorem later_rejectEach {ks : List K} : m.Later (m.rejectEach cfg now exc ks) := by
  induction ks generalizing m with
  | nil => exact .of_futures rfl
  | cons k ks ih => exact later_deliver.trans ih

theorem later_register {timeout : Option ℕ} : m.Later (m.register cfg now k timeout).1 := by
  have happend : ∀ f (i : ℕ) x, m.futures[i]? = some x → (m.futures ++ [f])[i]? = some x := by
    intro f i x hi
    rw [List.getElem?_append_left (List.getElem?_eq_some_iff.1 hi).1, hi]
  intro i k' st hi
  unfold register
  split <;> exact ⟨st, happend _ i _ hi, fun _ => rfl⟩

theorem later_apply : m.Later (m.apply cfg timedOut now op) := by
  cases op with
  | register k timeout => exact later_register
  | resolve k v => exact later_deliver
  | reject k exc => exact later_deliver
  | rejectAll exc => exact later_rejectEach
  | reap => exact later_rejectEach.trans (.of_futures rfl)
  | cancel i => exact later_settle

/-- Every entry refers to a future of its key. -/
def Owned (m : PendingMap K V E) : Prop :=
  ∀ k p, m.pending.lookup k = some p → ∃ st, m.futures[p.future]? = some (k, st)

theorem Owned.mono (ho : m.Owned) (hl : m.Later m')
    (hp : ∀ k p, m'.pending.lookup k = some p → m.pending.lookup k = some p) : m'.Owned := by
  intro k p hk
  obtain ⟨st, hst⟩ := ho k p (hp k p hk)
  obtain ⟨st', hst', -⟩ := hl p.future k st hst
  exact ⟨st', hst'⟩

theorem Owned.deliver (ho : m.Owned) : (m.deliver cfg now k r).1.Owned := by
  refine ho.mono later_deliver fun k' p hp => ?_
  obtain ⟨q, -, h⟩ | ⟨-, h, -⟩ := deliver_cases cfg now m k r
  · rw [h] at hp
    exact (Table.lookup_of_erase hp).2
  · rwa [h] at hp

theorem Owned.rejectEach {ks : List K} (ho : m.Owned) : (m.rejectEach cfg now exc ks).Owned := by
  induction ks generalizing m with
  | nil => exact ho
  | cons k ks ih => exact ih ho.deliver

theorem Owned.register {timeout : Option ℕ} (ho : m.Owned) :
    (m.register cfg now k timeout).1.Owned := by
  have hlater : m.Later (m.register cfg now k timeout).1 := later_register
  unfold PendingMap.register at hlater ⊢
  cases hb : m.buffered.lookup k with
  | some x =>
    simp only [hb] at hlater ⊢
    exact ho.mono hlater fun _ _ h => h
  | none =>
    simp only [hb] at hlater ⊢
    intro k' p hp
    rw [Table.lookup_insert] at hp
    split_ifs at hp with hk
    · obtain rfl := Option.some.inj hp
      exact ⟨.waiting, by simp [hk]⟩
    · obtain ⟨st, hst⟩ := ho k' p hp
      obtain ⟨st', hst', -⟩ := hlater p.future k' st hst
      exact ⟨st', hst'⟩

theorem Owned.apply (ho : m.Owned) : (m.apply cfg timedOut now op).Owned := by
  cases op with
  | register k timeout => exact ho.register
  | resolve k v => exact ho.deliver
  | reject k exc => exact ho.deliver
  | rejectAll exc => exact ho.rejectEach
  | reap => exact ho.rejectEach
  | cancel i => exact ho.mono later_settle fun _ _ h => h

/-- Where a future is, and that it can be found while it waits. -/
structure Tracked (m : PendingMap K V E) (f : Registered K) (st : FutureState V E) : Prop where
  state : m.futures[f.future]? = some (f.key, st)
  entry : st = .waiting → m.pending.lookup f.key = some ⟨f.future, f.deadline⟩

variable {f : Registered K}

theorem Tracked.of_later (ht : m.Tracked f st) (hdone : st.done = true) (hl : m.Later m') :
    m'.Tracked f st := by
  obtain ⟨st', hst', hd⟩ := hl _ _ _ ht.state
  obtain rfl := hd hdone
  refine ⟨hst', ?_⟩
  rintro rfl
  exact absurd hdone (by simp [FutureState.done])

/-- An answer under another key leaves a future alone, and one under its key settles it. -/
theorem Tracked.deliver (cfg : PendingSettings) (now : ℕ) (k : K) (r : Except E V) (ho : m.Owned)
    (ht : m.Tracked f .waiting) :
    (m.deliver cfg now k r).1.Tracked f (if k = f.key then .settled r else .waiting) := by
  obtain ⟨p, hp, h⟩ | ⟨hp, hpending, hfutures, -⟩ := deliver_cases cfg now m k r
  · rw [h]
    split_ifs with hk
    · subst hk
      obtain rfl := Option.some.inj (hp.symm.trans (ht.entry rfl))
      refine ⟨?_, fun h => absurd h (by simp)⟩
      rw [settle_futures, ht.state, Option.map_some, if_pos ⟨rfl, rfl⟩]
    · have hne : f.future ≠ p.future := by
        intro hi
        obtain ⟨st, hst⟩ := ho k p hp
        rw [← hi, ht.state] at hst
        exact hk (Prod.mk.inj (Option.some.inj hst)).1.symm
      refine ⟨?_, fun _ => ?_⟩
      · rw [settle_futures, ht.state, Option.map_some, if_neg fun h => hne h.1]
      · exact (AList.lookup_erase_ne (Ne.symm hk)).trans (ht.entry rfl)
  · have hk : k ≠ f.key := by
      rintro rfl
      exact absurd (hp.symm.trans (ht.entry rfl)) (by simp)
    rw [if_neg hk]
    exact ⟨hfutures ▸ ht.state, fun h => hpending ▸ ht.entry h⟩

theorem Tracked.rejectEach (cfg : PendingSettings) (now : ℕ) (exc : E) (ks : List K) (ho : m.Owned)
    (ht : m.Tracked f .waiting) :
    (m.rejectEach cfg now exc ks).Tracked f
      (if f.key ∈ ks then .settled (.error exc) else .waiting) := by
  induction ks generalizing m with
  | nil => exact ht
  | cons k ks ih =>
    have hstep := ht.deliver cfg now k (.error exc) ho
    by_cases hk : k = f.key
    · rw [if_pos hk] at hstep
      rw [if_pos (hk ▸ List.mem_cons_self)]
      exact hstep.of_later rfl later_rejectEach
    · rw [if_neg hk] at hstep
      have hmem : f.key ∈ k :: ks ↔ f.key ∈ ks := by simp [Ne.symm hk]
      simp only [hmem]
      exact ih ho.deliver hstep

theorem Tracked.register_ne {timeout : Option ℕ} (ht : m.Tracked f st) (hk : f.key ≠ k) :
    (m.register cfg now k timeout).1.Tracked f st := by
  have hstate : ∀ x, (m.futures ++ [x])[f.future]? = some (f.key, st) := by
    intro x
    rw [List.getElem?_append_left (List.getElem?_eq_some_iff.1 ht.state).1, ht.state]
  unfold PendingMap.register
  cases m.buffered.lookup k with
  | some x => exact ⟨hstate _, ht.entry⟩
  | none => exact ⟨hstate _, fun hw => (AList.lookup_insert_ne hk).trans (ht.entry hw)⟩

theorem Tracked.register {timeout : Option ℕ} (ht : m.Tracked f .waiting)
    (ha : (PendingOp.register k timeout : PendingOp K V E).allowed m = true) :
    (m.register cfg now k timeout).1.Tracked f .waiting := by
  by_cases hk : f.key = k
  · -- a future that waits under the key would have been in the way
    subst hk
    simp [PendingOp.allowed, ht.entry rfl, ht.state, FutureState.done] at ha
  · exact ht.register_ne hk

/-- A new future waits, or has what was buffered. -/
theorem register_tracked (cfg : PendingSettings) (now : ℕ) (m : PendingMap K V E) (k : K)
    (timeout : Option ℕ) :
    (m.register cfg now k timeout).2 = m.futures.length ∧
      (m.register cfg now k timeout).1.Tracked
        ⟨m.futures.length, k, cfg.deadline now timeout⟩
        (match m.buffered.lookup k with
          | some (r, _) => .settled r
          | none => .waiting) := by
  unfold PendingMap.register
  cases hb : m.buffered.lookup k with
  | some x => exact ⟨rfl, by simp, fun h => absurd h (by simp)⟩
  | none => exact ⟨rfl, by simp, fun _ => AList.lookup_insert _⟩

/-- **What one operation settles a waiting future with.** -/
theorem Tracked.apply (cfg : PendingSettings) (timedOut : E) (now : ℕ) (ho : m.Owned)
    (ht : m.Tracked f .waiting) (ha : op.allowed m = true) :
    (m.apply cfg timedOut now op).Tracked f ((f.outcomeOf timedOut now op).getD .waiting) := by
  cases op with
  | register k timeout => exact ht.register ha
  | resolve k v =>
    have hstep := ht.deliver cfg now k (.ok v) ho
    simp only [Registered.outcomeOf]
    split_ifs at hstep ⊢ <;> exact hstep
  | reject k exc =>
    have hstep := ht.deliver cfg now k (.error exc) ho
    simp only [Registered.outcomeOf]
    split_ifs at hstep ⊢ <;> exact hstep
  | rejectAll exc =>
    have hmem : f.key ∈ m.pending.keys :=
      AList.mem_keys.1 (AList.lookup_isSome.1 (by rw [ht.entry rfl]; rfl))
    have hstep := ht.rejectEach cfg now exc m.pending.keys ho
    rw [if_pos hmem] at hstep
    exact hstep
  | reap =>
    have hmem : f.key ∈ (m.pending.select fun _ p => p.deadline ≤ now).map Prod.fst ↔
        f.deadline ≤ now := by
      rw [List.mem_map]
      constructor
      · rintro ⟨⟨k, p⟩, hp, rfl⟩
        obtain ⟨hlookup, hd⟩ := Table.mem_select.1 hp
        obtain rfl := Option.some.inj (hlookup.symm.trans (ht.entry rfl))
        exact of_decide_eq_true hd
      · intro hd
        exact ⟨(f.key, ⟨f.future, f.deadline⟩),
          Table.mem_select.2 ⟨ht.entry rfl, decide_eq_true hd⟩, rfl⟩
    have hstep := ht.rejectEach cfg now timedOut
      ((m.pending.select fun _ p => p.deadline ≤ now).map Prod.fst) ho
    simp only [hmem] at hstep
    simp only [Registered.outcomeOf]
    split_ifs at hstep ⊢
    · exact ⟨hstep.state, fun h => absurd h (by simp)⟩
    · exact ⟨hstep.state, hstep.entry⟩
  | cancel i =>
    simp only [Registered.outcomeOf]
    split_ifs with hi
    · refine ⟨?_, fun h => absurd h (by simp)⟩
      rw [PendingMap.apply, settle_futures, ht.state, Option.map_some, if_pos ⟨hi.symm, rfl⟩]
      rfl
    · refine ⟨?_, fun _ => ht.entry rfl⟩
      rw [PendingMap.apply, settle_futures, ht.state, Option.map_some, if_neg fun h => hi h.1.symm]
      rfl

/-! ### A whole run -/

variable {ops l₁ l₂ : List (ℕ × PendingOp K V E)}

theorem run_append : m.run cfg timedOut (l₁ ++ l₂) = (m.run cfg timedOut l₁).run cfg timedOut l₂ :=
  List.foldl_append

theorem unambiguous_append : m.unambiguous cfg timedOut (l₁ ++ l₂) =
    (m.unambiguous cfg timedOut l₁ && (m.run cfg timedOut l₁).unambiguous cfg timedOut l₂) := by
  induction l₁ generalizing m with
  | nil => rfl
  | cons x l₁ ih => rw [List.cons_append, unambiguous, ih, unambiguous, Bool.and_assoc]; rfl

theorem Owned.run (ho : m.Owned) : (m.run cfg timedOut ops).Owned := by
  induction ops generalizing m with
  | nil => exact ho
  | cons x ops ih => exact ih ho.apply

theorem later_run : m.Later (m.run cfg timedOut ops) := by
  induction ops generalizing m with
  | nil => exact .of_futures rfl
  | cons x ops ih => exact later_apply.trans ih

/-- **The first operation that decides settles the future.** -/
theorem Tracked.run (ho : m.Owned) (ht : m.Tracked f .waiting)
    (ha : m.unambiguous cfg timedOut ops = true) :
    (m.run cfg timedOut ops).futures[f.future]? = some (f.key, f.outcomeBy timedOut ops) := by
  induction ops generalizing m with
  | nil => exact ht.state
  | cons x ops ih =>
    obtain ⟨ha, hrest⟩ := Bool.and_eq_true_iff.1 ha
    have hstep := ht.apply cfg timedOut x.1 ho ha
    unfold Registered.outcomeBy
    rw [List.findSome?_cons]
    cases hx : f.outcomeOf timedOut x.1 x.2 with
    | none =>
      rw [hx] at hstep
      exact ih ho.apply hstep hrest
    | some st =>
      rw [hx] at hstep
      have hlater : (m.apply cfg timedOut x.1 x.2).Later
          ((m.apply cfg timedOut x.1 x.2).run cfg timedOut ops) := later_run
      obtain ⟨st', hst', hd⟩ := hlater _ _ _ hstep.state
      obtain rfl := hd (Registered.done_of_outcomeOf hx)
      exact hst'

theorem rejectEach_buffered {ks : List K} (hks : ∀ k ∈ ks, m.pending.lookup k ≠ none)
    (hnodup : ks.Nodup) : (m.rejectEach cfg now exc ks).buffered = m.buffered := by
  induction ks generalizing m with
  | nil => rfl
  | cons k ks ih =>
    obtain ⟨hk, hnodup⟩ := List.nodup_cons.1 hnodup
    obtain ⟨p, -, h⟩ | ⟨hnone, -⟩ := deliver_cases cfg now m k (.error exc)
    · have hrest : ∀ k' ∈ ks, (m.deliver cfg now k (.error exc)).1.pending.lookup k' ≠ none := by
        intro k' hk'
        rw [h]
        have hne : k' ≠ k := fun he => hk (he ▸ hk')
        exact fun hno => hks k' (List.mem_cons_of_mem _ hk') ((AList.lookup_erase_ne hne).symm.trans hno)
      exact (ih hrest hnodup).trans (by rw [h]; rfl)
    · exact absurd hnone (hks k List.mem_cons_self)

/-- A registration adds nothing to the buffer. -/
theorem buffered_of_register {k' : K} {timeout : Option ℕ} {x : Except E V × ℕ}
    (h : (m.register cfg now k' timeout).1.buffered.lookup k = some x) :
    m.buffered.lookup k = some x := by
  rw [register] at h
  split at h
  · exact (Table.lookup_of_erase h).2
  · exact h

/-- What is buffered after an operation was buffered before, or is what it addresses. -/
theorem apply_buffered {t : ℕ}
    (h : (m.apply cfg timedOut now op).buffered.lookup k = some (r, t)) :
    m.buffered.lookup k = some (r, t) ∨ t = now ∧ op.addressed k = some r := by
  have hdeliver : ∀ k' r', (m.deliver cfg now k' r').1.buffered.lookup k = some (r, t) →
      m.buffered.lookup k = some (r, t) ∨ t = now ∧ k' = k ∧ r' = r := by
    intro k' r' h
    obtain ⟨p, -, hd⟩ | ⟨-, -, -, hb⟩ := deliver_cases cfg now m k' r'
    · rw [hd] at h
      exact .inl h
    · obtain h | ⟨hk, hx⟩ := hb k (r, t) h
      · exact .inl h
      · obtain ⟨rfl, rfl⟩ := Prod.mk.inj hx
        exact .inr ⟨rfl, hk.symm, rfl⟩
  cases op with
  | register k' timeout => exact .inl (buffered_of_register h)
  | resolve k' v =>
    obtain h | ⟨ht, rfl, rfl⟩ := hdeliver k' _ h
    · exact .inl h
    · exact .inr ⟨ht, if_pos rfl⟩
  | reject k' exc =>
    obtain h | ⟨ht, rfl, rfl⟩ := hdeliver k' _ h
    · exact .inl h
    · exact .inr ⟨ht, if_pos rfl⟩
  | rejectAll exc =>
    have hsame : (m.rejectAll cfg now exc).buffered = m.buffered :=
      rejectEach_buffered (fun k hk hnone => AList.lookup_eq_none.1 hnone (AList.mem_keys.2 hk))
        m.pending.nodupKeys
    exact .inl (hsame ▸ h)
  | reap =>
    have hkeys : ∀ k ∈ (m.pending.select fun _ p => p.deadline ≤ now).map Prod.fst,
        m.pending.lookup k ≠ none := by
      intro k hk hnone
      obtain ⟨⟨k, p⟩, hp, rfl⟩ := List.mem_map.1 hk
      exact absurd (hnone.symm.trans (Table.mem_select.1 hp).1) (by simp)
    have hsame : (m.rejectEach cfg now timedOut _).buffered = m.buffered :=
      rejectEach_buffered hkeys (Table.nodup_select _ _)
    obtain ⟨h, -⟩ := Table.lookup_deleteWhere.1 h
    exact .inl (hsame ▸ h)
  | cancel i => exact .inl h

theorem run_buffered {t : ℕ}
    (h : (PendingMap.run cfg timedOut {} ops).buffered.lookup k = some (r, t)) :
    ∃ op, (t, op) ∈ ops ∧ op.addressed k = some r := by
  induction ops using List.reverseRecOn with
  | nil => exact absurd h (by simp [run])
  | append_singleton ops x ih =>
    rw [run_append] at h
    obtain h | ⟨rfl, hx⟩ := apply_buffered h
    · obtain ⟨op, hop, ha⟩ := ih h
      exact ⟨op, List.mem_append_left _ hop, ha⟩
    · exact ⟨x.2, List.mem_append_right _ List.mem_cons_self, hx⟩

end PendingMap

section

variable {cfg : PendingSettings} {timedOut : E} {ops : List (ℕ × PendingOp K V E)}

/-- **Where no key is registered while a future waits under it**, every future is settled at most
once, with what is addressed to its key, and as soon as it can be. -/
theorem pending_sound (h : PendingMap.unambiguous cfg timedOut {} ops = true) :
    PendingSound cfg timedOut ops := by
  refine ⟨fun l₁ now k timeout l₂ hops => ?_, fun l₁ l₂ k r t _ hb => PendingMap.run_buffered hb⟩
  have howned : (PendingMap.run cfg timedOut {} l₁).Owned :=
    PendingMap.Owned.run fun k p hp => absurd hp (by simp)
  have hrun : PendingMap.run cfg timedOut {} ops =
      PendingMap.run cfg timedOut
        ((PendingMap.run cfg timedOut {} l₁).register cfg now k timeout).1 l₂ := by
    rw [hops, PendingMap.run_append]
    rfl
  rw [hrun]
  generalize hm : PendingMap.run cfg timedOut {} l₁ = m at howned ⊢
  obtain ⟨-, htracked⟩ := PendingMap.register_tracked cfg now m k timeout
  cases hb : m.buffered.lookup k with
  | some x =>
    rw [hb] at htracked
    have hlater : (m.register cfg now k timeout).1.Later
        ((m.register cfg now k timeout).1.run cfg timedOut l₂) := PendingMap.later_run
    exact (htracked.of_later rfl hlater).state
  | none =>
    rw [hb] at htracked
    rw [hops, PendingMap.unambiguous_append, Bool.and_eq_true_iff, hm] at h
    exact htracked.run howned.register (Bool.and_eq_true_iff.1 h.2).2

end

/-! ### A key that is registered again -/

namespace Sample

def pendingSettings : PendingSettings := ⟨30, 5, 1024⟩

/-- A key is registered twice before its answer comes, and everything due is timed out later. -/
def reregistered : List (ℕ × PendingOp String ℕ String) :=
  [(0, .register "t" none), (1, .register "t" none), (2, .resolve "t" 7), (60, .reap)]

/-- An answer comes before its future, and another times out. -/
def answeredEarly : List (ℕ × PendingOp String ℕ String) :=
  [(0, .resolve "t" 7), (1, .register "t" none), (1, .register "u" (some 2)), (3, .reap),
    (4, .register "t" none), (5, .reject "t" "cancelled")]

end Sample

/-- The future that waited under the key is never settled. -/
theorem future_orphaned : ¬ ∀ (cfg : PendingSettings) (timedOut : String)
    (ops : List (ℕ × PendingOp String ℕ String)), PendingSound cfg timedOut ops := by
  intro hall
  have h := (hall Sample.pendingSettings "timeout" Sample.reregistered).outcome [] 0 "t" none
    (Sample.reregistered.drop 1) rfl
  exact absurd h (by decide +kernel)

theorem pending_sound_early :
    (PendingMap.run Sample.pendingSettings "timeout" {} Sample.answeredEarly).futures =
      [("t", .settled (.ok 7)), ("u", .settled (.error "timeout")),
        ("t", .settled (.error "cancelled"))] ∧
    PendingSound Sample.pendingSettings "timeout" Sample.answeredEarly :=
  ⟨by decide +kernel, pending_sound (by decide +kernel)⟩

end Backplane
