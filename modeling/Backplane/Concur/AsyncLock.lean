import Mathlib.Data.List.Basic
import Mathlib.Tactic.Common

/-!
# A fair lock with cancellable waiters

`asyncio.Lock`: those who wait stand in a queue, and a release wakes the first.  The one that is
woken has the lock only when it runs again; until then it keeps its place, so that nobody overtakes
it.  A waiter may be cancelled at any time, and leaves the queue when it runs again.

* `AsyncLock` : whether the lock is held, and who waits.
* `acquire`, `cancel`, `resume`, `release` : what happens between two suspensions.
* `Orderly` : only the first waiter has been woken, and only while the lock is free.
* `queue` : who waits, and how the operations change it.
* `Unstruck` : nobody who waits was cancelled, so everybody gets the lock.
* `resume_true` : the one that gets the lock finds it free.
-/

namespace Backplane.Concur

/-- What has become of the future of a waiter. -/
inductive Waiting
  | pending
  /-- It was woken; `struck`: its task was cancelled after that. -/
  | woken (struck : Bool)
  | cancelled
  deriving DecidableEq, Repr

/-- The lock, with the waiters in the order they came. -/
structure AsyncLock where
  locked : Bool := false
  /-- Those who wait. -/
  waiters : List (ℕ × Waiting) := []
  deriving DecidableEq, Repr

namespace AsyncLock

variable (l : AsyncLock) (w : ℕ)

/-- `_wake_up_first` -/
def wakeUpFirst : AsyncLock :=
  match l.waiters with
  | (w, .pending) :: ws => { l with waiters := (w, .woken false) :: ws }
  | _ => l

/-- `acquire` up to where it has the lock (`true`) or waits. -/
def acquire : AsyncLock × Bool :=
  if !l.locked && l.waiters.all fun x => decide (x.2 = .cancelled) then
    ({ l with locked := true }, true)
  else ({ l with waiters := l.waiters ++ [(w, .pending)] }, false)

/-- The task that waits is cancelled. -/
def cancel : AsyncLock :=
  { l with waiters := l.waiters.map fun x =>
      if x.1 = w then
        match x.2 with
        | .pending | .cancelled => (w, .cancelled)
        | .woken _ => (w, .woken true)
      else x }

/-- Take a waiter out of the queue. -/
def leave : AsyncLock := { l with waiters := l.waiters.filter fun x => decide (x.1 ≠ w) }

/-- The rest of `acquire` once the waiter runs again: whether it has got the lock.  A waiter whose
future is pending does not run. -/
def resume : Option (AsyncLock × Bool) :=
  match l.waiters.find? fun x => decide (x.1 = w) with
  | some (_, .woken false) => some ({ l.leave w with locked := true }, true)
  | some (_, .woken true) | some (_, .cancelled) =>
    some (if (l.leave w).locked then l.leave w else (l.leave w).wakeUpFirst, false)
  | _ => none

/-- `release`; `none`: it raises. -/
def release : Option AsyncLock :=
  if l.locked then some { l with locked := false }.wakeUpFirst else none

/-- Who waits. -/
def queue : List ℕ := l.waiters.map Prod.fst

/-- Only the first waiter has been woken, and only while the lock is free. -/
structure Orderly : Prop where
  /-- Those behind the first sleep. -/
  asleep : ∀ x ∈ l.waiters.tail, ∀ b, x.2 ≠ .woken b
  /-- When the first has been woken the lock is free. -/
  free : ∀ x ∈ l.waiters.head?, ∀ b, x.2 = .woken b → l.locked = false

variable {l l' : AsyncLock} {w}

theorem Orderly.init : Orderly {} := ⟨by simp, by simp⟩

/-- A waiter that has been woken is the first. -/
theorem Orderly.head (h : l.Orderly) {x : ℕ × Waiting} {b : Bool} (hx : x ∈ l.waiters)
    (hb : x.2 = .woken b) : l.waiters.head? = some x := by
  cases hl : l.waiters with
  | nil => simp [hl] at hx
  | cons y ys =>
    rw [hl] at hx
    obtain rfl | hx := List.mem_cons.1 hx
    · rfl
    · exact absurd hb (h.asleep x (by rwa [hl]) b)

theorem wakeUpFirst_locked : l.wakeUpFirst.locked = l.locked := by
  unfold wakeUpFirst
  split <;> rfl

theorem Orderly.wakeUpFirst (h : l.Orderly) (hl : l.locked = false) : l.wakeUpFirst.Orderly := by
  unfold AsyncLock.wakeUpFirst
  split
  · rename_i w ws hw
    exact ⟨fun x hx => h.asleep x (by rwa [hw]), fun _ _ _ _ => hl⟩
  · exact h

/-- Whoever has the lock at once finds it free, with nobody about to take it. -/
theorem acquire_true (h : l.acquire w = (l', true)) :
    l.locked = false ∧ l' = { l with locked := true } ∧ ∀ x ∈ l.waiters, x.2 = .cancelled := by
  unfold acquire at h
  split at h
  · rename_i hc
    obtain ⟨hl, hw⟩ := Bool.and_eq_true_iff.1 hc
    refine ⟨by simpa using hl, (Prod.mk.inj h).1.symm, fun x hx => ?_⟩
    exact of_decide_eq_true (List.all_eq_true.1 hw x hx)
  · cases h

theorem acquire_false (h : l.acquire w = (l', false)) :
    l' = { l with waiters := l.waiters ++ [(w, .pending)] } := by
  unfold acquire at h
  split at h
  · cases h
  · exact (Prod.mk.inj h).1.symm

theorem Orderly.acquire {b : Bool} (h : l.Orderly) (ha : l.acquire w = (l', b)) : l'.Orderly := by
  cases b with
  | true =>
    obtain ⟨-, rfl, hc⟩ := acquire_true ha
    refine ⟨h.asleep, fun x hx b hb => ?_⟩
    rw [hc x (List.mem_of_mem_head? hx)] at hb
    cases hb
  | false =>
    obtain rfl := acquire_false ha
    cases hl : l.waiters with
    | nil => exact ⟨by simp, fun x hx b hb => by simp at hx; simp [← hx] at hb⟩
    | cons y ys =>
      refine ⟨fun x hx b => ?_, fun x hx b hb => h.free x (by simpa [hl] using hx) b hb⟩
      simp only [List.cons_append, List.tail_cons, List.mem_append, List.mem_singleton] at hx
      obtain hx | rfl := hx
      · exact h.asleep x (by rwa [hl]) b
      · simp

/-- Cancelling wakes nobody. -/
theorem woken_of_cancel {x : ℕ × Waiting} {b : Bool}
    (hx : (if x.1 = w then
        match x.2 with
        | .pending | .cancelled => (w, .cancelled)
        | .woken _ => (w, .woken true)
      else x).2 = Waiting.woken b) : ∃ b', x.2 = .woken b' := by
  obtain ⟨v, st⟩ := x
  cases st with
  | woken b' => exact ⟨b', rfl⟩
  | pending => by_cases hv : v = w <;> simp [hv] at hx
  | cancelled => by_cases hv : v = w <;> simp [hv] at hx

theorem Orderly.cancel (h : l.Orderly) (w : ℕ) : (l.cancel w).Orderly := by
  refine ⟨fun x hx b hb => ?_, fun x hx b hb => ?_⟩
  · rw [AsyncLock.cancel, ← List.map_tail] at hx
    obtain ⟨y, hy, rfl⟩ := List.mem_map.1 hx
    obtain ⟨b', hb'⟩ := woken_of_cancel hb
    exact h.asleep y hy b' hb'
  · rw [AsyncLock.cancel, List.head?_map, Option.mem_def, Option.map_eq_some_iff] at hx
    obtain ⟨y, hy, rfl⟩ := hx
    obtain ⟨b', hb'⟩ := woken_of_cancel hb
    exact h.free y hy b' hb'

/-- Waiters may drop out. -/
theorem Orderly.sublist (h : l.Orderly) {ws : List (ℕ × Waiting)} (hs : ws.Sublist l.waiters) :
    Orderly { l with waiters := ws } := by
  refine ⟨fun x hx b hb => ?_, fun x hx b hb => ?_⟩
  · exact h.asleep x (hs.tail.subset hx) b hb
  · exact h.free x (h.head (hs.subset (List.mem_of_mem_head? hx)) hb) b hb

theorem Orderly.leave (h : l.Orderly) (w : ℕ) : (l.leave w).Orderly :=
  h.sublist List.filter_sublist

/-- **The one that gets the lock finds it free.** -/
theorem resume_true (h : l.Orderly) (hr : l.resume w = some (l', true)) :
    l.locked = false ∧ l'.locked = true ∧ l'.Orderly := by
  unfold resume at hr
  split at hr
  · rename_i v hfind
    obtain rfl := (Prod.mk.inj (Option.some.inj hr)).1
    have hmem := List.mem_of_find?_eq_some hfind
    have hv : v = w := by simpa using List.find?_some hfind
    have hhead := h.head hmem rfl
    refine ⟨h.free _ hhead _ rfl, rfl, fun x hx b hb => ?_, fun x hx b hb => ?_⟩
    · exact (h.leave w).asleep x hx b hb
    · -- The only one that was awake has left.
      have hx' := List.mem_of_mem_head? hx
      obtain ⟨hxl, hne⟩ := List.mem_filter.1 hx'
      obtain rfl := Option.some.inj (hhead.symm.trans (h.head hxl hb))
      exact absurd hv (of_decide_eq_true hne)
  · cases hr
  · cases hr
  · cases hr

theorem resume_false (h : l.Orderly) (hr : l.resume w = some (l', false)) :
    l'.locked = l.locked ∧ l'.Orderly := by
  have hl : (if (l.leave w).locked then l.leave w else (l.leave w).wakeUpFirst).locked = l.locked ∧
      (if (l.leave w).locked then l.leave w else (l.leave w).wakeUpFirst).Orderly := by
    split
    · exact ⟨rfl, h.leave w⟩
    · rename_i hf
      exact ⟨wakeUpFirst_locked, (h.leave w).wakeUpFirst (by simpa using hf)⟩
  unfold resume at hr
  split at hr
  · cases hr
  · exact (Prod.mk.inj (Option.some.inj hr)).1 ▸ hl
  · exact (Prod.mk.inj (Option.some.inj hr)).1 ▸ hl
  · cases hr

theorem release_eq_some (h : l.Orderly) (hr : l.release = some l') :
    l.locked = true ∧ l'.locked = false ∧ l'.Orderly := by
  unfold release at hr
  split at hr
  · rename_i hl
    obtain rfl := Option.some.inj hr
    refine ⟨hl, wakeUpFirst_locked, Orderly.wakeUpFirst ⟨h.asleep, fun _ _ _ _ => rfl⟩ rfl⟩
  · cases hr

/-! ### Who waits -/

theorem queue_wakeUpFirst : l.wakeUpFirst.queue = l.queue := by
  unfold wakeUpFirst
  split
  · rename_i w ws hw
    simp [queue, hw]
  · rfl

theorem queue_leave : (l.leave w).queue = l.queue.filter fun v => decide (v ≠ w) := by
  simp only [queue, leave, List.filter_map]
  rfl

theorem queue_cancel : (l.cancel w).queue = l.queue := by
  simp only [queue, cancel, List.map_map]
  refine List.map_congr_left fun x _ => ?_
  obtain ⟨v, st⟩ := x
  by_cases hv : v = w
  · subst hv
    cases st <;> simp
  · simp [hv]

theorem queue_resume {b : Bool} (h : l.resume w = some (l', b)) :
    l'.queue = l.queue.filter fun v => decide (v ≠ w) := by
  have hw : (if (l.leave w).locked then l.leave w else (l.leave w).wakeUpFirst).queue =
      l.queue.filter fun v => decide (v ≠ w) := by
    split
    · exact queue_leave
    · rw [queue_wakeUpFirst, queue_leave]
  unfold resume at h
  split at h
  · exact (Prod.mk.inj (Option.some.inj h)).1 ▸ queue_leave
  · exact (Prod.mk.inj (Option.some.inj h)).1 ▸ hw
  · exact (Prod.mk.inj (Option.some.inj h)).1 ▸ hw
  · cases h

theorem queue_release (h : l.release = some l') : l'.queue = l.queue := by
  unfold release at h
  split at h
  · obtain rfl := Option.some.inj h
    exact queue_wakeUpFirst
  · cases h

/-! ### Locks whose waiters are left in peace -/

variable (l) in
/-- No task that waits was cancelled. -/
def Unstruck : Prop := ∀ x ∈ l.waiters, x.2 = .pending ∨ x.2 = .woken false

theorem Unstruck.wakeUpFirst (h : l.Unstruck) : l.wakeUpFirst.Unstruck := by
  unfold AsyncLock.wakeUpFirst
  split
  · rename_i w ws hw
    intro x hx
    obtain rfl | hx := List.mem_cons.1 hx
    · exact .inr rfl
    · exact h x (by rw [hw]; exact List.mem_cons_of_mem _ hx)
  · exact h

theorem Unstruck.acquire {b : Bool} (h : l.Unstruck) (ha : l.acquire w = (l', b)) :
    l'.Unstruck := by
  cases b with
  | true =>
    obtain ⟨-, rfl, -⟩ := acquire_true ha
    exact h
  | false =>
    obtain rfl := acquire_false ha
    intro x hx
    obtain hx | hx := List.mem_append.1 hx
    · exact h x hx
    · rw [List.mem_singleton.1 hx]
      exact .inl rfl

/-- Whoever runs again has got the lock. -/
theorem Unstruck.resume {b : Bool} (h : l.Unstruck) (hr : l.resume w = some (l', b)) :
    b = true ∧ l'.Unstruck := by
  have hleave (x) (hx : x ∈ (l.leave w).waiters) : x.2 = .pending ∨ x.2 = .woken false :=
    h x (List.mem_of_mem_filter hx)
  unfold AsyncLock.resume at hr
  split at hr
  · obtain ⟨rfl, rfl⟩ := Prod.mk.inj (Option.some.inj hr)
    exact ⟨rfl, hleave⟩
  · rename_i hfind
    exact absurd (h _ (List.mem_of_find?_eq_some hfind)) (by simp)
  · rename_i hfind
    exact absurd (h _ (List.mem_of_find?_eq_some hfind)) (by simp)
  · cases hr

theorem Unstruck.release (h : l.Unstruck) (hr : l.release = some l') : l'.Unstruck := by
  unfold AsyncLock.release at hr
  split at hr
  · obtain rfl := Option.some.inj hr
    exact Unstruck.wakeUpFirst (l := { l with locked := false }) h
  · cases hr

theorem cancel_eq_self (h : w ∉ l.queue) : l.cancel w = l := by
  have hmap : (l.waiters.map fun x =>
      if x.1 = w then
        match x.2 with
        | .pending | .cancelled => (w, .cancelled)
        | .woken _ => (w, .woken true)
      else x) = l.waiters := by
    refine (List.map_congr_left fun x hx => ?_).trans l.waiters.map_id
    rw [if_neg fun heq => h (List.mem_map.2 ⟨x, hx, heq⟩)]
    rfl
  rw [cancel, hmap]

end AsyncLock

end Backplane.Concur
