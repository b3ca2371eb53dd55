import Backplane.Sdk.Stream

/-!
# What a stream is to yield

It is read off the events alone: the Progress frames of the task that arrive before its Result,
whether or not anybody has subscribed by then.

* `arrived`, `firstResult` : what arrives for a task.
* `StreamComplete` : every stream that is not given up yields it, but for frames whose drop is
  logged, ends once the Result is there, and has that Result.
* `Dispatcher.careful` : each stream is opened before the Result of its task arrives, by the only
  one who waits for the task, and its queue has room for the Result.
* `Dispatcher.StreamInv` : what holds then, with one lemma for each frame that arrives.
-/

namespace Backplane

variable {E : Type}

/-! ### What arrives -/

/-- The Result of the task that arrives. -/
def StreamEvent.resultOf (t : TaskId) : StreamEvent E → Option ResultFrame
  | .result frame => if frame.taskId = t then some frame else none
  | _ => none

/-- The Progress frame of the task that arrives. -/
def StreamEvent.progressOf (t : TaskId) : StreamEvent E → Option ProgressFrame
  | .progress frame => if frame.taskId = t then some frame else none
  | _ => none

/-- The first Result of the task. -/
def firstResult (t : TaskId) (events : List (ℕ × StreamEvent E)) : Option ResultFrame :=
  events.findSome? fun x => x.2.resultOf t

/-- The Progress frames of the task that arrive before its Result. -/
def arrived (t : TaskId) (events : List (ℕ × StreamEvent E)) : List ProgressFrame :=
  (events.takeWhile fun x => (x.2.resultOf t).isNone).filterMap fun x => x.2.progressOf t

/-- The caller gives the stream up. -/
def StreamEvent.leaves (s : ℕ) : StreamEvent E → Bool
  | .giveUp s' | .aclose s' | .del s' => s' == s
  | _ => false

/-- The caller takes the Result from the stream. -/
def StreamEvent.reads (s : ℕ) : StreamEvent E → Bool
  | .readResult s' => s' == s
  | _ => false

/-! ### What is claimed -/

/-- The Progress frames that wait in the queue. -/
def SpawnStream.waiting (st : SpawnStream) : List ProgressFrame :=
  st.queue.items.filterMap StreamItem.progress?

/-- What the iteration has yielded and what it will. -/
def SpawnStream.frames (st : SpawnStream) : List ProgressFrame := st.yielded ++ st.waiting

/-- The drops of the frames of a task. -/
def Dispatcher.droppedOf (d : Dispatcher E) (t : TaskId) : List ProgressDrop :=
  d.dropped.filter fun x => x.taskId = t

/-- These are the frames that arrived, in their order, but for those that were dropped because a
buffer was full. -/
structure FramesAccounted (arrived kept : List ProgressFrame) (drops : List ProgressDrop) :
    Prop where
  /-- The order is that of the arrival. -/
  sublist : kept.Sublist arrived
  /-- What is missing was dropped. -/
  perm : (kept ++ drops.map ProgressDrop.frame).Perm arrived
  reason : ∀ x ∈ drops, x.reason ≠ .unwanted

/-- Iterate a stream for so many frames at most: what it yields, and whether it has stopped. -/
def Dispatcher.iterate : ℕ → Dispatcher E → ℕ → Dispatcher E × List ProgressFrame × Bool
  | 0, d, _ => (d, [], false)
  | n + 1, d, s =>
    match d.anext s with
    | (d, none) => (d, [], false)
    | (d, some .stops) => (d, [], true)
    | (d, some (.yields frame)) =>
      let (d, frames, stopped) := iterate n d s
      (d, frame :: frames, stopped)

/-- Every stream that is not given up yields what arrives for its task and ends with the Result. -/
structure StreamComplete [DecidableEq E] (cfg : DispatcherSettings E)
    (events : List (ℕ × StreamEvent E)) : Prop where
  /-- What it has yielded and what waits for it is what arrived before the Result. -/
  frames : ∀ (s : ℕ) (st : SpawnStream), (Dispatcher.run cfg {} events).streams[s]? = some st →
    (∀ x ∈ events, x.2.leaves s = false) →
      ∃ drops, drops <+: (Dispatcher.run cfg {} events).droppedOf st.taskId ∧
        FramesAccounted (arrived st.taskId events) st.frames drops
  /-- With the Result there, iterating yields what waits and stops with that Result. -/
  ends : ∀ (s : ℕ) (st : SpawnStream) (r : ResultFrame),
    (Dispatcher.run cfg {} events).streams[s]? = some st →
    (∀ x ∈ events, x.2.leaves s = false) → firstResult st.taskId events = some r →
      ∃ n d st' rest, (Dispatcher.run cfg {} events).iterate n s = (d, rest, true) ∧
        d.streams[s]? = some st' ∧ st'.result = some r ∧
        ((∀ x ∈ events, x.2.reads s = false) → rest = st.waiting)
  /-- With the Result there, its future is settled, and not with another value. -/
  result : ∀ (s : ℕ) (st : SpawnStream) (r : ResultFrame),
    (Dispatcher.run cfg {} events).streams[s]? = some st →
    (∀ x ∈ events, x.2.leaves s = false) → firstResult st.taskId events = some r →
      ∃ fs, (Dispatcher.run cfg {} events).pendingResults.futures[st.resultFut]? =
          some (st.taskId, fs) ∧
        fs.done = true ∧ ∀ v, fs = .settled (.ok v) → v = r

/-- Nobody has waited for the task, and its Result has not arrived. -/
def Dispatcher.fresh (d : Dispatcher E) (t : TaskId) : Bool :=
  !d.finished.contains t && d.pendingResults.futures.all fun f => f.1 ≠ t

/-- The queue of the task's stream has room for the Result. -/
def Dispatcher.hasRoom (d : Dispatcher E) (t : TaskId) : Bool :=
  ((d.progressSubscribers.lookup t).bind fun s => d.streams[s]?).all fun st => !st.queue.full

/-- A stream is opened for a fresh task, nobody else waits for a task that is streamed, and the
Result finds room where it goes. -/
def StreamEvent.careful [DecidableEq E] (cfg : DispatcherSettings E) (d : Dispatcher E) (now : ℕ) :
    StreamEvent E → Bool
  | .openStream t _ _ => d.fresh t
  | .resume i =>
    match d.resumption cfg i with
    | some (_, .streams t) => d.fresh t
    | some (_, .awaits t) => (d.progressSubscribers.lookup t).isNone
    | _ => true
  | .result frame =>
    d.hasRoom frame.taskId &&
      (d.pendingResults.resolve cfg.results now frame.taskId frame).2.isSome
  | _ => true

/-- Every event is. -/
def Dispatcher.careful [DecidableEq E] (cfg : DispatcherSettings E) (d : Dispatcher E) :
    List (ℕ × StreamEvent E) → Bool
  | [] => true
  | x :: events => x.2.careful cfg d x.1 && careful cfg (d.apply cfg x.1 x.2) events

/-! ### Queues -/

section

variable {α : Type} {q q' : BoundedQueue α} {x : α}

theorem BoundedQueue.offer_of_room (h : q.full = false) :
    q.offer x = { q with items := q.items ++ [x] } := by
  simp [offer, putNowait, h]

/-- What is put and what is left is everything, in order. -/
theorem BoundedQueue.putEach_eq (q : BoundedQueue α) (xs : List α) :
    ∃ ys, xs = ys ++ (q.putEach xs).2 ∧ (q.putEach xs).1 = { q with items := q.items ++ ys } := by
  induction xs generalizing q with
  | nil => exact ⟨[], rfl, by simp [putEach]⟩
  | cons x xs ih =>
    unfold putEach
    cases hput : q.putNowait x with
    | none => exact ⟨[], rfl, by simp⟩
    | some q' =>
      obtain ⟨ys, hxs, hq⟩ := ih q'
      refine ⟨x :: ys, congrArg (List.cons x) hxs, ?_⟩
      rw [hq, putNowait_eq_some hput, List.append_assoc]
      rfl

end

/-! ### Accounts -/

section

variable {a k l : List ProgressFrame} {D : List ProgressDrop} {p : ProgressFrame} {t : TaskId}
  {reason : DropReason}

theorem FramesAccounted.keep (h : FramesAccounted a k D) :
    FramesAccounted (a ++ [p]) (k ++ [p]) D where
  sublist := h.sublist.append (List.Sublist.refl _)
  perm := by
    have hswap : (k ++ [p] ++ D.map ProgressDrop.frame).Perm
        (k ++ D.map ProgressDrop.frame ++ [p]) := by
      rw [List.append_assoc, List.append_assoc]
      exact List.perm_append_comm.append_left k
    exact hswap.trans (h.perm.append_right [p])
  reason := h.reason

theorem FramesAccounted.lose (h : FramesAccounted a k D) (hr : reason ≠ .unwanted) :
    FramesAccounted (a ++ [p]) k (D ++ [⟨t, reason, p⟩]) where
  sublist := h.sublist.trans (List.sublist_append_left a [p])
  perm := by
    rw [List.map_append, ← List.append_assoc]
    exact h.perm.append_right [p]
  reason := by
    intro x hx
    obtain hx | hx := List.mem_append.1 hx
    · exact h.reason x hx
    · rwa [List.mem_singleton.1 hx]

theorem FramesAccounted.discard (h : FramesAccounted a (k ++ l) D) (hr : reason ≠ .unwanted) :
    FramesAccounted a k (D ++ l.map (ProgressDrop.mk t reason)) where
  sublist := (List.sublist_append_left k l).trans h.sublist
  perm := by
    have hframes : (l.map (ProgressDrop.mk t reason)).map ProgressDrop.frame = l := by
      rw [List.map_map]
      exact List.map_id'' (fun _ => rfl) l
    rw [List.map_append, hframes]
    refine (List.Perm.append_left k List.perm_append_comm).trans ?_
    rw [← List.append_assoc]
    exact h.perm
  reason := by
    intro x hx
    obtain hx | hx := List.mem_append.1 hx
    · exact h.reason x hx
    · obtain ⟨p, -, rfl⟩ := List.mem_map.1 hx
      exact hr

end

/-! ### One more event -/

section

variable {t : TaskId} {events : List (ℕ × StreamEvent E)} {x : ℕ × StreamEvent E}

theorem firstResult_append :
    firstResult t (events ++ [x]) = (firstResult t events).or (x.2.resultOf t) := by
  rw [firstResult, List.findSome?_append]
  cases hx : x.2.resultOf t <;> simp [firstResult, hx]

theorem StreamEvent.progressOf_of_resultOf {ev : StreamEvent E} {r : ResultFrame}
    (h : ev.resultOf t = some r) : ev.progressOf t = none := by
  cases ev <;> simp_all [resultOf, progressOf]

theorem arrived_append : arrived t (events ++ [x]) =
    if (firstResult t events).isSome then arrived t events
    else arrived t events ++ (x.2.progressOf t).toList := by
  unfold arrived firstResult
  induction events with
  | nil =>
    cases hx : x.2.resultOf t with
    | none => cases hp : x.2.progressOf t <;> simp [hx, hp]
    | some r => simp [hx, StreamEvent.progressOf_of_resultOf hx]
  | cons y events ih =>
    cases hy : y.2.resultOf t with
    | some r => simp [hy]
    | none =>
      simp only [List.cons_append, List.takeWhile_cons, hy, Option.isNone_none, if_true,
        List.findSome?_cons]
      cases hp : y.2.progressOf t with
      | none => simpa [hp] using ih
      | some p =>
        simp only [List.filterMap_cons, hp, ih]
        split <;> rfl

end

/-! ### What holds of each task -/

/-- A stream before the Result of its task. -/
structure SpawnStream.Running (events : List (ℕ × StreamEvent E)) (d : Dispatcher E) (s : ℕ)
    (st : SpawnStream) : Prop where
  subscribed : d.progressSubscribers.lookup st.taskId = some s
  /-- Nothing of its task is in the buffer. -/
  buffer : d.pendingProgressBuffer.lookup st.taskId = none
  result : st.result = none
  /-- Only progress waits in its queue. -/
  items : st.queue.items = st.waiting.map StreamItem.progress
  /-- No frame is lost without a trace. -/
  accounted : FramesAccounted (arrived st.taskId events) st.frames (d.droppedOf st.taskId)
  /-- Its future has no value. -/
  future : ∃ deadline fs, d.pendingResults.Tracked ⟨st.resultFut, st.taskId, deadline⟩ fs ∧
    ∀ v, fs ≠ .settled (.ok v)

/-- A stream after the Result of its task. -/
structure SpawnStream.Ended (events : List (ℕ × StreamEvent E)) (d : Dispatcher E) (s : ℕ)
    (st : SpawnStream) (r : ResultFrame) : Prop where
  unsubscribed : d.progressSubscribers.lookup st.taskId = none
  /-- No frame was lost without a trace. -/
  accounted : ∃ drops, drops <+: d.droppedOf st.taskId ∧
    FramesAccounted (arrived st.taskId events) st.frames drops
  /-- Its future has no value but the Result. -/
  future : ∃ fs, d.pendingResults.futures[st.resultFut]? = some (st.taskId, fs) ∧
    fs.done = true ∧ ∀ v, fs = .settled (.ok v) → v = r
  /-- The Result is at the end of its queue, or its iteration has got there. -/
  phase : (st.queue.items = st.waiting.map StreamItem.progress ++ [.result r] ∧
      (st.result = none ∨ st.result = some r ∧ ∃ x ∈ events, x.2.reads s = true)) ∨
    st.queue.items = [] ∧ st.result = some r ∧ st.parked = false

/-- What holds of a task and its streams. -/
structure Dispatcher.TaskState (events : List (ℕ × StreamEvent E)) (d : Dispatcher E) (t : TaskId) :
    Prop where
  /-- Before its stream is opened, what has arrived waits in the buffer. -/
  early : d.fresh t = true → FramesAccounted (arrived t events)
    ((d.pendingProgressBuffer.lookup t).getD []) (d.droppedOf t)
  stream : ∀ (s : ℕ) (st : SpawnStream), d.streams[s]? = some st → st.taskId = t →
    (∀ x ∈ events, x.2.leaves s = false) →
      match firstResult t events with
      | none => st.Running events d s
      | some r => st.Ended events d s r

/-- What holds of the dispatcher. -/
structure Dispatcher.StreamInv (events : List (ℕ × StreamEvent E)) (d : Dispatcher E) : Prop where
  /-- Every entry has its future. -/
  owned : d.pendingResults.Owned
  /-- Only a Result is a value. -/
  buffered : ∀ t r now, d.pendingResults.buffered.lookup t = some (.ok r, now) → t ∈ d.finished
  /-- The Results that have arrived. -/
  finished : ∀ t, t ∈ d.finished ↔ (firstResult t events).isSome = true
  /-- A stream has a future. -/
  known : ∀ (s : ℕ) (st : SpawnStream), d.streams[s]? = some st →
    ∃ fs, d.pendingResults.futures[st.resultFut]? = some (st.taskId, fs)
  /-- A task has one stream. -/
  alone : ∀ (s s' : ℕ) (st st' : SpawnStream), d.streams[s]? = some st → d.streams[s']? = some st' →
    st.taskId = st'.taskId → s = s'
  /-- A subscriber is the stream of the task. -/
  subscribed : ∀ (t : TaskId) (s : ℕ), d.progressSubscribers.lookup t = some s →
    ∃ st, d.streams[s]? = some st ∧ st.taskId = t
  /-- Each task is in order. -/
  task : ∀ t, d.TaskState events t

section

variable {d d' : Dispatcher E} {t t' : TaskId} {events : List (ℕ × StreamEvent E)}
  {x : ℕ × StreamEvent E} {s : ℕ} {st : SpawnStream} {reason : DropReason}
  {frames : List ProgressFrame} {r : ResultFrame}

theorem Dispatcher.fresh_iff : d.fresh t = true ↔
    t ∉ d.finished ∧ ∀ (i : ℕ) (k : TaskId) (fs : FutureState ResultFrame E),
      d.pendingResults.futures[i]? = some (k, fs) → k ≠ t := by
  simp only [fresh, Bool.and_eq_true, Bool.not_eq_true', List.contains_eq_mem,
    decide_eq_false_iff_not, List.all_eq_true, decide_eq_true_eq]
  refine and_congr_right fun _ => ⟨fun h i k fs hi => h _ (List.mem_of_getElem? hi), ?_⟩
  rintro h ⟨k, fs⟩ hf
  obtain ⟨i, hi⟩ := List.getElem?_of_mem hf
  exact h i k fs hi

theorem Dispatcher.droppedOf_drop (d : Dispatcher E) (t t' : TaskId) (reason : DropReason)
    (frames : List ProgressFrame) : (d.drop t' reason frames).droppedOf t =
    d.droppedOf t ++ if t' = t then frames.map (ProgressDrop.mk t' reason) else [] := by
  rw [droppedOf, drop, List.filter_append, droppedOf]
  congr 1
  split_ifs with ht
  · exact List.filter_eq_self.2 (by simp [ht])
  · exact List.filter_eq_nil_iff.2 (by simp [ht])

/-- The event is about other tasks than this one. -/
structure Dispatcher.Unaffected (d d' : Dispatcher E) (t : TaskId) : Prop where
  buffer : d'.pendingProgressBuffer.lookup t = d.pendingProgressBuffer.lookup t
  subscriber : d'.progressSubscribers.lookup t = d.progressSubscribers.lookup t
  dropped : d'.droppedOf t = d.droppedOf t
  streams : ∀ (s : ℕ) (st : SpawnStream), st.taskId = t → d'.streams[s]? = some st →
    d.streams[s]? = some st
  finished : ∀ t, t ∈ d.finished → t ∈ d'.finished
  later : d.pendingResults.Later d'.pendingResults
  /-- The future of its stream gets no value. -/
  tracked : d.progressSubscribers.lookup t ≠ none →
    ∀ (fut deadline : ℕ) (fs : FutureState ResultFrame E),
    d.pendingResults.Tracked ⟨fut, t, deadline⟩ fs → (∀ v, fs ≠ .settled (.ok v)) →
      ∃ fs', d'.pendingResults.Tracked ⟨fut, t, deadline⟩ fs' ∧ ∀ v, fs' ≠ .settled (.ok v)

theorem Dispatcher.fresh_of_later (hf : ∀ t, t ∈ d.finished → t ∈ d'.finished)
    (hl : d.pendingResults.Later d'.pendingResults) (h : d'.fresh t = true) : d.fresh t = true := by
  obtain ⟨hfin, hfut⟩ := fresh_iff.1 h
  refine fresh_iff.2 ⟨fun ht => hfin (hf t ht), fun i k fs hi => ?_⟩
  obtain ⟨fs', hi', -⟩ := hl i k fs hi
  exact hfut i k fs' hi'

theorem SpawnStream.Ended.mono {events' : List (ℕ × StreamEvent E)} (h : st.Ended events d s r)
    (hsub : d'.progressSubscribers.lookup st.taskId = none)
    (hdrop : d.droppedOf st.taskId <+: d'.droppedOf st.taskId)
    (hlater : d.pendingResults.Later d'.pendingResults)
    (harr : arrived st.taskId events' = arrived st.taskId events) (hmem : events ⊆ events') :
    st.Ended events' d' s r := by
  obtain ⟨drops, hdrops, hacc⟩ := h.accounted
  obtain ⟨fs, hfs, hdone, hval⟩ := h.future
  obtain ⟨fs', hfs', hsame⟩ := hlater _ _ fs hfs
  obtain rfl := hsame hdone
  refine ⟨hsub, ⟨drops, hdrops.trans hdrop, harr ▸ hacc⟩, ⟨fs', hfs', hdone, hval⟩, ?_⟩
  refine h.phase.imp_left fun hq => ⟨hq.1, hq.2.imp_right fun hr => ?_⟩
  obtain ⟨y, hy, hread⟩ := hr.2
  exact ⟨hr.1, y, hmem hy, hread⟩

theorem arrived_append_of_none (h : x.2.progressOf t = none) :
    arrived t (events ++ [x]) = arrived t events := by
  rw [arrived_append, h]
  simp

theorem arrived_append_of_result (h : firstResult t events = some r) :
    arrived t (events ++ [x]) = arrived t events := by
  rw [arrived_append, h]
  rfl

theorem arrived_append_of_progress {p : ProgressFrame} (h : firstResult t events = none)
    (hp : x.2.progressOf t = some p) : arrived t (events ++ [x]) = arrived t events ++ [p] := by
  rw [arrived_append, h, hp]
  rfl

theorem Dispatcher.TaskState.frame (h : d.TaskState events t) (hu : d.Unaffected d' t)
    (hp : x.2.progressOf t = none) (hr : x.2.resultOf t = none) :
    d'.TaskState (events ++ [x]) t := by
  have harr : arrived t (events ++ [x]) = arrived t events := arrived_append_of_none hp
  have hres : firstResult t (events ++ [x]) = firstResult t events := by
    rw [firstResult_append, hr, Option.or_none]
  refine ⟨fun hfresh => ?_, fun s st hs ht hleft => ?_⟩
  · rw [harr, hu.buffer, hu.dropped]
    exact h.early (fresh_of_later hu.finished hu.later hfresh)
  · subst ht
    have hold := h.stream s st (hu.streams s st rfl hs) rfl fun y hy =>
      hleft y (List.mem_append_left _ hy)
    rw [hres]
    cases hev : firstResult st.taskId events with
    | none =>
      rw [hev] at hold
      obtain ⟨deadline, fs, htracked, hno⟩ := hold.future
      exact ⟨hu.subscriber ▸ hold.subscribed, hu.buffer ▸ hold.buffer, hold.result, hold.items,
        harr ▸ hu.dropped ▸ hold.accounted, deadline,
        hu.tracked (by rw [hold.subscribed]; simp) _ _ fs htracked hno⟩
    | some r =>
      rw [hev] at hold
      exact hold.mono (hu.subscriber ▸ hold.unsubscribed) (hu.dropped ▸ List.prefix_rfl) hu.later
        harr (List.subset_append_left _ _)

/-- Frames of tasks that have no open stream may be dropped. -/
theorem Dispatcher.TaskState.lose (h : d.TaskState events t)
    (hsame : d'.progressSubscribers = d.progressSubscribers ∧ d'.streams = d.streams ∧
      d'.pendingResults = d.pendingResults ∧ d'.finished = d.finished)
    (hmore : d.droppedOf t <+: d'.droppedOf t)
    (hopen : d.progressSubscribers.lookup t ≠ none → d.pendingProgressBuffer.lookup t = none →
      d'.pendingProgressBuffer.lookup t = none ∧ d'.droppedOf t = d.droppedOf t)
    (hearly : FramesAccounted (arrived t events) ((d.pendingProgressBuffer.lookup t).getD [])
        (d.droppedOf t) →
      FramesAccounted (arrived t events) ((d'.pendingProgressBuffer.lookup t).getD [])
        (d'.droppedOf t)) :
    d'.TaskState events t := by
  obtain ⟨hsub, hstreams, hresults, hfin⟩ := hsame
  refine ⟨fun hfresh => hearly (h.early ?_), fun s st hs ht hleft => ?_⟩
  · exact fresh_of_later (fun _ ht => hfin ▸ ht) (.of_futures (by rw [hresults])) hfresh
  · subst ht
    have hold := h.stream s st (hstreams ▸ hs) rfl hleft
    cases hev : firstResult st.taskId events with
    | none =>
      rw [hev] at hold
      obtain ⟨hbuffer, hdropped⟩ := hopen (by rw [hold.subscribed]; simp) hold.buffer
      exact ⟨hsub ▸ hold.subscribed, hbuffer, hold.result, hold.items, hdropped ▸ hold.accounted,
        hresults ▸ hold.future⟩
    | some r =>
      rw [hev] at hold
      exact hold.mono (hsub ▸ hold.unsubscribed) hmore (.of_futures (by rw [hresults])) rfl
        (List.Subset.refl _)

theorem Dispatcher.TaskState.evictOldest (h : d.TaskState events t) :
    d.evictOldest.TaskState events t := by
  unfold Dispatcher.evictOldest
  cases hlast : d.pendingProgressBuffer.entries.getLast? with
  | none => exact h
  | some oldest =>
    obtain ⟨hlookup, hold⟩ := Table.lookup_dropOldest (k := t) hlast
    refine h.lose ⟨rfl, rfl, rfl, rfl⟩ ?_ (fun _ hnone => ?_) fun hacc => ?_
    · rw [droppedOf_drop]
      exact List.prefix_append _ _
    · have hne : oldest.1 ≠ t := by
        rintro rfl
        exact absurd (hold.symm.trans hnone) (by simp)
      rw [droppedOf_drop, if_neg hne, List.append_nil]
      exact ⟨hlookup.trans (by rw [if_neg (Ne.symm hne), hnone]), rfl⟩
    · rw [droppedOf_drop]
      change FramesAccounted _ ((AList.lookup t d.pendingProgressBuffer.dropOldest).getD []) _
      rw [hlookup]
      by_cases hne : oldest.1 = t
      · subst hne
        rw [if_pos rfl, if_pos rfl]
        rw [hold] at hacc
        exact FramesAccounted.discard (k := []) hacc (by simp)
      · rw [if_neg hne, if_neg (Ne.symm hne), List.append_nil]
        exact hacc

/-- What identifies a stream. -/
def SpawnStream.shape (st : SpawnStream) : TaskId × ℕ := (st.taskId, st.resultFut)

theorem map_shape_set (st' : SpawnStream) {l : List SpawnStream} (hs : l[s]? = some st)
    (h : st'.shape = st.shape) :
    (l.set s st').map SpawnStream.shape = l.map SpawnStream.shape := by
  refine List.ext_getElem? fun i => ?_
  rw [List.getElem?_map, List.getElem?_map, List.getElem?_set]
  by_cases hi : s = i
  · subst hi
    obtain ⟨hlt, -⟩ := List.getElem?_eq_some_iff.1 hs
    rw [if_pos rfl, if_pos hlt, hs]
    exact congrArg some h
  · rw [if_neg hi]

theorem getElem?_of_shape {l l' : List SpawnStream}
    (h : l'.map SpawnStream.shape = l.map SpawnStream.shape) (hs : l'[s]? = some st) :
    ∃ st', l[s]? = some st' ∧ st'.taskId = st.taskId ∧ st'.resultFut = st.resultFut := by
  have hget := congrArg (fun l => l[s]?) h
  simp only [List.getElem?_map, hs, Option.map_some] at hget
  obtain ⟨st', hst', hshape⟩ := Option.map_eq_some_iff.1 hget.symm
  exact ⟨st', hst', congrArg Prod.fst hshape, congrArg Prod.snd hshape⟩

/-- Streams are neither opened nor closed. -/
theorem Dispatcher.StreamInv.of_shape {events' : List (ℕ × StreamEvent E)} (h : d.StreamInv events)
    (hshape : d'.streams.map SpawnStream.shape = d.streams.map SpawnStream.shape)
    (howned : d'.pendingResults.Owned) (hlater : d.pendingResults.Later d'.pendingResults)
    (hbuffered : ∀ t r now, d'.pendingResults.buffered.lookup t = some (.ok r, now) →
      t ∈ d'.finished)
    (hfinished : ∀ t, t ∈ d'.finished ↔ (firstResult t events').isSome = true)
    (hsub : ∀ t s, d'.progressSubscribers.lookup t = some s →
      d.progressSubscribers.lookup t = some s)
    (htask : ∀ t, d'.TaskState events' t) : d'.StreamInv events' where
  owned := howned
  buffered := hbuffered
  finished := hfinished
  known := by
    intro s st hs
    obtain ⟨st', hs', ht, hf⟩ := getElem?_of_shape hshape hs
    obtain ⟨fs, hfs⟩ := h.known s st' hs'
    obtain ⟨fs', hfs', -⟩ := hlater _ _ fs hfs
    exact ⟨fs', ht ▸ hf ▸ hfs'⟩
  alone := by
    intro s s' st st' hs hs' ht
    obtain ⟨st₁, hs₁, ht₁, -⟩ := getElem?_of_shape hshape hs
    obtain ⟨st₂, hs₂, ht₂, -⟩ := getElem?_of_shape hshape hs'
    exact h.alone s s' st₁ st₂ hs₁ hs₂ (ht₁.trans (ht.trans ht₂.symm))
  subscribed := by
    intro t s hs
    obtain ⟨st, hst, ht⟩ := h.subscribed t s (hsub t s hs)
    obtain ⟨st', hst', ht', -⟩ := getElem?_of_shape hshape.symm hst
    exact ⟨st', hst', ht'.trans ht⟩
  task := htask

theorem Dispatcher.Unaffected.of_same
    (hsame : d'.pendingResults = d.pendingResults ∧ d'.finished = d.finished)
    (hbuffer : d'.pendingProgressBuffer.lookup t = d.pendingProgressBuffer.lookup t)
    (hsub : d'.progressSubscribers.lookup t = d.progressSubscribers.lookup t)
    (hdropped : d'.droppedOf t = d.droppedOf t)
    (hstreams : ∀ (s : ℕ) (st : SpawnStream), st.taskId = t → d'.streams[s]? = some st →
      d.streams[s]? = some st) : d.Unaffected d' t := by
  obtain ⟨hresults, hfin⟩ := hsame
  refine ⟨hbuffer, hsub, hdropped, hstreams, fun _ ht => hfin ▸ ht,
    .of_futures (by rw [hresults]), fun _ fut deadline fs h hno => ⟨fs, hresults ▸ h, hno⟩⟩

theorem Dispatcher.getElem?_setStream {st₀ st' : SpawnStream} {s' : ℕ} (hst₀ : st₀.taskId ≠ t)
    (ht : st'.taskId = t) (h : (d.setStream s st₀).streams[s']? = some st') :
    d.streams[s']? = some st' := by
  rw [setStream, List.getElem?_set] at h
  split_ifs at h with hs hlt
  · exact absurd ((Option.some.inj h) ▸ ht) hst₀
  · exact h

/-- Nobody is subscribed to a fresh task, or waits for it. -/
theorem Dispatcher.StreamInv.of_fresh (h : d.StreamInv events) (hfresh : d.fresh t = true) :
    d.progressSubscribers.lookup t = none ∧ d.pendingResults.pending.lookup t = none ∧
      (∀ r now, d.pendingResults.buffered.lookup t ≠ some (.ok r, now)) ∧
      ∀ (s : ℕ) (st : SpawnStream), d.streams[s]? = some st → st.taskId ≠ t := by
  obtain ⟨hfin, hfut⟩ := fresh_iff.1 hfresh
  have hstream : ∀ (s : ℕ) (st : SpawnStream), d.streams[s]? = some st → st.taskId ≠ t := by
    intro s st hs
    obtain ⟨fs, hfs⟩ := h.known s st hs
    exact hfut _ _ fs hfs
  refine ⟨?_, ?_, fun r now hb => hfin (h.buffered t r now hb), hstream⟩
  · refine Option.eq_none_iff_forall_ne_some.2 fun s hs => ?_
    obtain ⟨st, hst, ht⟩ := h.subscribed t s hs
    exact hstream s st hst ht
  · refine Option.eq_none_iff_forall_ne_some.2 fun p hp => ?_
    obtain ⟨fs, hfs⟩ := h.owned t p hp
    exact hfut _ t fs hfs rfl

/-! ### Progress arrives -/

variable {now : ℕ} {frame : ProgressFrame}

/-- Progress that nobody is subscribed to. -/
theorem Dispatcher.TaskState.unsubscribed (h : d.TaskState events t)
    (hnone : d.progressSubscribers.lookup t = none) (hx : x.2.resultOf t = none)
    (hsame : d'.progressSubscribers = d.progressSubscribers ∧ d'.streams = d.streams ∧
      d'.pendingResults = d.pendingResults ∧ d'.finished = d.finished)
    (hmore : d.droppedOf t <+: d'.droppedOf t)
    (hearly : d.fresh t = true → FramesAccounted (arrived t (events ++ [x]))
      ((d'.pendingProgressBuffer.lookup t).getD []) (d'.droppedOf t)) :
    d'.TaskState (events ++ [x]) t := by
  obtain ⟨hsub, hstreams, hresults, hfin⟩ := hsame
  have hlater : d.pendingResults.Later d'.pendingResults := .of_futures (by rw [hresults])
  refine ⟨fun hfresh => hearly (fresh_of_later (fun _ ht => hfin ▸ ht) hlater hfresh),
    fun s st hs ht hleft => ?_⟩
  subst ht
  have hold := h.stream s st (hstreams ▸ hs) rfl fun y hy => hleft y (List.mem_append_left _ hy)
  rw [firstResult_append, hx, Option.or_none]
  cases hev : firstResult st.taskId events with
  | none =>
    rw [hev] at hold
    exact absurd (hnone.symm.trans hold.subscribed) (by simp)
  | some r =>
    rw [hev] at hold
    exact hold.mono (hsub ▸ hnone) hmore hlater (arrived_append_of_result hev)
      (List.subset_append_left _ _)

theorem Dispatcher.evictOldest_same : d.evictOldest.progressSubscribers = d.progressSubscribers ∧
    d.evictOldest.streams = d.streams ∧ d.evictOldest.pendingResults = d.pendingResults ∧
    d.evictOldest.finished = d.finished ∧ d.droppedOf t <+: d.evictOldest.droppedOf t ∧
    (d.pendingProgressBuffer.lookup t = none →
      d.evictOldest.pendingProgressBuffer.lookup t = none) := by
  unfold evictOldest
  cases hlast : d.pendingProgressBuffer.entries.getLast? with
  | none => exact ⟨rfl, rfl, rfl, rfl, List.prefix_rfl, id⟩
  | some oldest =>
    refine ⟨rfl, rfl, rfl, rfl, ?_, fun hnone => ?_⟩
    · rw [droppedOf_drop]
      exact List.prefix_append _ _
    · refine (Table.lookup_dropOldest hlast).1.trans ?_
      rw [hnone, ite_self]

theorem Dispatcher.bufferPendingProgress_same (d : Dispatcher E) (frame : ProgressFrame) :
    (d.bufferPendingProgress frame).progressSubscribers = d.progressSubscribers ∧
      (d.bufferPendingProgress frame).streams = d.streams ∧
      (d.bufferPendingProgress frame).pendingResults = d.pendingResults ∧
      (d.bufferPendingProgress frame).finished = d.finished := by
  obtain ⟨h₁, h₂, h₃, h₄, -⟩ := evictOldest_same (d := d) (t := frame.taskId)
  unfold bufferPendingProgress
  split
  · dsimp only
    split
    · exact ⟨h₁, h₂, h₃, h₄⟩
    · exact ⟨rfl, rfl, rfl, rfl⟩
  · split <;> exact ⟨rfl, rfl, rfl, rfl⟩

theorem Dispatcher.TaskState.buffer_ne (h : d.TaskState events t) (ht : frame.taskId ≠ t)
    (hp : x.2.progressOf t = none) (hr : x.2.resultOf t = none) :
    (d.bufferPendingProgress frame).TaskState (events ++ [x]) t := by
  have hassign : ∀ (d : Dispatcher E) (frames : List ProgressFrame), d.TaskState events t →
      TaskState (events ++ [x]) { d with
        pendingProgressBuffer := d.pendingProgressBuffer.assign frame.taskId frames } t := by
    intro d frames h
    refine h.frame (.of_same ⟨rfl, rfl⟩ ?_ rfl rfl fun _ _ _ hs => hs) hp hr
    change AList.lookup t (d.pendingProgressBuffer.assign frame.taskId frames) = _
    rw [Table.lookup_assign, if_neg (Ne.symm ht)]
  unfold bufferPendingProgress
  split
  · refine hassign _ _ ?_
    split
    · exact h.evictOldest
    · exact h
  · split
    · refine h.frame (.of_same ⟨rfl, rfl⟩ rfl rfl ?_ fun _ _ _ hs => hs) hp hr
      rw [droppedOf_drop, if_neg ht, List.append_nil]
    · exact hassign _ _ h

theorem Dispatcher.TaskState.buffer_self (h : d.TaskState events frame.taskId)
    (hnone : d.progressSubscribers.lookup frame.taskId = none)
    (hfin : d.fresh frame.taskId = true → firstResult frame.taskId events = none)
    (hp : x.2.progressOf frame.taskId = some frame) (hr : x.2.resultOf frame.taskId = none) :
    (d.bufferPendingProgress frame).TaskState (events ++ [x]) frame.taskId := by
  refine h.unsubscribed hnone hr (bufferPendingProgress_same d frame) ?_ fun hfresh => ?_
  · unfold bufferPendingProgress
    split
    · dsimp only
      split
      · exact evictOldest_same.2.2.2.2.1
      · exact List.prefix_rfl
    · split
      · rw [droppedOf_drop]
        exact List.prefix_append _ _
      · exact List.prefix_rfl
  · rw [arrived_append_of_progress (hfin hfresh) hp]
    unfold bufferPendingProgress
    cases hbuffer : d.pendingProgressBuffer.lookup frame.taskId with
    | none =>
      have hacc : ∀ d₁ : Dispatcher E, d₁.TaskState events frame.taskId →
          d₁.fresh frame.taskId = true → d₁.pendingProgressBuffer.lookup frame.taskId = none →
          FramesAccounted (arrived frame.taskId events ++ [frame])
            ((AList.lookup frame.taskId
              (d₁.pendingProgressBuffer.assign frame.taskId [frame])).getD [])
            (d₁.droppedOf frame.taskId) := by
        intro d₁ h₁ hfresh₁ hnone₁
        have hearly := h₁.early hfresh₁
        rw [hnone₁] at hearly
        rw [Table.lookup_assign, if_pos rfl]
        exact hearly.keep
      dsimp only
      split
      · obtain ⟨-, -, hresults, hfinished, -, hlookup⟩ :=
          evictOldest_same (d := d) (t := frame.taskId)
        refine hacc _ h.evictOldest ?_ (hlookup hbuffer)
        rwa [fresh, hresults, hfinished]
      · exact hacc d h hfresh hbuffer
    | some existing =>
      have hearly := h.early hfresh
      rw [hbuffer] at hearly
      dsimp only
      split
      · rw [droppedOf_drop, if_pos rfl]
        change FramesAccounted _ ((d.pendingProgressBuffer.lookup frame.taskId).getD []) _
        rw [hbuffer]
        exact hearly.lose (by simp)
      · change FramesAccounted _ ((AList.lookup frame.taskId
          (d.pendingProgressBuffer.assign frame.taskId (existing ++ [frame]))).getD []) _
        rw [Table.lookup_assign, if_pos rfl]
        exact hearly.keep

/-- Who is subscribed to the task has not seen its Result. -/
theorem Dispatcher.StreamInv.running (h : d.StreamInv events)
    (hsub : d.progressSubscribers.lookup st.taskId = some s) (hs : d.streams[s]? = some st)
    (hleft : ∀ x ∈ events, x.2.leaves s = false) :
    firstResult st.taskId events = none ∧ st.Running events d s := by
  have hold := (h.task st.taskId).stream s st hs rfl hleft
  cases hev : firstResult st.taskId events with
  | none =>
    rw [hev] at hold
    exact ⟨rfl, hold⟩
  | some r =>
    rw [hev] at hold
    exact absurd (hold.unsubscribed.symm.trans hsub) (by simp)

theorem Dispatcher.TaskState.putProgress (h : d.StreamInv events)
    (hsub : d.progressSubscribers.lookup frame.taskId = some s) (hs : d.streams[s]? = some st)
    (ht : st.taskId = frame.taskId) {queue : BoundedQueue StreamItem}
    (hput : st.queue.putNowait (.progress frame) = some queue)
    (hp : x.2.progressOf frame.taskId = some frame) (hr : x.2.resultOf frame.taskId = none) :
    (d.setStream s { st with queue }).TaskState (events ++ [x]) frame.taskId := by
  refine ⟨fun hfresh => ?_, fun s' st' hs' ht' hleft => ?_⟩
  · exact absurd ((h.of_fresh hfresh).1.symm.trans hsub) (by simp)
  · have hshape := map_shape_set { st with queue } hs rfl
    obtain ⟨st₁, hs₁, ht₁, -⟩ := getElem?_of_shape hshape hs'
    obtain rfl := h.alone s' s st₁ st hs₁ hs (ht₁.trans (ht'.trans ht.symm))
    obtain ⟨hlt, -⟩ := List.getElem?_eq_some_iff.1 hs
    have hget : (d.setStream s' { st with queue }).streams[s']? = some { st with queue } := by
      rw [setStream, List.getElem?_set_self hlt]
    obtain rfl := Option.some.inj (hget.symm.trans hs')
    rw [← ht] at hsub hp hr ⊢
    obtain ⟨hnone, hrun⟩ := h.running hsub hs fun y hy => hleft y (List.mem_append_left _ hy)
    rw [firstResult_append, hnone, hr]
    have hqueue := BoundedQueue.putNowait_eq_some hput
    subst hqueue
    have hwaiting : SpawnStream.waiting
        { st with queue := { st.queue with items := st.queue.items ++ [.progress frame] } } =
          st.waiting ++ [frame] := by
      simp [SpawnStream.waiting, StreamItem.progress?]
    refine ⟨hrun.subscribed, hrun.buffer, hrun.result, ?_, ?_, hrun.future⟩
    · rw [hwaiting, List.map_append, ← hrun.items]
      rfl
    · rw [SpawnStream.frames, hwaiting, ← List.append_assoc]
      exact (arrived_append_of_progress hnone hp) ▸ hrun.accounted.keep

theorem Dispatcher.TaskState.dropProgress (h : d.StreamInv events)
    (hsub : d.progressSubscribers.lookup frame.taskId = some s)
    (hp : x.2.progressOf frame.taskId = some frame) (hr : x.2.resultOf frame.taskId = none) :
    (d.drop frame.taskId .subscriberFull [frame]).TaskState (events ++ [x]) frame.taskId := by
  refine ⟨fun hfresh => ?_, fun s' st' hs' ht' hleft => ?_⟩
  · exact absurd ((h.of_fresh hfresh).1.symm.trans hsub) (by simp)
  · obtain ⟨st, hs, ht⟩ := h.subscribed _ _ hsub
    obtain rfl := h.alone s' s st' st hs' hs (ht'.trans ht.symm)
    rw [← ht'] at hsub hp hr ⊢
    obtain ⟨hnone, hrun⟩ := h.running hsub hs' fun y hy => hleft y (List.mem_append_left _ hy)
    rw [firstResult_append, hnone, hr]
    refine ⟨hrun.subscribed, hrun.buffer, hrun.result, hrun.items, ?_, hrun.future⟩
    rw [droppedOf_drop, if_pos rfl, arrived_append_of_progress hnone hp]
    exact hrun.accounted.lose (by simp)

theorem Dispatcher.StreamInv.progress (h : d.StreamInv events) :
    (d.handleProgress frame).StreamInv (events ++ [(now, .progress frame)]) := by
  have hp : ∀ t, frame.taskId ≠ t →
      (StreamEvent.progress frame : StreamEvent E).progressOf t = none := fun t ht => if_neg ht
  have hself : (StreamEvent.progress frame : StreamEvent E).progressOf frame.taskId = some frame :=
    if_pos rfl
  have hfinished : ∀ t, t ∈ d.finished ↔
      (firstResult t (events ++ [(now, StreamEvent.progress frame)])).isSome = true := by
    intro t
    rw [firstResult_append, h.finished]
    simp [StreamEvent.resultOf]
  have hfresh : d.fresh frame.taskId = true → firstResult frame.taskId events = none := by
    intro hf
    have hno := mt (h.finished frame.taskId).2 (fresh_iff.1 hf).1
    exact Option.not_isSome_iff_eq_none.1 hno
  unfold handleProgress
  cases hsub : d.progressSubscribers.lookup frame.taskId with
  | none =>
    dsimp only
    split
    · rename_i hpending
      refine h.of_shape rfl h.owned (.of_futures rfl) h.buffered hfinished (fun _ _ hs => hs)
        fun t => ?_
      by_cases ht : frame.taskId = t
      · subst ht
        refine (h.task _).unsubscribed hsub rfl ⟨rfl, rfl, rfl, rfl⟩ ?_ fun hf => ?_
        · rw [droppedOf_drop]
          exact List.prefix_append _ _
        · rw [(h.of_fresh hf).2.1] at hpending
          exact absurd hpending (by simp)
      · refine (h.task t).frame (.of_same ⟨rfl, rfl⟩ rfl rfl ?_ fun _ _ _ hs => hs) (hp t ht) rfl
        rw [droppedOf_drop, if_neg ht, List.append_nil]
    · obtain ⟨hsubs, hstreams, hresults, hfin⟩ :=
        bufferPendingProgress_same d frame
      refine h.of_shape (by rw [hstreams]) (hresults ▸ h.owned) (.of_futures (by rw [hresults]))
        (hresults ▸ hfin ▸ h.buffered) (hfin ▸ hfinished) (fun _ _ hs => hsubs ▸ hs) fun t => ?_
      by_cases ht : frame.taskId = t
      · subst ht
        exact (h.task _).buffer_self hsub hfresh hself rfl
      · exact (h.task t).buffer_ne ht (hp t ht) rfl
  | some s =>
    obtain ⟨st, hs, hst⟩ := h.subscribed _ _ hsub
    simp only [hs]
    cases hput : st.queue.putNowait (.progress frame) with
    | none =>
      refine h.of_shape rfl h.owned (.of_futures rfl) h.buffered hfinished (fun _ _ hs => hs)
        fun t => ?_
      by_cases ht : frame.taskId = t
      · subst ht
        exact .dropProgress h hsub hself rfl
      · refine (h.task t).frame (.of_same ⟨rfl, rfl⟩ rfl rfl ?_ fun _ _ _ hs => hs) (hp t ht) rfl
        rw [droppedOf_drop, if_neg ht, List.append_nil]
    | some queue =>
      refine h.of_shape (map_shape_set _ hs rfl) h.owned (.of_futures rfl) h.buffered hfinished
        (fun _ _ hs => hs) fun t => ?_
      by_cases ht : frame.taskId = t
      · subst ht
        exact .putProgress h hsub hs hst hput hself rfl
      · have hne : ({ st with queue } : SpawnStream).taskId ≠ t := fun he => ht (hst.symm.trans he)
        exact (h.task t).frame (.of_same ⟨rfl, rfl⟩ rfl rfl rfl fun _ _ hst' hs' =>
          getElem?_setStream hne hst' hs') (hp t ht) rfl

/-! ### The Result arrives -/

variable {cfg : DispatcherSettings E} {answer : ResultFrame}

theorem PendingMap.Tracked.deliver_ne {m : PendingMap TaskId ResultFrame E} {f : Registered TaskId}
    {fs : FutureState ResultFrame E} {settings : PendingSettings} {k : TaskId}
    {v : Except E ResultFrame} (ht : m.Tracked f fs) (ho : m.Owned) (hk : k ≠ f.key) :
    (m.deliver settings now k v).1.Tracked f fs := by
  cases fs with
  | waiting =>
    have hstep := ht.deliver settings now k v ho
    rwa [if_neg hk] at hstep
  | settled w => exact ht.of_later rfl later_deliver
  | cancelled => exact ht.of_later rfl later_deliver

theorem PendingMap.Tracked.deliver_self {m : PendingMap TaskId ResultFrame E}
    {f : Registered TaskId} {fs : FutureState ResultFrame E} (ht : m.Tracked f fs) (ho : m.Owned)
    (settings : PendingSettings) (now : ℕ) (v : Except E ResultFrame) :
    ∃ fs', (m.deliver settings now f.key v).1.Tracked f fs' ∧ fs'.done = true ∧
      (fs' = .settled v ∨ fs' = fs) := by
  cases fs with
  | waiting =>
    have hstep := ht.deliver settings now f.key v ho
    rw [if_pos rfl] at hstep
    exact ⟨_, hstep, rfl, .inl rfl⟩
  | settled w => exact ⟨_, ht.of_later rfl later_deliver, rfl, .inr rfl⟩
  | cancelled => exact ⟨_, ht.of_later rfl later_deliver, rfl, .inr rfl⟩

theorem Dispatcher.endSubscription_some (hsub : d.progressSubscribers.lookup answer.taskId = some s)
    (hs : d.streams[s]? = some st) : d.endSubscription answer =
      { d.unsubscribeProgress answer.taskId with
        streams := d.streams.set s { st with queue := st.queue.offer (.result answer) } } := by
  unfold endSubscription
  rw [hsub]
  dsimp only
  rw [List.modify_eq_set_getElem?, hs]
  rfl

/-- The Result goes to the end of the queue, and into the future unless that has been settled. -/
theorem SpawnStream.Running.result_arrives (hrun : st.Running events d s)
    (cfg : DispatcherSettings E)
    (howned : d.pendingResults.Owned) (hroom : st.queue.full = false) (ht : st.taskId = answer.taskId)
    (hsub : d'.progressSubscribers.lookup st.taskId = none)
    (hdropped : d'.droppedOf st.taskId = d.droppedOf st.taskId)
    (hresults : d'.pendingResults =
      (d.pendingResults.resolve cfg.results now answer.taskId answer).1) :
    SpawnStream.Ended (events ++ [(now, .result answer)]) d' s
      { st with queue := st.queue.offer (.result answer) } answer := by
  have hwaiting : SpawnStream.waiting { st with queue := st.queue.offer (.result answer) } =
      st.waiting := by
    rw [BoundedQueue.offer_of_room hroom]
    simp [SpawnStream.waiting, StreamItem.progress?]
  have harr : arrived st.taskId (events ++ [(now, StreamEvent.result answer)]) =
      arrived st.taskId events := arrived_append_of_none rfl
  obtain ⟨deadline, fs, htracked, hno⟩ := hrun.future
  refine ⟨hsub, ⟨d.droppedOf st.taskId, hdropped ▸ List.prefix_rfl, ?_⟩, ?_,
    .inl ⟨?_, .inl hrun.result⟩⟩
  · rw [SpawnStream.frames, hwaiting, harr]
    exact hrun.accounted
  · obtain ⟨fs', hfs', hdone, hval⟩ :=
      htracked.deliver_self howned cfg.results now (.ok answer)
    refine ⟨fs', ?_, hdone, fun v hv => ?_⟩
    · rw [hresults, PendingMap.resolve, ← ht]
      exact hfs'.state
    · obtain rfl | rfl := hval
      · exact ((Except.ok.inj (FutureState.settled.inj hv))).symm
      · exact absurd hv (hno v)
  · rw [hwaiting, ← hrun.items, BoundedQueue.offer_of_room hroom]

theorem Dispatcher.StreamInv.result (h : d.StreamInv events)
    (hroom : d.hasRoom answer.taskId = true)
    (hfound : (d.pendingResults.resolve cfg.results now answer.taskId answer).2.isSome = true) :
    (d.handleResult cfg now answer).StreamInv (events ++ [(now, .result answer)]) := by
  obtain ⟨found, hfound⟩ := Option.isSome_iff_exists.1 hfound
  have howned : (d.pendingResults.resolve cfg.results now answer.taskId answer).1.Owned :=
    h.owned.deliver
  have hlater : d.pendingResults.Later
      (d.pendingResults.resolve cfg.results now answer.taskId answer).1 := PendingMap.later_deliver
  have hself : (StreamEvent.result answer : StreamEvent E).resultOf answer.taskId = some answer :=
    if_pos rfl
  have hbuffered : ∀ t r n, (d.pendingResults.resolve cfg.results now answer.taskId
      answer).1.buffered.lookup t = some (.ok r, n) → t ∈ answer.taskId :: d.finished := by
    intro t r n hb
    obtain hb | ⟨-, hb⟩ := PendingMap.apply_buffered (show (d.pendingResults.apply cfg.results
      cfg.timedOut now (.resolve answer.taskId answer)).buffered.lookup t = some (.ok r, n) from hb)
    · exact List.mem_cons_of_mem _ (h.buffered t r n hb)
    · simp only [PendingOp.addressed, Option.ite_none_right_eq_some] at hb
      exact hb.1 ▸ List.mem_cons_self
  have hfinished : ∀ t, t ∈ answer.taskId :: d.finished ↔
      (firstResult t (events ++ [(now, StreamEvent.result answer)])).isSome = true := by
    intro t
    rw [firstResult_append, Option.isSome_or, Bool.or_eq_true, List.mem_cons, h.finished, or_comm]
    refine or_congr_right ?_
    by_cases ht : answer.taskId = t
    · simp [StreamEvent.resultOf, ht]
    · simp [StreamEvent.resultOf, ht, Ne.symm ht]
  have htracked : ∀ t, answer.taskId ≠ t → d.progressSubscribers.lookup t ≠ none →
      ∀ (fut deadline : ℕ) (fs : FutureState ResultFrame E),
      d.pendingResults.Tracked ⟨fut, t, deadline⟩ fs → (∀ v, fs ≠ .settled (.ok v)) →
      ∃ fs', (d.pendingResults.resolve cfg.results now answer.taskId answer).1.Tracked
        ⟨fut, t, deadline⟩ fs' ∧ ∀ v, fs' ≠ .settled (.ok v) :=
    fun t ht _ fut deadline fs htr hno => ⟨fs, htr.deliver_ne h.owned ht, hno⟩
  have herase : ∀ {V : Type} (tbl : Table TaskId V) t, answer.taskId ≠ t →
      (tbl.erase answer.taskId).lookup t = tbl.lookup t :=
    fun tbl t ht => AList.lookup_erase_ne (Ne.symm ht)
  unfold handleResult
  simp only [hfound]
  cases hsub : d.progressSubscribers.lookup answer.taskId with
  | none =>
    unfold endSubscription
    simp only [hsub]
    refine h.of_shape rfl howned hlater hbuffered hfinished (fun _ _ hs => hs) fun t => ?_
    by_cases ht : answer.taskId = t
    · subst ht
      refine ⟨fun hfresh => ?_, fun s st hs ht hleft => ?_⟩
      · exact absurd List.mem_cons_self (fresh_iff.1 hfresh).1
      · have hold := (h.task _).stream s st hs ht fun y hy => hleft y (List.mem_append_left _ hy)
        rw [firstResult_append]
        cases hev : firstResult answer.taskId events with
        | none =>
          rw [hev] at hold
          exact absurd (hsub.symm.trans (ht ▸ hold.subscribed)) (by simp)
        | some r =>
          rw [hev] at hold
          exact hold.mono (ht ▸ hsub) List.prefix_rfl hlater
            (arrived_append_of_none rfl) (List.subset_append_left _ _)
    · refine (h.task t).frame ⟨herase _ t ht, rfl, rfl, fun _ _ _ hs => hs,
        fun _ hf => List.mem_cons_of_mem _ hf, hlater, htracked t ht⟩ rfl (if_neg ht)
  | some s =>
    obtain ⟨st, hs, hst⟩ := h.subscribed _ _ hsub
    have hfull : st.queue.full = false := by
      rw [hasRoom, hsub] at hroom
      simpa [hs] using hroom
    rw [endSubscription_some (d := { d with
      pendingResults := (d.pendingResults.resolve cfg.results now answer.taskId answer).1
      finished := answer.taskId :: d.finished }) hsub hs]
    refine h.of_shape (map_shape_set _ hs rfl) howned hlater hbuffered hfinished ?_ fun t => ?_
    · intro t s' hs'
      change (d.progressSubscribers.erase answer.taskId).lookup t = some s' at hs'
      by_cases ht : answer.taskId = t
      · rw [ht, AList.lookup_erase] at hs'
        exact absurd hs' (by simp)
      · rwa [herase _ t ht] at hs'
    · by_cases ht : answer.taskId = t
      · subst ht
        refine ⟨fun hfresh => ?_, fun s' st' hs' ht' hleft => ?_⟩
        · exact absurd List.mem_cons_self (fresh_iff.1 hfresh).1
        · obtain ⟨st₁, hs₁, ht₁, -⟩ := getElem?_of_shape
            (map_shape_set { st with queue := st.queue.offer (.result answer) } hs rfl) hs'
          obtain rfl := h.alone s' s st₁ st hs₁ hs (ht₁.trans (ht'.trans hst.symm))
          obtain ⟨hlt, -⟩ := List.getElem?_eq_some_iff.1 hs
          have hget : (d.streams.set s' { st with queue := st.queue.offer (.result answer) })[s']? =
              some { st with queue := st.queue.offer (.result answer) } := List.getElem?_set_self hlt
          obtain rfl := Option.some.inj (hget.symm.trans hs')
          obtain ⟨hnone, hrun⟩ := h.running (hst ▸ hsub) hs fun y hy =>
            hleft y (List.mem_append_left _ hy)
          have hres : firstResult answer.taskId (events ++ [(now, StreamEvent.result answer)]) =
              some answer := by
            rw [hst] at hnone
            rw [firstResult_append, hself, hnone]
            rfl
          rw [hres]
          refine hrun.result_arrives cfg h.owned hfull hst ?_ ?_ ?_
          · rw [hst]
            exact AList.lookup_erase _ _
          · rfl
          · rfl
      · have hne : ({ st with queue := st.queue.offer (.result answer) } : SpawnStream).taskId ≠ t :=
          fun he => ht (hst.symm.trans he)
        exact (h.task t).frame ⟨herase _ t ht, herase _ t ht, rfl,
          fun _ _ hst' hs' => getElem?_setStream hne hst' hs',
          fun _ hf => List.mem_cons_of_mem _ hf, hlater, htracked t ht⟩ rfl (if_neg ht)

end

end Backplane
