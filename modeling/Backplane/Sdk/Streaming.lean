import Backplane.Sdk.Arrivals

/-!
# A stream yields its task's progress and ends with its Result

A stream takes over what waits in the buffer when it is opened, and gives it to its caller in order.

* `Dispatcher.StreamInv.apply` : one event preserves the invariant.
* `stream_complete` : every stream is complete, unless it is opened too late or twice, or its Result
  finds no room.
* `stream_hangs` : a Result that overtakes the caller leaves its iteration waiting for ever.
-/

namespace Backplane

open PendingMap

section

variable {E : Type} {d d' : Dispatcher E} {t t' : TaskId} {events : List (ℕ × StreamEvent E)}
  {x : ℕ × StreamEvent E} {s : ℕ} {st : SpawnStream} {reason : DropReason} {r : ResultFrame}
  {now : ℕ} {frame : ProgressFrame} {cfg : DispatcherSettings E}

/-! ### A stream is opened -/

variable {timeout : Option ℕ} {maxsize : ℕ}

/-- Putting Progress frames one after the other. -/
theorem putEach_progress (maxsize : ℕ) (early : List ProgressFrame) :
    ∃ put left, early = put ++ left ∧
      BoundedQueue.putEach ⟨maxsize, []⟩ (early.map StreamItem.progress) =
        (⟨maxsize, put.map StreamItem.progress⟩, left.map StreamItem.progress) := by
  obtain ⟨ys, hys, hqueue⟩ :=
    BoundedQueue.putEach_eq (α := StreamItem) ⟨maxsize, []⟩ (early.map StreamItem.progress)
  obtain ⟨put, left, hearly, hput, hleft⟩ := List.map_eq_append_iff.1 hys
  refine ⟨put, left, hearly, Prod.ext ?_ hleft.symm⟩
  rw [hqueue, ← hput]
  rfl

theorem filterMap_progress (l : List ProgressFrame) :
    (l.map StreamItem.progress).filterMap StreamItem.progress? = l := by
  rw [List.filterMap_map]
  exact List.filterMap_some

theorem getElem?_of_concat {l : List SpawnStream} {st₀ : SpawnStream}
    (hs : (l ++ [st₀])[s]? = some st) : l[s]? = some st ∨ s = l.length ∧ st = st₀ := by
  rw [List.getElem?_append] at hs
  split_ifs at hs with hlt
  · exact .inl hs
  · rw [List.getElem?_singleton] at hs
    split_ifs at hs with hz
    exact .inr ⟨by omega, (Option.some.inj hs).symm⟩

/-- What opening the stream of a fresh task leaves. -/
theorem Dispatcher.openSpawnStream_eq (cfg : DispatcherSettings E) (now : ℕ)
    (timeout : Option ℕ) (maxsize : ℕ) (hnone : d.progressSubscribers.lookup t = none) :
    ∃ put left, (d.pendingProgressBuffer.lookup t).getD [] = put ++ left ∧
      d.openSpawnStream cfg now t timeout maxsize =
        { d with
          progressSubscribers := d.progressSubscribers.assign t d.streams.length
          pendingProgressBuffer := d.pendingProgressBuffer.erase t
          dropped := d.dropped ++ left.map (ProgressDrop.mk t .drainSubscriberFull)
          pendingResults := (d.pendingResults.register cfg.results now t timeout).1
          streams := d.streams ++ [{
            taskId := t
            queue := ⟨maxsize, put.map StreamItem.progress⟩
            resultFut := d.pendingResults.futures.length }] } := by
  obtain ⟨put, left, hearly, hput⟩ :=
    putEach_progress maxsize ((d.pendingProgressBuffer.lookup t).getD [])
  refine ⟨put, left, hearly, ?_⟩
  have hdisplace : d.displace t = d := by rw [displace, hnone]
  simp only [openSpawnStream, subscribeProgress, hdisplace, hput, filterMap_progress, drop,
    (PendingMap.register_tracked cfg.results now d.pendingResults t timeout).1]

/-- The new stream has what was in the buffer. -/
theorem Dispatcher.TaskState.opened (cfg : DispatcherSettings E) (now : ℕ) (timeout : Option ℕ)
    (maxsize : ℕ) (h : d.StreamInv events) (hfresh : d.fresh t = true)
    (hp : x.2.progressOf t = none) (hr : x.2.resultOf t = none) :
    (d.openSpawnStream cfg now t timeout maxsize).TaskState (events ++ [x]) t := by
  obtain ⟨hnone, -, hno, hstreams⟩ := h.of_fresh hfresh
  have htask := (h.task t).early hfresh
  obtain ⟨put, left, hearly, heq⟩ := openSpawnStream_eq cfg now timeout maxsize hnone
  have htracked := (PendingMap.register_tracked cfg.results now d.pendingResults t timeout).2
  have hunanswered : firstResult t (events ++ [x]) = none := by
    rw [firstResult_append, hr, Option.or_none]
    exact Option.not_isSome_iff_eq_none.1 (mt (h.finished t).2 (fresh_iff.1 hfresh).1)
  rw [heq]
  refine ⟨fun hf => absurd rfl ((fresh_iff.1 hf).2 _ _ _ htracked.state), fun s st hs ht _ => ?_⟩
  rw [hunanswered]
  obtain hold | ⟨hlen, hnew⟩ := getElem?_of_concat hs
  · exact absurd ht (hstreams s st hold)
  · subst hlen hnew
    refine ⟨?_, AList.lookup_erase _ _, rfl, ?_, ?_, _, _, htracked, fun v hv => ?_⟩
    · exact Table.lookup_assign.trans (if_pos rfl)
    · exact congrArg (List.map StreamItem.progress) (filterMap_progress put).symm
    · have hdropped := droppedOf_drop d t t .drainSubscriberFull left
      rw [if_pos rfl] at hdropped
      change FramesAccounted _ ([] ++ (put.map StreamItem.progress).filterMap StreamItem.progress?)
        ((d.drop t .drainSubscriberFull left).droppedOf t)
      rw [filterMap_progress, List.nil_append, hdropped, arrived_append_of_none hp]
      exact FramesAccounted.discard (hearly ▸ htask) (by simp)
    · cases hb : d.pendingResults.buffered.lookup t with
      | none =>
        rw [hb] at hv
        exact absurd hv (by simp)
      | some y =>
        rw [hb] at hv
        exact hno v y.2 (hb.trans (congrArg some (Prod.ext (FutureState.settled.inj hv) rfl)))

theorem Dispatcher.StreamInv.opened (h : d.StreamInv events) (hfresh : d.fresh t = true)
    (hp : ∀ t, x.2.progressOf t = none) (hr : ∀ t, x.2.resultOf t = none) :
    (d.openSpawnStream cfg now t timeout maxsize).StreamInv (events ++ [x]) := by
  have hself := TaskState.opened cfg now timeout maxsize h hfresh (hp t) (hr t)
  obtain ⟨hnone, -, hno, hstreams⟩ := h.of_fresh hfresh
  obtain ⟨put, left, -, heq⟩ := openSpawnStream_eq cfg now timeout maxsize hnone
  have htracked := (PendingMap.register_tracked cfg.results now d.pendingResults t timeout).2
  have hlater : d.pendingResults.Later (d.pendingResults.register cfg.results now t timeout).1 :=
    PendingMap.later_register
  rw [heq] at hself ⊢
  generalize hst₀ : SpawnStream.mk t ⟨maxsize, put.map StreamItem.progress⟩
    d.pendingResults.futures.length none false false [] = st₀ at hself ⊢
  have ht₀ : st₀.taskId = t := hst₀ ▸ rfl
  have hcases : ∀ (s : ℕ) (st : SpawnStream), (d.streams ++ [st₀])[s]? = some st →
      d.streams[s]? = some st ∨ s = d.streams.length ∧ st = st₀ := fun _ _ => getElem?_of_concat
  refine ⟨h.owned.register, ?_, ?_, ?_, ?_, ?_, ?_⟩
  · intro t' r n hb
    exact h.buffered t' r n (PendingMap.buffered_of_register hb)
  · intro t'
    rw [firstResult_append, hr t', Option.or_none]
    exact h.finished t'
  · intro s st hs
    obtain hs | ⟨-, rfl⟩ := hcases s st hs
    · obtain ⟨fs, hfs⟩ := h.known s st hs
      obtain ⟨fs', hfs', -⟩ := hlater _ _ fs hfs
      exact ⟨fs', hfs'⟩
    · rw [← hst₀]
      exact ⟨_, htracked.state⟩
  · intro s s' st st' hs hs' htask
    obtain hold | ⟨hlen, hnew⟩ := hcases s st hs <;>
      obtain hold' | ⟨hlen', hnew'⟩ := hcases s' st' hs'
    · exact h.alone s s' st st' hold hold' htask
    · exact absurd (htask.trans (hnew' ▸ ht₀)) (hstreams s st hold)
    · exact absurd (htask.symm.trans (hnew ▸ ht₀)) (hstreams s' st' hold')
    · exact hlen.trans hlen'.symm
  · intro t' s hs
    change AList.lookup t' (d.progressSubscribers.assign t d.streams.length) = some s at hs
    rw [Table.lookup_assign] at hs
    split_ifs at hs with ht
    · obtain rfl := Option.some.inj hs
      exact ⟨st₀, by simp, ht₀.trans ht.symm⟩
    · obtain ⟨st, hst, hst'⟩ := h.subscribed t' s hs
      refine ⟨st, ?_, hst'⟩
      change (d.streams ++ [st₀])[s]? = some st
      rw [List.getElem?_append_left (List.getElem?_eq_some_iff.1 hst).1, hst]
  · intro t'
    by_cases ht : t = t'
    · exact ht ▸ hself
    · refine (h.task t').frame ⟨AList.lookup_erase_ne (Ne.symm ht),
        Table.lookup_assign.trans (if_neg (Ne.symm ht)), ?_, ?_, fun _ hf => hf, hlater, ?_⟩
        (hp t') (hr t')
      · have hdropped := droppedOf_drop d t' t .drainSubscriberFull left
        rwa [if_neg ht, List.append_nil] at hdropped
      · intro s st hst hs
        obtain hs | ⟨-, rfl⟩ := hcases s st hs
        · exact hs
        · exact absurd (ht₀.symm.trans hst) ht
      · exact fun _ fut deadline fs htr hv => ⟨fs, htr.register_ne (Ne.symm ht), hv⟩

/-! ### Something happens to the futures -/

theorem PendingMap.Tracked.other {m : PendingMap TaskId ResultFrame E} {f : Registered TaskId}
    {fs : FutureState ResultFrame E} {settings : PendingSettings} {timedOut : E}
    (ht : m.Tracked f fs) (ho : m.Owned) (hno : ∀ v, fs ≠ .settled (.ok v))
    (op : FutureOp TaskId E) :
    ∃ fs', (m.apply settings timedOut now op.toPendingOp).Tracked f fs' ∧
      ∀ v, fs' ≠ .settled (.ok v) := by
  have hdone : fs.done = true →
      ∃ fs', (m.apply settings timedOut now op.toPendingOp).Tracked f fs' ∧
        ∀ v, fs' ≠ .settled (.ok v) := fun hd => ⟨fs, ht.of_later hd later_apply, hno⟩
  cases fs with
  | waiting =>
    have ha : (op.toPendingOp : PendingOp TaskId ResultFrame E).allowed m = true := by
      cases op <;> rfl
    refine ⟨_, ht.apply settings timedOut now ho ha, fun v => ?_⟩
    cases op <;> simp only [FutureOp.toPendingOp, Registered.outcomeOf] <;> (try split) <;> simp
  | settled w => exact hdone rfl
  | cancelled => exact hdone rfl

/-- Only futures are concerned. -/
theorem Dispatcher.StreamInv.futures (h : d.StreamInv events)
    (hsame : d'.pendingProgressBuffer = d.pendingProgressBuffer ∧
      d'.progressSubscribers = d.progressSubscribers ∧ d'.streams = d.streams ∧
      d'.dropped = d.dropped ∧ d'.finished = d.finished)
    (howned : d'.pendingResults.Owned) (hlater : d.pendingResults.Later d'.pendingResults)
    (hbuffered : ∀ t r now, d'.pendingResults.buffered.lookup t = some (.ok r, now) →
      d.pendingResults.buffered.lookup t = some (.ok r, now))
    (htracked : ∀ t, d.progressSubscribers.lookup t ≠ none →
      ∀ (fut deadline : ℕ) (fs : FutureState ResultFrame E),
        d.pendingResults.Tracked ⟨fut, t, deadline⟩ fs → (∀ v, fs ≠ .settled (.ok v)) →
          ∃ fs', d'.pendingResults.Tracked ⟨fut, t, deadline⟩ fs' ∧ ∀ v, fs' ≠ .settled (.ok v))
    (hp : ∀ t, x.2.progressOf t = none) (hr : ∀ t, x.2.resultOf t = none) :
    d'.StreamInv (events ++ [x]) := by
  obtain ⟨hbuffer, hsub, hstreams, hdropped, hfin⟩ := hsame
  refine h.of_shape (by rw [hstreams]) howned hlater ?_ ?_ (fun _ _ hs => hsub ▸ hs) fun t => ?_
  · exact fun t r n hb => hfin ▸ h.buffered t r n (hbuffered t r n hb)
  · intro t
    rw [firstResult_append, hr t, Option.or_none, hfin]
    exact h.finished t
  · refine (h.task t).frame ⟨by rw [hbuffer], by rw [hsub], ?_, fun s st _ hs => hstreams ▸ hs,
      fun _ hf => hfin ▸ hf, hlater, htracked t⟩ (hp t) (hr t)
    rw [droppedOf, hdropped, droppedOf]

/-- Nothing is concerned. -/
theorem Dispatcher.StreamInv.idle (h : d.StreamInv events)
    (hsame : d'.pendingProgressBuffer = d.pendingProgressBuffer ∧
      d'.progressSubscribers = d.progressSubscribers ∧ d'.streams = d.streams ∧
      d'.dropped = d.dropped ∧ d'.finished = d.finished)
    (hresults : d'.pendingResults = d.pendingResults)
    (hp : ∀ t, x.2.progressOf t = none) (hr : ∀ t, x.2.resultOf t = none) :
    d'.StreamInv (events ++ [x]) :=
  h.futures hsame (hresults ▸ h.owned) (.of_futures (by rw [hresults]))
    (fun _ _ _ hb => hresults ▸ hb) (fun _ _ _ _ fs htr hno => ⟨fs, hresults ▸ htr, hno⟩) hp hr

theorem Dispatcher.StreamInv.otherResults (h : d.StreamInv events) {op : FutureOp TaskId E}
    (hp : ∀ t, x.2.progressOf t = none) (hr : ∀ t, x.2.resultOf t = none) :
    StreamInv (events ++ [x]) { d with
      pendingResults := d.pendingResults.apply cfg.results cfg.timedOut now op.toPendingOp } := by
  refine h.futures ⟨rfl, rfl, rfl, rfl, rfl⟩ h.owned.apply PendingMap.later_apply ?_ ?_ hp hr
  · intro t r n hb
    obtain hb | ⟨-, hb⟩ := PendingMap.apply_buffered hb
    · exact hb
    · cases op <;> simp [FutureOp.toPendingOp, PendingOp.addressed] at hb
  · exact fun t _ fut deadline fs htr hno => htr.other h.owned hno op

theorem Dispatcher.StreamInv.awaited (h : d.StreamInv events)
    (hsub : (d.progressSubscribers.lookup t).isNone = true)
    (hp : ∀ t, x.2.progressOf t = none) (hr : ∀ t, x.2.resultOf t = none) :
    StreamInv (events ++ [x]) { d with
      pendingResults := (d.pendingResults.register cfg.results now t timeout).1 } := by
  refine h.futures ⟨rfl, rfl, rfl, rfl, rfl⟩ h.owned.register PendingMap.later_register ?_ ?_ hp hr
  · exact fun t' r n hb => PendingMap.buffered_of_register hb
  · intro t' hopen fut deadline fs htr hno
    refine ⟨fs, htr.register_ne ?_, hno⟩
    rintro rfl
    exact hopen (Option.isNone_iff_eq_none.1 hsub)

/-! ### The caller acts on its stream -/

/-- Only one stream is concerned. -/
theorem Dispatcher.StreamInv.local (h : d.StreamInv events) (st' : SpawnStream)
    (hs : d.streams[s]? = some st) (hshape : st'.shape = st.shape)
    (hstreams : d'.streams = d.streams.set s st')
    (hsame : d'.pendingProgressBuffer = d.pendingProgressBuffer ∧ d'.dropped = d.dropped ∧
      d'.finished = d.finished)
    (hsub : ∀ t, d'.progressSubscribers.lookup t = d.progressSubscribers.lookup t ∨
      t = st.taskId ∧ d'.progressSubscribers.lookup t = none)
    (howned : d'.pendingResults.Owned) (hlater : d.pendingResults.Later d'.pendingResults)
    (hbuffered : d'.pendingResults.buffered = d.pendingResults.buffered)
    (htracked : ∀ t, t ≠ st.taskId → ∀ (fut deadline : ℕ) (fs : FutureState ResultFrame E),
      d.pendingResults.Tracked ⟨fut, t, deadline⟩ fs →
        d'.pendingResults.Tracked ⟨fut, t, deadline⟩ fs)
    (hp : ∀ t, x.2.progressOf t = none) (hr : ∀ t, x.2.resultOf t = none)
    (hstate : (∀ y ∈ events ++ [x], y.2.leaves s = false) →
      (st.Running events d s → st'.Running (events ++ [x]) d' s) ∧
        ∀ r, st.Ended events d s r → st'.Ended (events ++ [x]) d' s r) :
    d'.StreamInv (events ++ [x]) := by
  obtain ⟨hbuffer, hdropped, hfin⟩ := hsame
  obtain ⟨hlt, -⟩ := List.getElem?_eq_some_iff.1 hs
  have hmap : d'.streams.map SpawnStream.shape = d.streams.map SpawnStream.shape :=
    hstreams ▸ map_shape_set _ hs hshape
  have hdrops : ∀ t, d'.droppedOf t = d.droppedOf t := fun t => by
    rw [droppedOf, hdropped, droppedOf]
  have ht' : st'.taskId = st.taskId := congrArg Prod.fst hshape
  refine h.of_shape hmap howned hlater ?_ ?_ ?_ fun t => ?_
  · exact fun t r n hb => hfin ▸ h.buffered t r n (hbuffered ▸ hb)
  · intro t
    rw [firstResult_append, hr t, Option.or_none, hfin]
    exact h.finished t
  · intro t i hi
    obtain heq | ⟨-, hnone⟩ := hsub t
    · exact heq ▸ hi
    · exact absurd (hnone.symm.trans hi) (by simp)
  · by_cases ht : st.taskId = t
    · subst ht
      refine ⟨fun hfresh => ?_, fun s₁ st₁ hs₁ ht₁ hleft => ?_⟩
      · exact absurd rfl ((h.of_fresh (fresh_of_later (fun _ ht => hfin ▸ ht) hlater hfresh)).2.2.2 s
          st hs)
      · obtain ⟨st₂, hs₂, ht₂, -⟩ := getElem?_of_shape hmap hs₁
        obtain rfl := h.alone s₁ s st₂ st hs₂ hs (ht₂.trans ht₁)
        have hget : d'.streams[s₁]? = some st' := by rw [hstreams, List.getElem?_set_self hlt]
        obtain rfl := Option.some.inj (hget.symm.trans hs₁)
        have hold := (h.task _).stream s₁ st hs rfl fun y hy => hleft y (List.mem_append_left _ hy)
        rw [firstResult_append, hr, Option.or_none]
        cases hev : firstResult st.taskId events with
        | none =>
          rw [hev] at hold
          exact (hstate hleft).1 hold
        | some r =>
          rw [hev] at hold
          exact (hstate hleft).2 r hold
    · refine (h.task t).frame ⟨by rw [hbuffer], ?_, hdrops t, ?_, fun _ hf => hfin ▸ hf, hlater, ?_⟩
        (hp t) (hr t)
      · exact (hsub t).resolve_right fun hs => ht hs.1.symm
      · intro s₁ st₁ ht₁ hs₁
        exact getElem?_setStream (d := d) (fun he => ht (ht'.symm.trans he)) ht₁ (hstreams ▸ hs₁)
      · exact fun _ fut deadline fs htr hno => ⟨fs, htracked t (Ne.symm ht) _ _ _ htr, hno⟩

theorem SpawnStream.Running.local {st' : SpawnStream} (h : st.Running events d s)
    (hshape : st'.shape = st.shape) (hresult : st'.result = none)
    (hitems : st'.queue.items = st'.waiting.map StreamItem.progress)
    (hframes : st'.frames = st.frames)
    (hsame : d'.pendingProgressBuffer = d.pendingProgressBuffer ∧ d'.dropped = d.dropped ∧
      d'.pendingResults = d.pendingResults ∧
      d'.progressSubscribers = d.progressSubscribers) (hp : ∀ t, x.2.progressOf t = none) :
    st'.Running (events ++ [x]) d' s := by
  obtain ⟨hbuffer, hdropped, hresults, hsub⟩ := hsame
  obtain ⟨ht, hf⟩ := Prod.mk.inj hshape
  refine ⟨?_, ?_, hresult, hitems, ?_, ?_⟩
  · rw [ht, hsub, h.subscribed]
  · rw [ht, hbuffer, h.buffer]
  · rw [ht, hframes, arrived_append_of_none (hp _), Dispatcher.droppedOf, hdropped]
    exact h.accounted
  · rw [ht, hf, hresults]
    exact h.future

theorem SpawnStream.Ended.local {st' : SpawnStream} (h : st.Ended events d s r)
    (hshape : st'.shape = st.shape) (hframes : st'.frames = st.frames)
    (hdropped : d'.dropped = d.dropped) (hresults : d'.pendingResults = d.pendingResults)
    (hsub : d'.progressSubscribers.lookup st.taskId = none) (hp : ∀ t, x.2.progressOf t = none)
    (hphase : (st'.queue.items = st'.waiting.map StreamItem.progress ++ [.result r] ∧
        (st'.result = none ∨ st'.result = some r ∧ ∃ y ∈ events ++ [x], y.2.reads s = true)) ∨
      st'.queue.items = [] ∧ st'.result = some r ∧ st'.parked = false) :
    st'.Ended (events ++ [x]) d' s r := by
  obtain ⟨ht, hf⟩ := Prod.mk.inj hshape
  refine ⟨ht ▸ hsub, ?_, ?_, hphase⟩
  · rw [ht, hframes, arrived_append_of_none (hp _), Dispatcher.droppedOf, hdropped]
    exact h.accounted
  · rw [ht, hf, hresults]
    exact h.future

theorem set_self {l : List SpawnStream} (hs : l[s]? = some st) : l = l.set s st := by
  obtain ⟨hlt, rfl⟩ := List.getElem?_eq_some_iff.1 hs
  exact (List.set_getElem_self hlt).symm

theorem lookup_unsubscribeProgress (t : TaskId) :
    (d.unsubscribeProgress t').progressSubscribers.lookup t = d.progressSubscribers.lookup t ∨
      t = t' ∧ (d.unsubscribeProgress t').progressSubscribers.lookup t = none := by
  by_cases ht : t = t'
  · exact .inr ⟨ht, ht ▸ AList.lookup_erase _ _⟩
  · exact .inl (AList.lookup_erase_ne ht)

theorem Dispatcher.StreamInv.release (h : d.StreamInv events) (hx : x.2.leaves s = true)
    (hp : ∀ t, x.2.progressOf t = none) (hr : ∀ t, x.2.resultOf t = none) :
    (d.release s).StreamInv (events ++ [x]) := by
  unfold Dispatcher.release
  cases hs : d.streams[s]? with
  | none => exact h.idle ⟨rfl, rfl, rfl, rfl, rfl⟩ rfl hp hr
  | some st =>
    refine h.local st hs rfl (set_self hs) ⟨rfl, rfl, rfl⟩ lookup_unsubscribeProgress h.owned
      (.of_futures rfl) rfl (fun _ _ _ _ _ htr => htr) hp hr fun hleft => ?_
    exact absurd (hleft x (by simp)) (by simp [hx])

theorem Dispatcher.StreamInv.aclose (h : d.StreamInv events) (hx : x.2.leaves s = true)
    (hp : ∀ t, x.2.progressOf t = none) (hr : ∀ t, x.2.resultOf t = none) :
    (d.aclose s).StreamInv (events ++ [x]) := by
  unfold Dispatcher.aclose
  cases hs : d.streams[s]? with
  | none => exact h.idle ⟨rfl, rfl, rfl, rfl, rfl⟩ rfl hp hr
  | some st =>
    dsimp only
    split
    · exact h.idle ⟨rfl, rfl, rfl, rfl, rfl⟩ rfl hp hr
    · refine h.local { st with closed := true, queue := st.queue.offer .closed }
        hs rfl rfl ⟨rfl, rfl, rfl⟩ lookup_unsubscribeProgress ?_
        PendingMap.later_settle rfl ?_ hp hr fun hleft => ?_
      · exact h.owned.mono PendingMap.later_settle fun _ _ hk => hk
      · intro t ht fut deadline fs htr
        obtain ⟨fs₀, hfs₀⟩ := h.known s st hs
        have hne : fut ≠ st.resultFut := by
          rintro rfl
          exact ht (congrArg Prod.fst (Option.some.inj (htr.state.symm.trans hfs₀)))
        refine ⟨?_, htr.entry⟩
        rw [PendingMap.settle_futures, htr.state, Option.map_some, if_neg fun hi => hne hi.1]
      · exact absurd (hleft x (by simp)) (by simp [hx])

theorem Dispatcher.StreamInv.readResult (h : d.StreamInv events) (hx : x.2.reads s = true)
    (hp : ∀ t, x.2.progressOf t = none) (hr : ∀ t, x.2.resultOf t = none) :
    (d.readResult s).StreamInv (events ++ [x]) := by
  unfold Dispatcher.readResult
  cases hs : d.streams[s]? with
  | none => exact h.idle ⟨rfl, rfl, rfl, rfl, rfl⟩ rfl hp hr
  | some st =>
    dsimp only
    split
    · rename_i k frame hresult hfuture
      refine h.local { st with result := some frame }
        hs rfl rfl ⟨rfl, rfl, rfl⟩ lookup_unsubscribeProgress h.owned
        (.of_futures rfl) rfl (fun _ _ _ _ _ htr => htr) hp hr fun _ =>
          ⟨fun hrun => ?_, fun r hend => ?_⟩
      · -- before the Result the future has no value
        obtain ⟨deadline, fs, htr, hno⟩ := hrun.future
        have hfs := congrArg Prod.snd (Option.some.inj (htr.state.symm.trans hfuture))
        exact absurd hfs (hno frame)
      · obtain ⟨fs, hfs, -, hval⟩ := hend.future
        have hframe := hval frame (congrArg Prod.snd (Option.some.inj (hfs.symm.trans hfuture)))
        obtain ⟨hitems, -⟩ | ⟨-, hsome, -⟩ := hend.phase
        · refine hend.local rfl rfl rfl rfl (AList.lookup_erase _ _) hp
            (.inl ⟨hitems, .inr ⟨?_, x, ?_, hx⟩⟩)
          · exact congrArg some hframe
          · simp
        · exact absurd (hresult.symm.trans hsome) (by simp)
    · exact h.idle ⟨rfl, rfl, rfl, rfl, rfl⟩ rfl hp hr

theorem Dispatcher.StreamInv.next (h : d.StreamInv events)
    (hp : ∀ t, x.2.progressOf t = none) (hr : ∀ t, x.2.resultOf t = none) :
    (d.anext s).1.StreamInv (events ++ [x]) := by
  unfold anext
  cases hs : d.streams[s]? with
  | none => exact h.idle ⟨rfl, rfl, rfl, rfl, rfl⟩ rfl hp hr
  | some st =>
    dsimp only
    split
    · rename_i hstop
      obtain ⟨hsome, -⟩ := Bool.and_eq_true_iff.1 hstop
      refine h.local st hs rfl (set_self hs) ⟨rfl, rfl, rfl⟩ lookup_unsubscribeProgress h.owned
        (.of_futures rfl) rfl (fun _ _ _ _ _ htr => htr) hp hr fun _ =>
          ⟨fun hrun => ?_, fun r hend => ?_⟩
      · rw [hrun.result] at hsome
        exact absurd hsome (by simp)
      · refine hend.local rfl rfl rfl rfl (AList.lookup_erase _ _) hp (hend.phase.imp_left fun hq =>
          ⟨hq.1, hq.2.imp_right fun hread => ?_⟩)
        obtain ⟨y, hy, hread'⟩ := hread.2
        exact ⟨hread.1, y, List.mem_append_left _ hy, hread'⟩
    · rename_i hgo
      cases hitems : st.queue.items with
      | nil =>
        refine h.local { st with parked := true }
          hs rfl rfl ⟨rfl, rfl, rfl⟩ (fun _ => .inl rfl) h.owned
          (.of_futures rfl) rfl (fun _ _ _ _ _ htr => htr) hp hr fun _ =>
            ⟨fun hrun => ?_, fun r hend => ?_⟩
        · exact hrun.local rfl hrun.result hrun.items rfl ⟨rfl, rfl, rfl, rfl⟩ hp
        · obtain ⟨hq, -⟩ | ⟨-, hsome, hparked⟩ := hend.phase
          · exact absurd (hitems.symm.trans hq) (by simp)
          · simp [hsome, hparked] at hgo
      | cons item items =>
        cases item with
        | closed =>
          refine h.local { st with queue.items := items, parked := false }
            hs rfl rfl ⟨rfl, rfl, rfl⟩ (fun _ => .inl rfl) h.owned
            (.of_futures rfl) rfl (fun _ _ _ _ _ htr => htr) hp hr fun _ =>
              ⟨fun hrun => ?_, fun r hend => ?_⟩
          · have hmem : StreamItem.closed ∈ st.waiting.map StreamItem.progress := by
              rw [← hrun.items, hitems]
              exact List.mem_cons_self
            simp at hmem
          · obtain ⟨hq, -⟩ | ⟨hq, -, -⟩ := hend.phase
            · have hmem : StreamItem.closed ∈ st.waiting.map StreamItem.progress ++ [.result r] := by
                rw [← hq, hitems]
                exact List.mem_cons_self
              simp at hmem
            · exact absurd (hitems.symm.trans hq) (by simp)
        | result frame =>
          refine h.local { st with queue.items := items, parked := false, result := some frame }
            hs rfl rfl ⟨rfl, rfl, rfl⟩ lookup_unsubscribeProgress h.owned
            (.of_futures rfl) rfl (fun _ _ _ _ _ htr => htr) hp hr fun _ =>
              ⟨fun hrun => ?_, fun r hend => ?_⟩
          · have hmem : StreamItem.result frame ∈ st.waiting.map StreamItem.progress := by
              rw [← hrun.items, hitems]
              exact List.mem_cons_self
            simp at hmem
          · obtain ⟨hq, -⟩ | ⟨hq, -, -⟩ := hend.phase
            · -- the Result is the last item, so nothing else waits
              have hwaiting : st.waiting = [] := by
                cases hw : st.waiting with
                | nil => rfl
                | cons p ps =>
                  rw [hitems, hw] at hq
                  simp at hq
              rw [hitems, hwaiting] at hq
              obtain ⟨hframe, hrest⟩ := List.cons.inj hq
              refine hend.local rfl ?_ rfl rfl (AList.lookup_erase _ _) hp (.inr ⟨hrest, ?_, rfl⟩)
              · rw [SpawnStream.frames, SpawnStream.frames, hwaiting, SpawnStream.waiting, hrest]
                rfl
              · exact congrArg some (StreamItem.result.inj hframe)
            · exact absurd (hitems.symm.trans hq) (by simp)
        | progress frame =>
          have hwaiting : st.waiting = frame :: items.filterMap StreamItem.progress? := by
            rw [SpawnStream.waiting, hitems]
            rfl
          have hframes : st.yielded ++ [frame] ++ items.filterMap StreamItem.progress? =
              st.frames := by
            rw [SpawnStream.frames, hwaiting, List.append_assoc]
            rfl
          refine h.local
            { st with queue.items := items, parked := false, yielded := st.yielded ++ [frame] }
            hs rfl rfl ⟨rfl, rfl, rfl⟩ (fun _ => .inl rfl) h.owned
            (.of_futures rfl) rfl (fun _ _ _ _ _ htr => htr) hp hr fun _ =>
              ⟨fun hrun => ?_, fun r hend => ?_⟩
          · refine hrun.local rfl hrun.result ?_ hframes ⟨rfl, rfl, rfl, rfl⟩ hp
            have hq := hrun.items
            rw [hitems, hwaiting] at hq
            exact (List.cons.inj hq).2
          · obtain ⟨hq, hread⟩ | ⟨hq, -, -⟩ := hend.phase
            · rw [hitems, hwaiting] at hq
              refine hend.local rfl hframes rfl rfl hend.unsubscribed hp (.inl
                ⟨(List.cons.inj hq).2, hread.imp_right fun hread => ?_⟩)
              obtain ⟨y, hy, hread'⟩ := hread.2
              exact ⟨hread.1, y, List.mem_append_left _ hy, hread'⟩
            · exact absurd (hitems.symm.trans hq) (by simp)

/-! ### A whole run -/

variable [DecidableEq E]

theorem Dispatcher.StreamInv.resume {i : ℕ} (h : d.StreamInv events)
    (hc : (StreamEvent.resume i : StreamEvent E).careful cfg d now = true) :
    (d.resumeSpawn cfg now i).StreamInv (events ++ [(now, .resume i)]) := by
  have hp : ∀ t, (StreamEvent.resume i : StreamEvent E).progressOf t = none := fun _ => rfl
  have hr : ∀ t, (StreamEvent.resume i : StreamEvent E).resultOf t = none := fun _ => rfl
  unfold resumeSpawn
  simp only [StreamEvent.careful] at hc
  cases hres : d.resumption cfg i with
  | none => exact h.idle ⟨rfl, rfl, rfl, rfl, rfl⟩ rfl hp hr
  | some call =>
    obtain ⟨call, next⟩ := call
    rw [hres] at hc
    -- that the call goes on is no event of its own
    have hcall : StreamInv events
        { d with spawns := d.spawns.set i { call with resumed := true } } :=
      ⟨h.owned, h.buffered, h.finished, h.known, h.alone, h.subscribed, fun t =>
        ⟨fun hf => (h.task t).early hf, fun s st hs ht hleft => by
          have hold := (h.task t).stream s st hs ht hleft
          cases hev : firstResult t events with
          | none =>
            rw [hev] at hold
            exact ⟨hold.subscribed, hold.buffer, hold.result, hold.items, hold.accounted,
              hold.future⟩
          | some r =>
            rw [hev] at hold
            exact ⟨hold.unsubscribed, hold.accounted, hold.future, hold.phase⟩⟩⟩
    cases next with
    | raises exc => exact h.idle ⟨rfl, rfl, rfl, rfl, rfl⟩ rfl hp hr
    | returns t => exact h.idle ⟨rfl, rfl, rfl, rfl, rfl⟩ rfl hp hr
    | streams t => exact hcall.opened hc hp hr
    | awaits t => exact hcall.awaited hc hp hr

/-- **What one event preserves.** -/
theorem Dispatcher.StreamInv.apply {ev : StreamEvent E} (h : d.StreamInv events)
    (hc : ev.careful cfg d now = true) :
    (d.apply cfg now ev).StreamInv (events ++ [(now, ev)]) := by
  cases ev with
  | spawn c wait stream timeout =>
    unfold Dispatcher.apply Dispatcher.spawn
    dsimp only
    split
    · exact h.idle ⟨rfl, rfl, rfl, rfl, rfl⟩ rfl (fun _ => rfl) fun _ => rfl
    · exact h.idle ⟨rfl, rfl, rfl, rfl, rfl⟩ rfl (fun _ => rfl) fun _ => rfl
  | ack frame => exact h.idle ⟨rfl, rfl, rfl, rfl, rfl⟩ rfl (fun _ => rfl) fun _ => rfl
  | resume i => exact h.resume hc
  | openStream t timeout maxsize => exact h.opened hc (fun _ => rfl) fun _ => rfl
  | progress frame => exact h.progress
  | result frame =>
    obtain ⟨hroom, hfound⟩ := Bool.and_eq_true_iff.1 hc
    exact h.result hroom hfound
  | next s => exact h.next (fun _ => rfl) fun _ => rfl
  | readResult s => exact h.readResult (beq_self_eq_true s) (fun _ => rfl) fun _ => rfl
  | giveUp s => exact h.release (beq_self_eq_true s) (fun _ => rfl) fun _ => rfl
  | aclose s => exact h.aclose (beq_self_eq_true s) (fun _ => rfl) fun _ => rfl
  | del s => exact h.release (beq_self_eq_true s) (fun _ => rfl) fun _ => rfl
  | acks op => exact h.idle ⟨rfl, rfl, rfl, rfl, rfl⟩ rfl (fun _ => rfl) fun _ => rfl
  | results op => exact h.otherResults (fun _ => rfl) fun _ => rfl

theorem Dispatcher.careful_append {l₁ l₂ : List (ℕ × StreamEvent E)} :
    d.careful cfg (l₁ ++ l₂) = (d.careful cfg l₁ && (d.run cfg l₁).careful cfg l₂) := by
  induction l₁ generalizing d with
  | nil => rfl
  | cons x l₁ ih => rw [List.cons_append, careful, ih, careful, Bool.and_assoc]; rfl

theorem Dispatcher.run_append {l₁ l₂ : List (ℕ × StreamEvent E)} :
    d.run cfg (l₁ ++ l₂) = (d.run cfg l₁).run cfg l₂ := List.foldl_append

theorem Dispatcher.StreamInv.run (hc : Dispatcher.careful cfg {} events = true) :
    (Dispatcher.run cfg {} events).StreamInv events := by
  induction events using List.reverseRecOn with
  | nil =>
    refine ⟨fun k p hp => absurd hp (by simp [Dispatcher.run]), ?_, ?_, ?_, ?_, ?_, ?_⟩
    · exact fun t r n hb => absurd hb (by simp [Dispatcher.run])
    · exact fun t => by simp [Dispatcher.run, firstResult]
    · exact fun s st hs => absurd hs (by simp [Dispatcher.run])
    · exact fun s s' st st' hs => absurd hs (by simp [Dispatcher.run])
    · exact fun t s hs => absurd hs (by simp [Dispatcher.run])
    · refine fun t => ⟨fun _ => ⟨List.Sublist.refl _, List.Perm.refl _, by simp [Dispatcher.run,
        Dispatcher.droppedOf]⟩, fun s st hs => absurd hs (by simp [Dispatcher.run])⟩
  | append_singleton events x ih =>
    rw [Dispatcher.careful_append, Bool.and_eq_true_iff] at hc
    rw [Dispatcher.run_append]
    exact (ih hc.1).apply (Bool.and_eq_true_iff.1 hc.2).1

/-! ### Iterating to the end -/

omit [DecidableEq E] in
theorem Dispatcher.anext_stops {st : SpawnStream} (hs : d.streams[s]? = some st)
    (hresult : st.result = some r) (hparked : st.parked = false) :
    (d.anext s) = (d.unsubscribeProgress st.taskId, some .stops) := by
  simp [anext, hs, hresult, hparked]

omit [DecidableEq E] in
theorem Dispatcher.anext_result {st : SpawnStream} {items : List StreamItem}
    (hs : d.streams[s]? = some st) (hgo : (st.result.isSome && !st.parked) = false)
    (hitems : st.queue.items = .result r :: items) :
    (d.anext s) = ((d.setStream s { st with
      queue.items := items, parked := false, result := some r }).unsubscribeProgress st.taskId,
        some .stops) := by
  simp [anext, hs, hgo, hitems]

omit [DecidableEq E] in
theorem Dispatcher.anext_progress {st : SpawnStream} {items : List StreamItem}
    (hs : d.streams[s]? = some st) (hgo : (st.result.isSome && !st.parked) = false)
    (hitems : st.queue.items = .progress frame :: items) :
    (d.anext s) = (d.setStream s { st with
      queue.items := items, parked := false, yielded := st.yielded ++ [frame] },
        some (.yields frame)) := by
  simp [anext, hs, hgo, hitems]

omit [DecidableEq E] in
theorem Dispatcher.getElem?_setStream_self {st₀ : SpawnStream} (hs : d.streams[s]? = some st) :
    (d.setStream s st₀).streams[s]? = some st₀ :=
  List.getElem?_set_self (List.getElem?_eq_some_iff.1 hs).1

omit [DecidableEq E] in
theorem Dispatcher.iterate_of_stops {n : ℕ} (h : d.anext s = (d', some .stops)) :
    d.iterate (n + 1) s = (d', [], true) := by
  rw [iterate, h]

omit [DecidableEq E] in
theorem Dispatcher.iterate_of_yields {n : ℕ} {d'' : Dispatcher E} {rest : List ProgressFrame}
    {stopped : Bool} (h : d.anext s = (d', some (.yields frame)))
    (hrest : d'.iterate n s = (d'', rest, stopped)) :
    d.iterate (n + 1) s = (d'', frame :: rest, stopped) := by
  rw [iterate, h]
  simp only [hrest]

omit [DecidableEq E] in
/-- With the Result at the end of the queue, the iteration yields what is before it, and stops. -/
theorem Dispatcher.iterate_ends (hs : d.streams[s]? = some st) (hresult : st.result = none)
    {waiting : List ProgressFrame}
    (hitems : st.queue.items = waiting.map StreamItem.progress ++ [.result r]) :
    ∃ d' st', d.iterate (waiting.length + 1) s = (d', waiting, true) ∧
      d'.streams[s]? = some st' ∧ st'.result = some r := by
  have hgo : (st.result.isSome && !st.parked) = false := by rw [hresult]; rfl
  induction waiting generalizing d st with
  | nil =>
    let st₁ : SpawnStream := { st with queue.items := [], parked := false, result := some r }
    have hs₁ : (d.setStream s st₁).streams[s]? = some st₁ := getElem?_setStream_self hs
    exact ⟨_, st₁, iterate_of_stops (anext_result hs hgo hitems), hs₁, rfl⟩
  | cons p waiting ih =>
    let st₁ : SpawnStream := { st with
      queue.items := waiting.map StreamItem.progress ++ [.result r]
      parked := false
      yielded := st.yielded ++ [p] }
    have hs₁ : (d.setStream s st₁).streams[s]? = some st₁ := getElem?_setStream_self hs
    obtain ⟨d', st', hrest, hs', hresult'⟩ := ih hs₁ hresult rfl (by simp [st₁, hresult])
    exact ⟨d', st', iterate_of_yields (anext_progress hs hgo hitems) hrest, hs', hresult'⟩

omit [DecidableEq E] in
/-- With its result taken, the iteration stops after one frame at most. -/
theorem Dispatcher.iterate_taken (hs : d.streams[s]? = some st) (hresult : st.result = some r)
    (hitems : st.queue.items = st.waiting.map StreamItem.progress ++ [.result r] ∨
      st.queue.items = [] ∧ st.parked = false) :
    ∃ d' st' rest, d.iterate 2 s = (d', rest, true) ∧
      d'.streams[s]? = some st' ∧ st'.result = some r := by
  by_cases hparked : st.parked = false
  · exact ⟨_, st, [], iterate_of_stops (anext_stops hs hresult hparked), hs, hresult⟩
  · have hgo : (st.result.isSome && !st.parked) = false := by simp [hparked]
    obtain hitems := hitems.resolve_right fun h => hparked h.2
    cases hw : st.waiting with
    | nil =>
      rw [hw] at hitems
      let st₁ : SpawnStream := { st with queue.items := [], parked := false, result := some r }
      have hs₁ : (d.setStream s st₁).streams[s]? = some st₁ := getElem?_setStream_self hs
      exact ⟨_, st₁, [], iterate_of_stops (anext_result hs hgo hitems), hs₁, rfl⟩
    | cons p waiting =>
      rw [hw] at hitems
      let st₁ : SpawnStream := { st with
        queue.items := waiting.map StreamItem.progress ++ [.result r]
        parked := false
        yielded := st.yielded ++ [p] }
      have hs₁ : (d.setStream s st₁).streams[s]? = some st₁ := getElem?_setStream_self hs
      have hstop := iterate_of_stops (n := 0) (anext_stops hs₁ hresult rfl)
      exact ⟨_, st₁, [p], iterate_of_yields (anext_progress hs hgo hitems) hstop, hs₁, hresult⟩

/-- **Where each stream is opened before the Result of its task arrives, by the only one who waits
for the task, and the Result finds room**, every stream yields what arrives for its task and ends with
the Result. -/
theorem stream_complete (hc : Dispatcher.careful cfg {} events = true) :
    StreamComplete cfg events := by
  have hinv := Dispatcher.StreamInv.run hc
  refine ⟨fun s st hs hleft => ?_, fun s st r hs hleft hr => ?_, fun s st r hs hleft hr => ?_⟩
  · have hstate := (hinv.task st.taskId).stream s st hs rfl hleft
    cases hev : firstResult st.taskId events with
    | none =>
      rw [hev] at hstate
      exact ⟨_, List.prefix_rfl, hstate.accounted⟩
    | some r =>
      rw [hev] at hstate
      exact hstate.accounted
  · have hstate := (hinv.task st.taskId).stream s st hs rfl hleft
    rw [hr] at hstate
    obtain ⟨hitems, hnone | ⟨hsome, y, hy, hread⟩⟩ | ⟨hitems, hsome, hparked⟩ := hstate.phase
    · obtain ⟨d', st', hrest, hs', hresult⟩ := Dispatcher.iterate_ends hs hnone hitems
      exact ⟨_, d', st', st.waiting, hrest, hs', hresult, fun _ => rfl⟩
    · obtain ⟨d', st', rest, hrest, hs', hresult⟩ :=
        Dispatcher.iterate_taken hs hsome (.inl hitems)
      exact ⟨_, d', st', rest, hrest, hs', hresult, fun hno => absurd hread (by simp [hno y hy])⟩
    · refine ⟨1, _, st, [], Dispatcher.iterate_of_stops (Dispatcher.anext_stops hs hsome hparked), hs,
        hsome, fun _ => ?_⟩
      · rw [SpawnStream.waiting, hitems]
        rfl
  · have hstate := (hinv.task st.taskId).stream s st hs rfl hleft
    rw [hr] at hstate
    exact hstate.future

end

/-! ### A Result that overtakes the caller -/

namespace Sample

def streamSettings : DispatcherSettings String := ⟨pendingSettings, pendingSettings, "timeout"⟩

theorem no_reason : ∀ r ∈ (none : Option String), r.length ≤ ackReasonMax := by simp

def spawnAck : AckFrame := ⟨.router, "c", true, none, some "t", no_reason⟩

def childProgress (content : String) : ProgressFrame := ⟨.router, "t", "status", content, []⟩

def childResult : ResultFrame := ⟨.router, "t", none, .succeeded, 200, none, none⟩

/-- The Ack and the Result arrive together, and only then does the caller go on. -/
def resultOvertakes : List (ℕ × StreamEvent String) :=
  [(0, .spawn "c" true true none), (1, .ack spawnAck), (1, .progress (childProgress "a")),
    (1, .result childResult), (1, .resume 0)]

/-- The caller goes on before the Result, between two Progress frames. -/
def keptUp : List (ℕ × StreamEvent String) :=
  [(0, .spawn "c" true true none), (1, .ack spawnAck), (1, .progress (childProgress "a")),
    (1, .resume 0), (2, .next 0), (3, .progress (childProgress "b")), (4, .result childResult)]

end Sample

theorem stream_complete_in_time : StreamComplete Sample.streamSettings Sample.keptUp :=
  stream_complete (by decide +kernel)

/-- The iteration never stops, though the Result is in the future of the stream. -/
theorem stream_hangs : ¬ ∀ (cfg : DispatcherSettings String)
    (events : List (ℕ × StreamEvent String)), StreamComplete cfg events := by
  intro hall
  have hempty :
      ((Dispatcher.run Sample.streamSettings {} Sample.resultOvertakes).anext 0).2 = none := by
    decide +kernel
  have hstream : ((Dispatcher.run Sample.streamSettings {} Sample.resultOvertakes).streams[0]?).map
      SpawnStream.taskId = some "t" := by decide +kernel
  obtain ⟨st, hs, ht⟩ := Option.map_eq_some_iff.1 hstream
  obtain ⟨n, d, st', rest, hiterate, -⟩ :=
    (hall Sample.streamSettings Sample.resultOvertakes).ends 0 st Sample.childResult hs
      (by decide +kernel) (by rw [ht]; decide +kernel)
  cases n with
  | zero => simp [Dispatcher.iterate] at hiterate
  | succ n =>
    rw [Dispatcher.iterate] at hiterate
    generalize (Dispatcher.run Sample.streamSettings {} Sample.resultOvertakes).anext 0 = outcome
      at hempty hiterate
    obtain ⟨d', outcome⟩ := outcome
    obtain rfl : outcome = none := hempty
    simp at hiterate

end Backplane
