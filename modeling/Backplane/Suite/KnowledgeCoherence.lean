import Backplane.Suite.KnowledgeInvariant
import Backplane.Concur.Ownership

/-!
# The knowledge base is coherent

* `KbAct.orderly` : the condition on a step: nothing fails between the two statements of a pair, a
  hash that was looked for is still new, and what calls do to one document is done to its chunks in
  the same order.
* `kbWork` : what a call has pending.
* `knowledge_coherent` : the result, for every interleaving in which the steps are orderly.
* `knowledge_incoherent` : what happens without the condition.
-/

namespace Backplane.Knowledge

open Concur Prog Deferred

/-! ### The condition -/

/-- The two changes can be made in either order. -/
def Changes.commutes (v v' : Changes) : Bool :=
  (v.collection.isNone || v'.collection.isNone || v.collection = v'.collection) &&
  (v.title.isNone || v'.title.isNone || v.title = v'.title) &&
  (v.tags.isNone || v'.tags.isNone || v.tags = v'.tags)

/-- The chunks of a document may be stamped before this is done. -/
def Pending.agrees (d : DocId) (v : Changes) : Pending → Bool
  | insert d' _ m => d' ≠ d || v.apply m = m
  | stamp d' v' => d' ≠ d || v.commutes v'
  | erase _ => true

/-- The chunks of this document are yet to be inserted. -/
def Pending.isInsert (d : DocId) : Pending → Bool
  | insert d' _ _ => d' = d
  | _ => false

/-- **The condition on a step.**  Nothing fails or is interrupted between the two statements of a
pair; a document is stored only if none of its hash was since its call looked, and a call looks at
all of them; chunks are stamped in the order in which their document was changed, unless the order
does not matter, and are not deleted before they are there. -/
def KbAct.orderly : {β : Type} → KbAct β → KbEnv → KbStore → Bool
  | _, .scanDocs _ sha, e, s => e.fails || sha.isNone || s.docs.length ≤ scanLimit
  | _, .addDoc n _ _ sha256 _ _, e, s => e.fails || decide ((n, sha256) ∈ s.looked)
  | _, .addChunks .., e, _ => !e.fails
  | _, .updateChunks n d v, e, s => !e.fails && (earlier n s.pending).all fun x => x.2.agrees d v
  | _, .deleteChunks _ ds, e, s =>
    e.fails || s.pending.all fun x => ds.all fun d => !x.2.isInsert d
  | _, .deleteDocs .., e, _ => !e.fails
  | _, .strike n, e, s => !e.fails || (pendingOf n s.pending).isEmpty
  | _, _, _, _ => true

/-- The runs in which every step is orderly. -/
def orderlyRuns : Guard KbAct KbEnv KbStore KbCall (Option (Except Unit ℕ)) where
  start _ _ := True
  fire P _ _ a e := a.orderly e P.shared = true

theorem Changes.apply_comm {v v' : Changes} (h : v.commutes v' = true) (m : Meta) :
    v'.apply (v.apply m) = v.apply (v'.apply m) := by
  obtain ⟨⟨hc, ht⟩, hg⟩ := by simpa only [commutes, Bool.and_eq_true] using h
  have hfield {α : Type} [DecidableEq α] {x y : Option α}
      (h : (x.isNone || y.isNone || decide (x = y)) = true) (z : α) :
      y.getD (x.getD z) = x.getD (y.getD z) := by
    cases x <;> cases y <;> simp_all
  simp only [apply, hfield hc, hfield ht, hfield hg]

theorem Pending.onMeta_comm {x : Pending} {d : DocId} {v : Changes} (h : x.agrees d v = true)
    (o : Option Meta) :
    x.onMeta d ((Pending.stamp d v).onMeta d o) = (Pending.stamp d v).onMeta d (x.onMeta d o) := by
  rw [Changes.onMeta_stamp, Changes.onMeta_stamp]
  cases x with
  | insert d' parts m =>
    by_cases hd : d' = d
    · have hm : v.apply m = m := by simpa [agrees, hd] using h
      simp [onMeta, hd, hm]
    · simp [onMeta, hd]
  | stamp d' v' =>
    by_cases hd : d' = d
    · have hv : v.commutes v' = true := by simpa [agrees, hd] using h
      cases o with
      | none => simp [onMeta]
      | some m => simp [onMeta, hd, Changes.apply_comm hv]
    · simp [onMeta, hd]
  | erase => rfl

theorem Pending.inserts_iff {x : Pending} {d : DocId} : x.inserts d ↔ x.isInsert d = true := by
  cases x <;> simp [inserts, isInsert]

/-! ### What a call has pending -/

/-- How far a call has come. -/
inductive KbPhase
  | fresh
  /-- Call `n` has nothing pending. -/
  | calm (n : ℕ)
  /-- Call `n` has this pending. -/
  | half (n : ℕ) (p : Pending)
  /-- The second statement of a pair was not made. -/
  | broken

/-- The phase is one of call `n`. -/
def KbPhase.Of (n : ℕ) : KbPhase → Prop
  | fresh => False
  | calm m | half m _ => m = n
  | broken => True

/-- A call makes the second statement of a pair right after the first. -/
def kbWork : Discipline KbAct KbPhase where
  ok q a := match a with
    | .begin => q = .fresh
    | .scanDocs n _ | .addDoc n _ _ _ _ _ | .updateDoc n _ _ | .deleteChunks n _ => q = .calm n
    | .addChunks n d parts m => q = .half n (.insert d parts m)
    | .updateChunks n d v => q = .half n (.stamp d v)
    | .deleteDocs n ds => q = .half n (.erase ds)
    | .strike n => q.Of n
    | _ => True
  ans _ _ := True
  next q a b := match a, b with
    | .begin, n => .calm n
    | .addDoc n m _ _ _ parts, some d => .half n (.insert d parts m)
    | .updateDoc n d v, true => if v.stamps then .half n (.stamp d v) else q
    | .deleteChunks n ds, true => .half n (.erase ds)
    | .addChunks n .., b | .updateChunks n .., b | .deleteDocs n _, b =>
      if b then .calm n else .broken
    | .strike _, true => match q with
      | .half .. => .broken
      | q => q
    | _, _ => q

/-- A call that has nothing pending has nothing pending when it is done, or has made no second
statement and has raised. -/
def Paired (n : ℕ) {α : Type} (p : KbTask α) : Prop :=
  kbWork.Obeys (.calm n) p.run fun q r => match r with
    | .ok _ => q = .calm n
    | .error _ => q = .calm n ∨ q = .broken

section

variable {n : ℕ} {α β : Type}

theorem Paired.bind {p : KbTask α} {f : α → KbTask β} (hp : Paired n p)
    (hf : ∀ x, Paired n (f x)) : Paired n (p >>= f) := by
  refine Discipline.obeys_except_bind.2 (Discipline.Obeys.mono hp fun q r hr => ?_)
  cases r with
  | ok x =>
    obtain rfl : q = .calm n := hr
    exact hf x
  | error => exact hr

theorem paired_pure {x : α} : Paired n (pure x : KbTask α) := rfl

/-- A statement that starts no pair. -/
theorem paired_query {a : KbAct (Option α)} (hok : kbWork.ok (.calm n) a)
    (hnext : ∀ b, kbWork.next (.calm n) a b = .calm n) : Paired n (Fallible.query a) := by
  refine ⟨hok, fun b _ => ?_⟩
  rw [hnext]
  cases b with
  | none => exact .inl rfl
  | some x => exact rfl

theorem paired_write {a : KbAct Bool} (hok : kbWork.ok (.calm n) a)
    (hnext : ∀ b, kbWork.next (.calm n) a b = .calm n) : Paired n (Fallible.write a) := by
  refine ⟨hok, fun b _ => ?_⟩
  rw [hnext]
  cases b with
  | false => exact .inl rfl
  | true => exact rfl

theorem paired_storeDocument {m : Meta} {description sha256 sourceName : String}
    {parts : List String} : Paired n (storeDocument n m description sha256 sourceName parts) := by
  unfold Paired storeDocument
  rw [Fallible.run_query]
  refine ⟨rfl, fun b _ => ?_⟩
  cases b with
  | none => exact .inl rfl
  | some d =>
    refine ⟨rfl, fun b _ => ?_⟩
    cases b with
    | false => exact .inr rfl
    | true => exact rfl

theorem paired_modifyDoc {v : Changes} {d : DocId} : Paired n (modifyDoc n v d) := by
  unfold Paired modifyDoc
  rw [Fallible.run_write]
  refine ⟨rfl, fun b _ => ?_⟩
  cases b with
  | false => exact .inl rfl
  | true =>
    cases hv : v.stamps with
    | false =>
      have hnext : kbWork.next (.calm n) (.updateDoc n d v) true = .calm n :=
        if_neg (by simp [hv])
      rw [hnext]
      exact rfl
    | true =>
      have hnext : kbWork.next (.calm n) (.updateDoc n d v) true = .half n (.stamp d v) := if_pos hv
      rw [hnext]
      refine ⟨rfl, fun b _ => ?_⟩
      cases b with
      | false => exact .inr rfl
      | true => exact rfl

theorem paired_removeDocs {ds : List DocId} : Paired n (removeDocs n ds) := by
  unfold Paired removeDocs
  rw [Fallible.run_write]
  refine ⟨rfl, fun b _ => ?_⟩
  cases b with
  | false => exact .inl rfl
  | true =>
    refine ⟨rfl, fun b _ => ?_⟩
    cases b with
    | false => exact .inr rfl
    | true => exact rfl

theorem paired_modifyDocs {v : Changes} {ds : List DocId} : Paired n (modifyDocs n v ds) := by
  induction ds with
  | nil => exact paired_pure
  | cons d ds ih => exact paired_modifyDoc.bind fun _ => ih

theorem paired_runKbStore {cfg : KbConfig} {p : KbStoreCall} : Paired n (runKbStore cfg n p) := by
  refine (paired_query (a := .readBytes p.name) trivial fun _ => rfl).bind fun file => ?_
  refine (paired_query (a := .scanDocs n (some file.sha256)) rfl fun _ => rfl).bind fun docs => ?_
  split_ifs
  · exact paired_pure
  have htext : Paired n (textOf cfg p file) := by
    unfold textOf
    split_ifs
    · exact paired_pure
    · exact paired_query trivial fun _ => rfl
  refine htext.bind fun text => ?_
  split_ifs
  · exact paired_pure
  have hgen : Paired n (omitted p text) := by
    unfold omitted
    split_ifs
    · exact paired_query trivial fun _ => rfl
    · exact paired_pure
  refine hgen.bind fun gen => ?_
  exact (paired_write (a := .embedChunks (cfg.chunkMarkdown text)) trivial fun _ => rfl).bind fun _ => paired_storeDocument

theorem paired_task {cfg : KbConfig} (c : KbCall) : Paired n (c.task cfg n) := by
  cases c with
  | store p => exact paired_runKbStore.bind fun _ => paired_pure
  | modify title collection v =>
    refine (paired_query (a := .scanDocs n none) rfl fun _ => rfl).bind fun docs => ?_
    exact paired_modifyDocs.bind fun _ => paired_pure
  | remove title collection =>
    refine (paired_query (a := .scanDocs n none) rfl fun _ => rfl).bind fun docs => ?_
    dsimp only
    split_ifs
    · exact paired_pure
    · exact paired_removeDocs.bind fun _ => paired_pure

theorem kbWork_of {q : KbPhase} {a : KbAct β} {b : β} (hq : q.Of n) (hok : kbWork.ok q a) :
    (kbWork.next q a b).Of n := by
  cases a with
  | begin =>
    obtain rfl : q = .fresh := hok
    exact hq.elim
  | addDoc =>
    obtain rfl := hok
    cases b <;> exact hq
  | updateDoc m d v =>
    obtain rfl := hok
    cases b with
    | false => exact hq
    | true =>
      change (if v.stamps then KbPhase.half m (.stamp d v) else .calm m).Of n
      split_ifs <;> exact hq
  | deleteChunks =>
    obtain rfl := hok
    cases b <;> exact hq
  | addChunks =>
    obtain rfl := hok
    cases b <;> first | exact hq | trivial
  | updateChunks =>
    obtain rfl := hok
    cases b <;> first | exact hq | trivial
  | deleteDocs =>
    obtain rfl := hok
    cases b <;> first | exact hq | trivial
  | strike =>
    cases b with
    | false => exact hq
    | true => cases q <;> first | exact hq | trivial
  | _ => exact hq

/-- A call that is done has nothing pending, unless it has made no second statement. -/
theorem kbWork_body (cfg : KbConfig) (c : KbCall) :
    kbWork.Obeys .fresh ((knowledgeBase cfg).body c) fun q _ =>
      (∃ n, q = .calm n) ∨ q = .broken := by
  refine Discipline.obeys_perform_bind.2 ⟨rfl, fun n _ => ?_⟩
  refine Discipline.Obeys.mono (Discipline.Obeys.interruptible_in (I := KbPhase.Of n)
    (fun q hq => ⟨hq, rfl⟩) (fun _ _ _ => kbWork_of) rfl (paired_task c)) fun q r hr => ?_
  cases r with
  | some x =>
    have hx := hr.1 x rfl
    cases x with
    | ok => exact .inl ⟨n, hx⟩
    | error => exact hx.imp_left fun h => ⟨n, h⟩
  | none =>
    obtain ⟨q', hq', rfl⟩ := hr.2 rfl
    cases q' with
    | fresh => exact hq'.elim
    | calm m => exact .inl ⟨m, rfl⟩
    | half => exact .inr rfl
    | broken => exact .inr rfl

end

/-! ### Every step -/

/-- Numbers are given to calls. -/
def kbMaking : Making KbAct KbStore where
  makes x := match x with
    | ⟨.begin, n⟩ => some n
    | _ => none
  count s := s.calls

/-- The number, and what a call has pending under it. -/
def KbPhase.Holds (s : KbStore) : KbPhase → Prop
  | fresh => True
  | calm n => pendingOf n s.pending = []
  | half n p => pendingOf n s.pending = [(n, p)]
  | broken => False

/-- The number of a call. -/
def KbPhase.number : KbPhase → Option ℕ
  | calm n | half n _ => some n
  | fresh | broken => none

/-- The call whose step it is. -/
def KbAct.own {β : Type} : KbAct β → Option ℕ
  | addDoc n .. | addChunks n .. | updateDoc n .. | updateChunks n .. | deleteChunks n _
  | deleteDocs n _ => some n
  | _ => none

/-- What the coroutine `i` knows. -/
structure KbPhase.Knows (i : ℕ) (q : KbPhase) (s : KbStore) (log : Log KbAct) : Prop where
  holds : q.Holds s
  own : ∀ n, q.number = some n → kbMaking.Owns log i n
  /-- It has no other. -/
  only : ∀ n, kbMaking.Owns log i n → q = .broken ∨ q.number = some n

/-- The invariant, and that numbers belong to coroutines. -/
structure KbWorld (s : KbStore) (log : Log KbAct) : Prop where
  /-- What is pending makes up for the difference between the tables. -/
  inv : KbInv s
  /-- Numbers belong to coroutines. -/
  owners : kbMaking.Owners s log
  /-- What is pending is some coroutine's. -/
  owned : ∀ x ∈ s.pending, ∃ i, kbMaking.Owns log i x.1

section

variable {s s' : KbStore} {e : KbEnv} {β : Type} {a : KbAct β} {b : β} {q : KbPhase}
  {log : Log KbAct} {i n m : ℕ}

theorem KbAct.answer_eq {α : Type} {v : α} {r : Option α} {t : KbStore}
    (h : KbAct.answer e s t v = some (s', r)) :
    e.fails = true ∧ s' = s ∧ r = none ∨ e.fails = false ∧ s' = t ∧ r = some v := by
  unfold answer at h
  split at h <;> cases h
  · exact .inl ⟨‹_›, rfl, rfl⟩
  · exact .inr ⟨by simpa using ‹¬ e.fails = true›, rfl, rfl⟩

theorem KbAct.write_eq {r : Bool} {t : KbStore} (h : KbAct.write e s t = some (s', r)) :
    e.fails = true ∧ s' = s ∧ r = false ∨ e.fails = false ∧ s' = t ∧ r = true := by
  unfold write at h
  split at h <;> cases h
  · exact .inl ⟨‹_›, rfl, rfl⟩
  · exact .inr ⟨by simpa using ‹¬ e.fails = true›, rfl, rfl⟩

/-- A step leaves what others have pending. -/
theorem KbAct.exec_pendingOf (he : a.exec e s = some (s', b)) (hm : a.own ≠ some m) :
    pendingOf m s'.pending = pendingOf m s.pending := by
  have hsnoc {n : ℕ} {p : Pending} (hn : n ≠ m) :
      pendingOf m (s.pending ++ [(n, p)]) = pendingOf m s.pending := by
    rw [pendingOf_append]
    simp [pendingOf, hn]
  cases a with
  | begin => cases he; rfl
  | readBytes | toMarkdown | generateMetadata =>
    obtain ⟨-, rfl, -⟩ | ⟨-, rfl, -⟩ := answer_eq he <;> rfl
  | embedChunks =>
    obtain ⟨-, rfl, -⟩ | ⟨-, rfl, -⟩ := write_eq he <;> rfl
  | scanDocs n sha =>
    obtain ⟨-, rfl, -⟩ | ⟨-, rfl, -⟩ := answer_eq he
    · rfl
    · unfold KbStore.look
      split
      · split_ifs <;> rfl
      · rfl
  | addDoc n =>
    simp only [exec] at he
    split at he
    · cases he
    · obtain ⟨-, rfl, -⟩ | ⟨-, rfl, -⟩ := answer_eq he
      · rfl
      · exact hsnoc fun h => hm (congrArg some h)
  | updateDoc n d v =>
    obtain ⟨-, rfl, -⟩ | ⟨-, rfl, -⟩ := write_eq he
    · rfl
    · simp only [KbStore.updateDoc]
      split_ifs
      · exact hsnoc fun h => hm (congrArg some h)
      · rfl
  | deleteChunks n =>
    obtain ⟨-, rfl, -⟩ | ⟨-, rfl, -⟩ := write_eq he
    · rfl
    · exact hsnoc fun h => hm (congrArg some h)
  | addChunks n | updateChunks n | deleteDocs n =>
    obtain ⟨-, rfl, -⟩ | ⟨-, rfl, -⟩ := write_eq he
    · rfl
    · exact pendingOf_without fun h => hm (congrArg some h.symm)
  | strike => cases he; rfl

/-- What is pending was, or is the pair that the call begins. -/
theorem KbAct.exec_pending (he : a.exec e s = some (s', b)) {x : ℕ × Pending}
    (hx : x ∈ s'.pending) : x ∈ s.pending ∨ a.own = some x.1 := by
  by_cases hown : a.own = some x.1
  · exact .inr hown
  · have hmem : x ∈ pendingOf x.1 s'.pending := List.mem_filter.2 ⟨hx, by simp⟩
    rw [exec_pendingOf he hown] at hmem
    exact .inl (List.mem_filter.1 hmem).1

theorem KbAct.exec_calls (he : a.exec e s = some (s', b)) :
    kbMaking.count s ≤ kbMaking.count s' ∧ ∀ n, kbMaking.makes ⟨a, b⟩ = some n →
      n = kbMaking.count s ∧ n < kbMaking.count s' := by
  have hcount : kbMaking.count s' = kbMaking.count s ∨
      kbMaking.makes ⟨a, b⟩ = some s.calls ∧ kbMaking.count s' = s.calls + 1 := by
    cases a with
    | begin => cases he; exact .inr ⟨rfl, rfl⟩
    | readBytes | toMarkdown | generateMetadata =>
      obtain ⟨-, rfl, -⟩ | ⟨-, rfl, -⟩ := answer_eq he <;> exact .inl rfl
    | scanDocs n sha =>
      obtain ⟨-, rfl, -⟩ | ⟨-, rfl, -⟩ := answer_eq he
      · exact .inl rfl
      · unfold KbStore.look
        split
        · split_ifs <;> exact .inl rfl
        · exact .inl rfl
    | addDoc =>
      simp only [exec] at he
      split at he
      · cases he
      · obtain ⟨-, rfl, -⟩ | ⟨-, rfl, -⟩ := answer_eq he <;> exact .inl rfl
    | strike => cases he; exact .inl rfl
    | _ => obtain ⟨-, rfl, -⟩ | ⟨-, rfl, -⟩ := write_eq he <;> exact .inl rfl
  refine ⟨?_, fun n hn => ?_⟩
  · obtain h | ⟨-, h⟩ := hcount
    · exact Nat.le_of_eq h.symm
    · exact h ▸ Nat.le_succ _
  · cases a with
    | begin =>
      cases he
      obtain rfl := Option.some.inj hn
      exact ⟨rfl, Nat.lt_succ_self _⟩
    | _ => cases hn

/-- An orderly step keeps the invariant, and what the call knows comes true. -/
theorem KbInv.exec (h : KbInv s) (hq : q.Holds s) (hok : kbWork.ok q a)
    (hn : q = .fresh → pendingOf s.calls s.pending = []) (hg : a.orderly e s = true)
    (he : a.exec e s = some (s', b)) : KbInv s' ∧ (kbWork.next q a b).Holds s' := by
  have hsnoc {n : ℕ} {p : Pending} (hcalm : pendingOf n s.pending = []) :
      pendingOf n (s.pending ++ [(n, p)]) = [(n, p)] := by
    rw [pendingOf_append, hcalm]
    simp [pendingOf]
  cases a with
  | begin =>
    obtain rfl : q = .fresh := hok
    cases he
    exact ⟨⟨h.ids, h.hashes, h.looked, h.used, h.named, h.first, h.gone, h.closed, h.blank,
      h.synced⟩, hn rfl⟩
  | readBytes | toMarkdown | generateMetadata =>
    obtain ⟨-, rfl, rfl⟩ | ⟨-, rfl, rfl⟩ := KbAct.answer_eq he <;> exact ⟨h, hq⟩
  | embedChunks =>
    obtain ⟨-, rfl, rfl⟩ | ⟨-, rfl, rfl⟩ := KbAct.write_eq he <;> exact ⟨h, hq⟩
  | scanDocs n sha =>
    obtain rfl : q = .calm n := hok
    obtain ⟨-, rfl, rfl⟩ | ⟨hf, rfl, rfl⟩ := KbAct.answer_eq he
    · exact ⟨h, hq⟩
    · refine ⟨h.look fun hsome => ?_, (KbAct.exec_pendingOf he (by simp [KbAct.own])).trans hq⟩
      simp only [KbAct.orderly, hf, Bool.false_or, Bool.or_eq_true, decide_eq_true_eq] at hg
      exact hg.resolve_left fun hnone => by cases sha <;> simp_all
  | addDoc n m description sha256 sourceName parts =>
    obtain rfl : q = .calm n := hok
    simp only [KbAct.exec] at he
    split at he
    · cases he
    · rename_i hid
      obtain ⟨-, rfl, rfl⟩ | ⟨hf, rfl, rfl⟩ := KbAct.answer_eq he
      · exact ⟨h, hq⟩
      · simp only [KbAct.orderly, hf, Bool.false_or, decide_eq_true_eq] at hg
        exact ⟨h.addDoc hid (h.looked _ hg), hsnoc hq⟩
  | addChunks n d parts m =>
    obtain rfl : q = .half n (.insert d parts m) := hok
    obtain ⟨hf, -⟩ | ⟨-, rfl, rfl⟩ := KbAct.write_eq he
    · simp [KbAct.orderly, hf] at hg
    · exact ⟨h.addChunks hq, pendingOf_without_self⟩
  | updateDoc n d v =>
    obtain rfl : q = .calm n := hok
    obtain ⟨-, rfl, rfl⟩ | ⟨-, rfl, rfl⟩ := KbAct.write_eq he
    · exact ⟨h, hq⟩
    · refine ⟨h.updateDoc, ?_⟩
      change (if v.stamps then KbPhase.half n (.stamp d v) else .calm n).Holds _
      split_ifs with hv
      · simp only [KbPhase.Holds, KbStore.updateDoc, if_pos hv]
        exact hsnoc hq
      · simp only [KbPhase.Holds, KbStore.updateDoc, if_neg hv]
        exact hq
  | updateChunks n d v =>
    obtain rfl : q = .half n (.stamp d v) := hok
    obtain ⟨hf, -⟩ | ⟨-, rfl, rfl⟩ := KbAct.write_eq he
    · simp [KbAct.orderly, hf] at hg
    · simp only [KbAct.orderly, Bool.and_eq_true, List.all_eq_true] at hg
      exact ⟨h.updateChunks hq fun x hx => Pending.onMeta_comm (hg.2 x hx), pendingOf_without_self⟩
  | deleteChunks n ds =>
    obtain rfl : q = .calm n := hok
    obtain ⟨-, rfl, rfl⟩ | ⟨hf, rfl, rfl⟩ := KbAct.write_eq he
    · exact ⟨h, hq⟩
    · simp only [KbAct.orderly, hf, Bool.false_or, List.all_eq_true, Bool.not_eq_true'] at hg
      refine ⟨h.deleteChunks fun x hx d hd hi => ?_, hsnoc hq⟩
      rw [Pending.inserts_iff, hg x hx d hd] at hi
      cases hi
  | deleteDocs n ds =>
    obtain rfl : q = .half n (.erase ds) := hok
    obtain ⟨hf, -⟩ | ⟨-, rfl, rfl⟩ := KbAct.write_eq he
    · simp [KbAct.orderly, hf] at hg
    · exact ⟨h.deleteDocs hq, pendingOf_without_self⟩
  | strike n =>
    obtain ⟨rfl, hb⟩ := Prod.mk.inj (Option.some.inj he)
    refine ⟨h, ?_⟩
    cases b with
    | false => exact hq
    | true =>
      simp only [KbAct.orderly, hb, Bool.not_true, Bool.false_or, List.isEmpty_iff] at hg
      cases q with
      | fresh => exact hok.elim
      | calm m => exact hq
      | half m p =>
        -- A call that has something pending is not struck.
        obtain rfl : m = n := hok
        rw [KbPhase.Holds, hg] at hq
        cases hq
      | broken => exact hq

theorem kbWork_own (hok : kbWork.ok q a) (ho : a.own = some n) : q.number = some n := by
  cases a with
  | addDoc | addChunks | updateDoc | updateChunks | deleteChunks | deleteDocs =>
    cases ho
    obtain rfl : q = _ := hok
    rfl
  | _ => cases ho

/-- What a call knows stays true while others move. -/
theorem KbPhase.Holds.frame (h : q.Holds s) (he : a.exec e s = some (s', b))
    (hown : ∀ n, q.number = some n → a.own ≠ some n) : q.Holds s' := by
  cases q with
  | calm n => exact (KbAct.exec_pendingOf he (hown n rfl)).trans h
  | half n => exact (KbAct.exec_pendingOf he (hown n rfl)).trans h
  | _ => exact h

/-- A step leaves a call its number, or gives it one. -/
theorem kbWork_number (hok : kbWork.ok q a) : kbWork.next q a b = .broken ∨
    (kbWork.next q a b).number = (kbMaking.makes ⟨a, b⟩).or q.number := by
  cases a with
  | begin => exact .inr rfl
  | addDoc =>
    obtain rfl := hok
    cases b <;> exact .inr rfl
  | updateDoc n d v =>
    obtain rfl := hok
    cases b with
    | false => exact .inr rfl
    | true =>
      right
      change (if v.stamps then KbPhase.half n (.stamp d v) else .calm n).number = _
      split_ifs <;> rfl
  | deleteChunks =>
    obtain rfl := hok
    cases b <;> exact .inr rfl
  | addChunks | updateChunks | deleteDocs =>
    obtain rfl := hok
    cases b
    · exact .inl rfl
    · exact .inr rfl
  | strike =>
    cases b with
    | false => exact .inr rfl
    | true => cases q <;> first | exact .inr rfl | exact .inl rfl
  | _ => exact .inr rfl

theorem KbPhase.Knows.next (h : q.Knows i s log) (hok : kbWork.ok q a)
    (hq : (kbWork.next q a b).Holds s') :
    (kbWork.next q a b).Knows i s' (log ++ [(i, ⟨a, b⟩)]) := by
  have hnot : kbWork.next q a b ≠ .broken := fun hb => by rw [hb] at hq; exact hq
  have hnumber := (kbWork_number hok (b := b)).resolve_left hnot
  have hfresh (n : ℕ) (hn : kbMaking.makes ⟨a, b⟩ = some n) : q = .fresh := by
    cases a with
    | begin => exact hok
    | _ => cases hn
  refine ⟨hq, fun n hn => ?_, fun n hn => .inr ?_⟩
  · rw [hnumber] at hn
    cases hmake : kbMaking.makes ⟨a, b⟩ with
    | none =>
      rw [hmake] at hn
      exact (h.own n hn).append
    | some m =>
      rw [hmake] at hn
      exact .of_makes (hmake.trans hn)
  · rw [hnumber]
    obtain hn | ⟨-, hn⟩ := Making.owns_snoc hn
    · obtain rfl | hn := h.only n hn
      · exact h.holds.elim
      · cases hmake : kbMaking.makes ⟨a, b⟩ with
        | none => exact hn
        | some m =>
          rw [hfresh m hmake] at hn
          cases hn
    · rw [hn]
      rfl

end

theorem knowledge_sound (cfg : KbConfig) :
    Sound (knowledgeBase cfg) orderlyRuns kbWork (fun _ => .fresh) {} KbWorld
      (fun i _ q => q.Knows i) where
  init := ⟨KbInv.empty, .init, fun _ hx => absurd hx List.not_mem_nil⟩
  start {P c} hrun _ _ := by
    refine ⟨trivial, (by rintro n ⟨⟩), fun n hn => ?_⟩
    -- A coroutine that has not moved has begun no call.
    obtain ⟨x, hx, -⟩ := hn
    have := hrun.log_lt _ hx
    exact absurd this (Nat.lt_irrefl _)
  step {P i c β a k e s b q} _ _ hg he hw hk hok := by
    have hnew (_ : q = .fresh) : pendingOf P.shared.calls P.shared.pending = [] := by
      refine List.filter_eq_nil_iff.2 fun x hx hn => ?_
      obtain ⟨j, hj⟩ := hw.owned x hx
      have hlt := hw.owners.made j x.1 hj
      simp only [decide_eq_true_eq] at hn
      rw [hn] at hlt
      exact absurd hlt (Nat.lt_irrefl _)
    obtain ⟨hinv, hq⟩ := hw.inv.exec hk.holds hok hnew hg he
    obtain ⟨hle, hmake⟩ := KbAct.exec_calls he
    refine ⟨trivial, ⟨hinv, hw.owners.exec hle hmake _, fun x hx => ?_⟩, hk.next hok hq⟩
    obtain hx | hown := KbAct.exec_pending he hx
    · exact (hw.owned x hx).imp fun j hj => hj.append
    · exact ⟨i, (hk.own x.1 (kbWork_own hok hown)).append⟩
  frame {P i c β a k e s b q} _ _ _ he hw hk hok {j c' q'} hj hk' := by
    refine ⟨hk'.holds.frame he fun n hn ho => ?_, fun n hn => (hk'.own n hn).append,
      fun n hn => hk'.only n ?_⟩
    · exact hj (hw.owners.one _ _ n (hk'.own n hn) (hk.own n (kbWork_own hok ho)))
    · obtain hn | ⟨heq, -⟩ := Making.owns_snoc hn
      · exact hn
      · exact absurd heq hj

/-- **The knowledge base is coherent.**  In every interleaving of calls in which every step is
orderly, whenever no call is running no two documents have the same hash, every document has all of
its chunks, every chunk belongs to a document, and repeats its collection, title and tags. -/
theorem knowledge_coherent {cfg : KbConfig} {P : Pool KbAct KbStore KbCall (Option (Except Unit ℕ))}
    (h : Run (knowledgeBase cfg) orderlyRuns (.init {}) P)
    (hidle : ∀ th ∈ P.threads, th.prog.Finished) : Coherent P.shared := by
  obtain ⟨hw, hthreads⟩ := (knowledge_sound cfg).of_run (kbWork_body cfg) h
  refine hw.inv.coherent (List.eq_nil_iff_forall_not_mem.2 fun x hx => ?_)
  obtain ⟨i, hi⟩ := hw.owned x hx
  have hlt : i < P.threads.length := by
    obtain ⟨y, hy, -⟩ := hi
    exact h.log_lt _ hy
  obtain ⟨q, hknow, hob⟩ := hthreads i _ (List.getElem?_eq_getElem hlt)
  have hfin := hidle _ (List.getElem_mem hlt)
  generalize P.threads[i].prog = p at hob hfin
  cases p with
  | act => exact hfin.elim
  | ret r =>
    obtain ⟨n, rfl⟩ | rfl := hob
    · obtain hb | hn := hknow.only x.1 hi
      · cases hb
      · obtain rfl := Option.some.inj hn
        have hmem : x ∈ pendingOf x.1 P.shared.pending := List.mem_filter.2 ⟨hx, by simp⟩
        rw [show pendingOf x.1 P.shared.pending = [] from hknow.holds] at hmem
        exact absurd hmem List.not_mem_nil
    · exact hknow.holds

/-! ### Runs -/

namespace Sample

/-- Statements of a coroutine that nothing strikes. -/
def acts (i : ℕ) (es : List KbEnv) : List (Move KbEnv KbCall) :=
  es.flatMap fun e => [.step i {}, .step i e]

def notes : KbStoreCall :=
  { name := "notes.md", title := some "Notes", tags := some [], description := some "" }

/-- Coroutine `i` looks whether the document is there. -/
def looking (i : ℕ) : List (Move KbEnv KbCall) :=
  [.start (.store notes), .step i {}] ++ acts i [{ file := ⟨"h", "text"⟩ }, {}]

def inserting (i : ℕ) : List (Move KbEnv KbCall) := acts i [{}, { id := i + 1 }]

/-- Coroutine `i` is about to change the title. -/
def retitling (i : ℕ) : List (Move KbEnv KbCall) :=
  [.start (.modify "Notes" none { title := some "Old notes" }), .step i {}] ++ acts i [{}, {}]

def deleting (i : ℕ) : List (Move KbEnv KbCall) :=
  [.start (.remove "Notes" none), .step i {}] ++ acts i [{}, {}, {}]

/-- Whether every call is done; hashes and titles; documents and titles of chunks. -/
def view (P : Pool KbAct KbStore KbCall (Option (Except Unit ℕ))) :
    Bool × List (String × String) × List (DocId × String) :=
  (P.threads.all fun th => th.prog.finished, P.shared.docs.map fun d => (d.sha256, d.title),
    P.shared.chunks.map fun c => (c.docId, c.title))

/-- What a schedule leaves. -/
def played (ms : List (Move KbEnv KbCall)) : Option (Bool × List (String × String) ×
    List (DocId × String)) :=
  ((knowledgeBase {}).run (fun _ _ _ _ _ => true) (.init {}) ms).map view

end Sample

theorem finished_of_all {P : Pool KbAct KbStore KbCall (Option (Except Unit ℕ))}
    (h : (P.threads.all fun th => th.prog.finished) = true) : ∀ th ∈ P.threads, th.prog.Finished :=
  fun th hth => finished_iff.1 (List.all_eq_true.1 h th hth)

/-- A document is stored and renamed at once. -/
theorem knowledge_coherent_of_inOrder : ∃ P,
    Run (knowledgeBase {}) orderlyRuns (.init {}) P ∧ (∀ th ∈ P.threads, th.prog.Finished) ∧
    P.shared.docs.map (fun d => (d.sha256, d.title)) = [("h", "Old notes")] ∧
    P.shared.chunks.map (fun c => (c.docId, c.title)) = [(1, "Old notes")] ∧ Coherent P.shared := by
  have hplay : ((knowledgeBase {}).run (fun P _ _ a e => a.orderly e P.shared) (.init {})
      (Sample.looking 0 ++ Sample.inserting 0 ++ Sample.retitling 1 ++ Sample.acts 0 [{}] ++
        Sample.acts 1 [{}])).map Sample.view =
      some (true, [("h", "Old notes")], [(1, "Old notes")]) := by
    decide +kernel
  obtain ⟨P, hP, hend⟩ := Option.map_eq_some_iff.1 hplay
  obtain ⟨hdone, hend⟩ := Prod.mk.inj hend
  obtain ⟨hdocs, hchunks⟩ := Prod.mk.inj hend
  have hrun : Run (knowledgeBase {}) orderlyRuns (.init {}) P :=
    Run.of_run (fun _ _ => trivial) (fun _ _ _ _ _ hc => hc) hP
  exact ⟨P, hrun, finished_of_all hdone, hdocs, hchunks, knowledge_coherent hrun (finished_of_all hdone)⟩

/-- What a schedule leaves when every call is done. -/
theorem Sample.left_of_played {ms : List (Move KbEnv KbCall)} {docs : List (String × String)}
    {chunks : List (DocId × String)} (h : Sample.played ms = some (true, docs, chunks)) :
    ∃ P, Run (knowledgeBase {}) .free (.init {}) P ∧ (∀ th ∈ P.threads, th.prog.Finished) ∧
      P.shared.docs.map (fun d => (d.sha256, d.title)) = docs ∧
      P.shared.chunks.map (fun c => (c.docId, c.title)) = chunks := by
  obtain ⟨P, hP, hend⟩ := Option.map_eq_some_iff.1 h
  obtain ⟨hdone, hend⟩ := Prod.mk.inj hend
  obtain ⟨hdocs, hchunks⟩ := Prod.mk.inj hend
  exact ⟨P, Run.of_run (fun _ _ => trivial) (fun _ _ _ _ _ _ => trivial) hP, finished_of_all hdone,
    hdocs, hchunks⟩

/-- Without the condition, when no call is running any more: two documents have the same hash; a
document has no chunk; a chunk has another title than its document; a chunk has no document. -/
theorem knowledge_incoherent :
    (∃ P, Run (knowledgeBase {}) .free (.init {}) P ∧ (∀ th ∈ P.threads, th.prog.Finished) ∧
      P.shared.docs.map (fun d => (d.sha256, d.title)) = [("h", "Notes"), ("h", "Notes")] ∧
      ¬ Coherent P.shared) ∧
    (∃ P, Run (knowledgeBase {}) .free (.init {}) P ∧ (∀ th ∈ P.threads, th.prog.Finished) ∧
      P.shared.docs.map (fun d => (d.sha256, d.title)) = [("h", "Notes")] ∧ P.shared.chunks = []) ∧
    (∃ P, Run (knowledgeBase {}) .free (.init {}) P ∧ (∀ th ∈ P.threads, th.prog.Finished) ∧
      P.shared.docs.map (fun d => (d.sha256, d.title)) = [("h", "Old notes")] ∧
      P.shared.chunks.map (fun c => (c.docId, c.title)) = [(1, "Notes")]) ∧
    ∃ P, Run (knowledgeBase {}) .free (.init {}) P ∧ (∀ th ∈ P.threads, th.prog.Finished) ∧
      P.shared.docs = [] ∧ P.shared.chunks.map (fun c => (c.docId, c.title)) = [(1, "Notes")] := by
  have htwice : Sample.played (Sample.looking 0 ++ Sample.looking 1 ++ Sample.inserting 0 ++
      Sample.inserting 1 ++ Sample.acts 0 [{}] ++ Sample.acts 1 [{}]) =
      some (true, [("h", "Notes"), ("h", "Notes")], [(1, "Notes"), (2, "Notes")]) := by
    decide +kernel
  have hstruck : Sample.played (Sample.looking 0 ++ Sample.inserting 0 ++
      [.step 0 { fails := true }]) = some (true, [("h", "Notes")], []) := by
    decide +kernel
  have hrenamed : Sample.played (Sample.looking 0 ++ Sample.inserting 0 ++ Sample.retitling 1 ++
      Sample.acts 1 [{}] ++ Sample.acts 0 [{}]) =
      some (true, [("h", "Old notes")], [(1, "Notes")]) := by
    decide +kernel
  have hdeleted : Sample.played (Sample.looking 0 ++ Sample.inserting 0 ++ Sample.deleting 1 ++
      Sample.acts 0 [{}]) = some (true, [], [(1, "Notes")]) := by
    decide +kernel
  refine ⟨?_, ?_, Sample.left_of_played hrenamed, ?_⟩
  · obtain ⟨P, hrun, hdone, hdocs, -⟩ := Sample.left_of_played htwice
    refine ⟨P, hrun, hdone, hdocs, fun hc => ?_⟩
    have hshas : P.shared.docs.map Doc.sha256 = ["h", "h"] := by
      have := congrArg (List.map Prod.fst) hdocs
      rwa [List.map_map] at this
    have := hc.hashes
    rw [hshas] at this
    exact absurd this (by decide)
  · obtain ⟨P, hrun, hdone, hdocs, hchunks⟩ := Sample.left_of_played hstruck
    exact ⟨P, hrun, hdone, hdocs, List.map_eq_nil_iff.1 hchunks⟩
  · obtain ⟨P, hrun, hdone, hdocs, hchunks⟩ := Sample.left_of_played hdeleted
    exact ⟨P, hrun, hdone, List.map_eq_nil_iff.1 hdocs, hchunks⟩

end Backplane.Knowledge
