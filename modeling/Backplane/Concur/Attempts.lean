import Backplane.Concur.Trace

/-!
# Attempts by a schedule

A program makes attempts, one after the other.  An attempt begins with an action, and an answer to
that action or to a later one tells how it ended.  What an attempt yields may be handed on before it
has ended, and then no other may follow.

* `Attempts` : which actions begin an attempt or hand something on, and how an attempt ends.
* `Attempts.following` : the discipline of making the attempts of a schedule, each but the first after
  an end that calls for another.
* `begun_scheduled`, `orderly` : what that means for the past of a program.
-/

namespace Backplane.Concur

/-- What the actions of a program are to its attempts: `ι` names them, `ω` tells how they end. -/
structure Attempts (A : Type → Type 1) (ι ω : Type) where
  /-- The attempt that begins with the action. -/
  begins : ∀ {β : Type}, A β → Option ι
  /-- The action hands something on that cannot be taken back. -/
  hands : ∀ {β : Type}, A β → Bool
  /-- How the attempt ended, where the answer tells. -/
  ends : ∀ {β : Type}, A β → β → Option ω
  /-- After such an end another attempt may be made. -/
  again : ω → Bool

/-- What is known of the attempts that were made. -/
structure Tally (ι ω : Type) where
  made : List ι := []
  /-- How the last one ended; `none` before that. -/
  last : Option ω := none
  handed : Bool := false

namespace Attempts

variable {A : Type → Type 1} {ι ω α β : Type} (T : Attempts A ι ω)

/-- What is known after a step. -/
def next (q : Tally ι ω) (a : A β) (b : β) : Tally ι ω where
  made := q.made ++ (T.begins a).toList
  last := (T.ends a b).or (if (T.begins a).isSome then none else q.last)
  handed := q.handed || T.hands a

/-- Another attempt may be made. -/
def Open (q : Tally ι ω) : Prop :=
  q.handed = false ∧ (q.made = [] ∨ ∃ o, q.last = some o ∧ T.again o = true)

/-- Make the attempts of the schedule, as far as they are called for. -/
def following (schedule : List ι) : Discipline A (Tally ι ω) where
  ok q a := ∀ i, T.begins a = some i → q.made ++ [i] <+: schedule ∧ T.Open q
  ans _ _ := True
  next q a b := T.next q a b

/-- What is known after these events. -/
def tally (tr : List (Event A)) : Tally ι ω := tr.foldl (fun q x => T.next q x.act x.ans) {}

/-- The attempts that were begun. -/
def begun (tr : List (Event A)) : List ι := tr.filterMap fun x => T.begins x.act

/-- Each attempt is made where another may be made, and none after something has been handed on. -/
def Orderly (tr : List (Event A)) : Prop :=
  ∀ tr₁ x tr₂, tr = tr₁ ++ x :: tr₂ →
    (T.begins x.act ≠ none → T.Open (T.tally tr₁)) ∧ (T.hands x.act = true → T.begun tr₂ = [])

variable {T} {schedule : List ι} {p p' : Prog A α} {tr tr₁ tr₂ : List (Event A)} {x : Event A}
  {fin : Tally ι ω → α → Prop}

section

variable {q : Tally ι ω} {a : A β} {b : β}

@[simp] theorem following_next : (T.following schedule).next q a b = T.next q a b := rfl

/-- Whatever begins no attempt may be done at any time. -/
theorem ok_of_neutral (h : T.begins a = none) : (T.following schedule).ok q a :=
  fun i hi => by rw [h] at hi; cases hi

/-- An action without a meaning to attempts. -/
theorem next_of_neutral (hbegins : T.begins a = none) (hhands : T.hands a = false)
    (hends : T.ends a b = none) : T.next q a b = q := by
  simp [next, hbegins, hhands, hends]

/-- An action that only tells how the attempt ended. -/
theorem next_of_ends {o : ω} (hbegins : T.begins a = none) (hhands : T.hands a = false)
    (hends : T.ends a b = some o) : T.next q a b = { q with last := some o } := by
  simp [next, hbegins, hhands, hends]

end

/-! ### The past -/

theorem foldl_next (q : Tally ι ω) :
    (tr.foldl (fun q x => T.next q x.act x.ans) q).made = q.made ++ T.begun tr ∧
      (tr.foldl (fun q x => T.next q x.act x.ans) q).handed =
        (q.handed || tr.any fun x => T.hands x.act) := by
  induction tr generalizing q with
  | nil => simp [begun]
  | cons x tr ih =>
    obtain ⟨hmade, hhanded⟩ := ih (T.next q x.act x.ans)
    rw [List.foldl_cons, hmade, hhanded, List.any_cons, begun, begun, List.filterMap_cons]
    cases hx : T.begins x.act <;> simp [next, hx, Bool.or_assoc]

theorem made_tally : (T.tally tr).made = T.begun tr := (foldl_next {}).1

theorem handed_tally : (T.tally tr).handed = tr.any fun x => T.hands x.act := by
  rw [tally, (foldl_next {}).2, Bool.false_or]

/-- The attempts that were made are the first ones of the schedule. -/
theorem begun_scheduled (h : After p tr p') (hp : (T.following schedule).Obeys {} p fin) :
    T.begun tr <+: schedule := by
  have hknown : (T.tally tr).made <+: schedule := by
    refine h.known (I := fun q => q.made <+: schedule) hp (fun _ _ => trivial) List.nil_prefix ?_
    intro β q a b hq hok
    cases ha : T.begins a with
    | none => simpa [next, ha] using hq
    | some i => simpa [next, ha] using (hok i ha).1
  rwa [made_tally] at hknown

theorem open_of_begins (h : After p (tr₁ ++ x :: tr₂) p')
    (hp : (T.following schedule).Obeys {} p fin) (hx : T.begins x.act ≠ none) :
    T.Open (T.tally tr₁) := by
  obtain ⟨i, hi⟩ := Option.ne_none_iff_exists'.1 hx
  exact (h.permitted hp (fun _ _ => trivial) i hi).2

/-- **Attempts that follow a schedule are orderly.** -/
theorem orderly (h : After p tr p') (hp : (T.following schedule).Obeys {} p fin) :
    T.Orderly tr := by
  rintro tr₁ x tr₂ rfl
  refine ⟨open_of_begins h hp, fun hx => List.filterMap_eq_nil_iff.2 fun y hy => ?_⟩
  obtain ⟨l₁, l₂, rfl⟩ := List.append_of_mem hy
  by_contra hne
  rw [← List.cons_append, ← List.append_assoc] at h
  have hhanded := (open_of_begins h hp hne).1
  rw [handed_tally] at hhanded
  simp [hx] at hhanded

/-- What is known at the end. -/
theorem fin_tally {r : α} (h : After p tr (.ret r)) (hp : (T.following schedule).Obeys {} p fin) :
    fin (T.tally tr) r :=
  h.obeys hp fun _ _ => trivial

end Attempts

end Backplane.Concur
