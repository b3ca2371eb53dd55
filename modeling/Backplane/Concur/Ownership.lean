import Backplane.Concur.Pool

/-!
# Who made what

Coroutines make objects that are numbered in the order they are made: guards, turns, transactions.
Whoever made one is alone in knowing its number.

* `Making` : which object an event makes, and how many there are.
* `Making.Owns` : a coroutine has made the object.
* `Making.Owners` : what was made is there, and was made by one coroutine.
* `Making.Owners.exec` : one step keeps it.
-/

namespace Backplane.Concur

variable {A : Type → Type 1} {S : Type}

/-- How objects are made. -/
structure Making (A : Type → Type 1) (S : Type) where
  makes : Event A → Option ℕ
  /-- How many there are. -/
  count : S → ℕ

namespace Making

variable (M : Making A S)

/-- The coroutine has made this object. -/
def Owns (log : Log A) (i g : ℕ) : Prop := ∃ x, (i, x) ∈ log ∧ M.makes x = some g

/-- Every object that was made is there, and was made by one coroutine. -/
structure Owners (s : S) (log : Log A) : Prop where
  made : ∀ i g, M.Owns log i g → g < M.count s
  /-- Nobody else has made it. -/
  one : ∀ i j g, M.Owns log i g → M.Owns log j g → i = j

variable {M} {s s' : S} {log l : Log A} {x : Event A} {i j g : ℕ}

theorem Owners.init : M.Owners s [] :=
  ⟨fun _ _ ⟨_, hx, _⟩ => absurd hx List.not_mem_nil,
    fun _ _ _ ⟨_, hx, _⟩ => absurd hx List.not_mem_nil⟩

theorem Owns.append (h : M.Owns log i g) : M.Owns (log ++ l) i g :=
  h.elim fun x hx => ⟨x, List.mem_append_left _ hx.1, hx.2⟩

/-- Whoever makes an object has made it. -/
theorem Owns.of_makes (h : M.makes x = some g) : M.Owns (log ++ [(i, x)]) i g :=
  ⟨x, List.mem_append_right _ (List.mem_singleton.2 rfl), h⟩

theorem owns_snoc (h : M.Owns (log ++ [(j, x)]) i g) :
    M.Owns log i g ∨ i = j ∧ M.makes x = some g := by
  obtain ⟨y, hmem, hy⟩ := h
  obtain hmem | hmem := List.mem_append.1 hmem
  · exact .inl ⟨y, hmem, hy⟩
  · obtain ⟨rfl, rfl⟩ := Prod.mk.inj (List.mem_singleton.1 hmem)
    exact .inr ⟨rfl, hy⟩

/-- **An object has one maker**: the next number is given to whoever makes the next object. -/
theorem Owners.exec (h : M.Owners s log) (hle : M.count s ≤ M.count s')
    (hnew : ∀ g, M.makes x = some g → g = M.count s ∧ g < M.count s') (i : ℕ) :
    M.Owners s' (log ++ [(i, x)]) := by
  refine ⟨fun j g hj => ?_, fun j k g hj hk => ?_⟩
  · obtain hj | ⟨-, hx⟩ := owns_snoc hj
    · exact Nat.lt_of_lt_of_le (h.made j g hj) hle
    · exact (hnew g hx).2
  · obtain hj | ⟨hji, hx⟩ := owns_snoc hj <;> obtain hk | ⟨hki, hy⟩ := owns_snoc hk
    · exact h.one j k g hj hk
    · have hlt := h.made j g hj
      have hg := (hnew g hy).1
      omega
    · have hlt := h.made k g hk
      have hg := (hnew g hx).1
      omega
    · rw [hji, hki]

end Making

end Backplane.Concur
