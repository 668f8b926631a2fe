import Mathlib.Logic.Function.Basic
import Mathlib.Order.Basic

/-! Fixed-size arrays whose accesses are checked. An access outside the array
is undefined: `read?` and `write?` return `none` for it and nothing else. -/

/-- An array of `n` cells. -/
def Cells (n : Nat) (α : Type) := Fin n → α

namespace Cells

variable {n : Nat} {α : Type}

def read? (c : Cells n α) (i : Nat) : Option α :=
  if h : i < n then some (c ⟨i, h⟩) else none

def write? (c : Cells n α) (i : Nat) (v : α) : Option (Cells n α) :=
  if h : i < n then some (Function.update c ⟨i, h⟩ v) else none

/-- The array after a store that hits a cell, and the same array otherwise. -/
def poke (c : Cells n α) (i : Nat) (v : α) : Cells n α :=
  if h : i < n then Function.update c ⟨i, h⟩ v else c

def fill (n : Nat) (v : α) : Cells n α := fun _ => v

theorem isSome_read? (c : Cells n α) (i : Nat) : (c.read? i).isSome = decide (i < n) := by
  unfold read?
  split
  next inside => exact (decide_eq_true inside).symm
  next outside => exact (decide_eq_false outside).symm

theorem isSome_write? (c : Cells n α) (i : Nat) (v : α) :
    (c.write? i v).isSome = decide (i < n) := by
  unfold write?
  split
  next inside => exact (decide_eq_true inside).symm
  next outside => exact (decide_eq_false outside).symm

theorem write?_eq (c : Cells n α) {i : Nat} (v : α) (h : i < n) :
    c.write? i v = some (c.poke i v) := by
  simp [write?, poke, h]

theorem poke_of_ne (c : Cells n α) {i : Nat} {k : Fin n} (v : α) (h : k.val ≠ i) :
    c.poke i v k = c k := by
  by_cases inside : i < n
  · simp only [poke, inside, ↓reduceDIte]
    have away : k ≠ ⟨i, inside⟩ := fun same => h (congrArg Fin.val same)
    exact Function.update_of_ne away v c
  · simp only [poke, inside, ↓reduceDIte]

variable [Inhabited α]

/-- The content of a cell, and a default where there is no cell. -/
def peek (c : Cells n α) (i : Nat) : α :=
  if h : i < n then c ⟨i, h⟩ else default

theorem read?_eq (c : Cells n α) {i : Nat} (h : i < n) : c.read? i = some (c.peek i) := by
  simp [read?, peek, h]

@[simp] theorem peek_poke_self (c : Cells n α) {i : Nat} (v : α) (h : i < n) :
    (c.poke i v).peek i = v := by
  simp only [peek, poke, h, ↓reduceDIte]
  exact Function.update_self _ v c

@[simp] theorem peek_poke_of_ne (c : Cells n α) {i j : Nat} (v : α) (h : j ≠ i) :
    (c.poke i v).peek j = c.peek j := by
  unfold peek
  split
  next hj =>
    by_cases hi : i < n
    · simp only [poke, hi, ↓reduceDIte]
      have hne : (⟨j, hj⟩ : Fin n) ≠ ⟨i, hi⟩ := by simpa using h
      exact Function.update_of_ne hne v c
    · simp only [poke, hi, ↓reduceDIte]
  next => rfl

end Cells
