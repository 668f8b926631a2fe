import Mathlib.Order.Basic

/-! A stack with a capacity. A push onto a full stack and a pop from an empty
one give nothing. -/

/-- The items, bottom first. -/
structure BoundedStack (α : Type) (capacity : Nat) where
  items : List α
  bound : items.length ≤ capacity

namespace BoundedStack

variable {α : Type} {capacity : Nat}

def empty : BoundedStack α capacity := ⟨[], Nat.zero_le _⟩

def depth (s : BoundedStack α capacity) : Nat := s.items.length

theorem depth_le (s : BoundedStack α capacity) : s.depth ≤ capacity := s.bound

def push? (s : BoundedStack α capacity) (v : α) : Option (BoundedStack α capacity) :=
  if h : s.depth < capacity then
    some ⟨s.items ++ [v], by simpa [depth] using Nat.succ_le_of_lt h⟩
  else none

def pop? (s : BoundedStack α capacity) : Option (α × BoundedStack α capacity) :=
  if h : s.items = [] then none
  else some (s.items.getLast h, ⟨s.items.dropLast, by
    have := s.bound
    simp only [List.length_dropLast]
    omega⟩)

theorem push?_of_room {s : BoundedStack α capacity} (v : α) (h : s.depth < capacity) :
    ∃ t, s.push? v = some t ∧ t.items = s.items ++ [v] := by
  unfold push?
  rw [dif_pos h]
  exact ⟨_, rfl, rfl⟩

theorem push?_of_full {s : BoundedStack α capacity} (v : α) (h : s.depth = capacity) :
    s.push? v = none := by
  unfold push?
  rw [dif_neg (by omega)]

theorem pop?_of_empty {s : BoundedStack α capacity} (h : s.depth = 0) : s.pop? = none := by
  unfold pop?
  rw [dif_pos (List.length_eq_zero_iff.mp h)]

theorem pop?_of_pos {s : BoundedStack α capacity} (h : 0 < s.depth) :
    ∃ v t, s.pop? = some (v, t) ∧ s.items = t.items ++ [v] := by
  have hne : s.items ≠ [] := List.length_pos_iff.mp h
  unfold pop?
  rw [dif_neg hne]
  exact ⟨_, _, rfl, (List.dropLast_concat_getLast hne).symm⟩

/-- A pop gives back what the push before it put there. -/
theorem pop?_push? {s t : BoundedStack α capacity} {v : α} (h : s.push? v = some t) :
    t.pop? = some (v, s) := by
  unfold push? at h
  split at h
  · cases h
    simp [pop?]
  · cases h

end BoundedStack
