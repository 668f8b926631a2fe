import Mathlib.Order.CompletePartialOrder
import Mathlib.Order.Interval.Set.Disjoint
import Mathlib.Order.Interval.Set.LinearOrder
import Mathlib.Data.Set.Lattice

/-! Placing items at a running address. A fixed item goes to an address of its own, a
floating one behind the item placed last, wherever that is. The floating items are
clear of what was placed before them exactly when each run of them has room. -/

namespace Placement

variable {ρ : Type} (fixed : ρ → Option Nat) (size : ρ → Nat)

/-- Where an item goes. -/
def base (next : Nat) (r : ρ) : Nat := (fixed r).getD next

def place (next : Nat) : List ρ → List (Nat × ρ)
  | [] => []
  | r :: rest => (base fixed next r, r) :: place (base fixed next r + size r) rest

def span (p : Nat × ρ) : Set Nat := Set.Ico p.1 (p.1 + size p.2)

/-- The addresses that placed items take. -/
def cells (l : List (Nat × ρ)) : Set Nat := {a | ∃ p ∈ l, a ∈ span size p}

/-- Every floating item is clear of the addresses in use and of the items before it. -/
def FloatsClear (used : Set Nat) (next : Nat) (l : List ρ) : Prop :=
  ∀ before p after, place fixed size next l = before ++ p :: after → fixed p.2 = none →
    Disjoint (used ∪ cells size before) (span size p)

/-- The total size of the floating items at the front of a list. -/
def floating : List ρ → Nat
  | [] => 0
  | r :: rest =>
    match fixed r with
    | none => size r + floating rest
    | some _ => 0

/-- Behind each fixed item there is room for the floating ones that follow it: no address
there is in use by then. -/
def Room (used : Set Nat) : List ρ → Prop
  | [] => True
  | r :: rest =>
    match fixed r with
    | none => Room used rest
    | some a =>
      Disjoint used (Set.Ico (a + size r) (a + size r + floating fixed size rest)) ∧
        Room (used ∪ Set.Ico a (a + size r + floating fixed size rest)) rest

theorem mem_place {next : Nat} {l : List ρ} {p : Nat × ρ}
    (member : p ∈ place fixed size next l) : p.2 ∈ l := by
  induction l generalizing next with
  | nil => cases member
  | cons r rest ih =>
    cases member with
    | head => exact List.mem_cons_self
    | tail _ member => exact List.mem_cons_of_mem _ (ih member)

theorem cells_nil : cells size [] = ∅ := by
  simp [cells]

theorem cells_cons (p : Nat × ρ) (l : List (Nat × ρ)) :
    cells size (p :: l) = span size p ∪ cells size l := by
  ext a
  simp [cells]

theorem floatsClear_cons (used : Set Nat) (next : Nat) (r : ρ) (rest : List ρ) :
    FloatsClear fixed size used next (r :: rest) ↔
      (fixed r = none → Disjoint used (span size (base fixed next r, r))) ∧
        FloatsClear fixed size (used ∪ span size (base fixed next r, r))
          (base fixed next r + size r) rest := by
  constructor
  · intro clear
    constructor
    · intro floats
      have first := clear [] (base fixed next r, r) _ rfl floats
      rwa [cells_nil, Set.union_empty] at first
    · intro before p after split floats
      have later := clear ((base fixed next r, r) :: before) p after
        (congrArg (List.cons _) split) floats
      rwa [cells_cons, ← Set.union_assoc] at later
  · rintro ⟨first, later⟩ before p after split floats
    cases before with
    | nil =>
      obtain ⟨rfl, -⟩ := List.cons.inj split
      rw [cells_nil, Set.union_empty]
      exact first floats
    | cons q before =>
      obtain ⟨rfl, tail⟩ := List.cons.inj split
      rw [cells_cons, ← Set.union_assoc]
      exact later before p after tail floats

/-- A span and the one behind it are one span. -/
theorem ico_union (a m n : Nat) :
    Set.Ico a (a + m) ∪ Set.Ico (a + m) (a + m + n) = Set.Ico a (a + m + n) :=
  Set.Ico_union_Ico_eq_Ico (Nat.le_add_right _ _) (Nat.le_add_right _ _)

/-- Two spans end to end are clear of the addresses in use together or not at all. -/
theorem disjoint_ico_add (used : Set Nat) (a m n : Nat) :
    Disjoint used (Set.Ico a (a + m + n)) ↔
      Disjoint used (Set.Ico a (a + m)) ∧
        Disjoint (used ∪ Set.Ico a (a + m)) (Set.Ico (a + m) (a + m + n)) := by
  rw [← ico_union, Set.disjoint_union_right, Set.disjoint_union_left]
  exact and_congr_right' (and_iff_left Set.Ico_disjoint_Ico_same).symm

/-- The floating items are placed clear exactly when the first run of them fits at the
running address and each later run behind its fixed item. -/
theorem floatsClear_iff (used : Set Nat) (next : Nat) (l : List ρ) :
    FloatsClear fixed size used next l ↔
      Disjoint used (Set.Ico next (next + floating fixed size l)) ∧
        Room fixed size (used ∪ Set.Ico next (next + floating fixed size l)) l := by
  induction l generalizing used next with
  | nil => simp [FloatsClear, place, floating, Room]
  | cons r rest ih =>
    rw [floatsClear_cons, ih, span]
    cases own : fixed r with
    | none =>
      have at_next : base fixed next r = next := by simp [base, own]
      simp only [at_next, floating, own, Room]
      rw [imp_iff_right trivial, ← Nat.add_assoc, disjoint_ico_add, Set.union_assoc, ico_union,
        and_assoc]
    | some a =>
      have at_own : base fixed next r = a := by simp [base, own]
      simp only [at_own, floating, own, Room, Nat.add_zero, Set.Ico_self, Set.union_empty]
      rw [Set.union_assoc, ico_union, Set.disjoint_union_left,
        and_iff_left Set.Ico_disjoint_Ico_same]
      simp

end Placement
