import AvrEmulator.Library.Cells
import Mathlib.Data.List.Pairwise

/-! Blocks of values laid over an array. Of the blocks that cover a cell, the one
laid last decides what the cell holds. -/

/-- A run of values and the index of the first. -/
structure Block (α : Type) where
  base : Nat
  data : List α

namespace Block

variable {α : Type}

/-- The value the block has for cell `i`, if it covers the cell. -/
def at? (b : Block α) (i : Nat) : Option α :=
  if b.base ≤ i then b.data[i - b.base]? else none

theorem at?_add (base : Nat) (data : List α) (k : Nat) :
    (⟨base, data⟩ : Block α).at? (base + k) = data[k]? := by
  rw [at?, if_pos (Nat.le_add_right base k), Nat.add_sub_cancel_left]

theorem at?_append (base : Nat) (first second : List α) (i : Nat) :
    (⟨base, first ++ second⟩ : Block α).at? i =
      ((⟨base + first.length, second⟩ : Block α).at? i).or ((⟨base, first⟩ : Block α).at? i) := by
  simp only [at?]
  by_cases low : base ≤ i
  · rw [if_pos low, if_pos low]
    by_cases inside : i - base < first.length
    · rw [List.getElem?_append_left inside, if_neg (by omega)]
      rfl
    · rw [List.getElem?_append_right (by omega), if_pos (by omega), Nat.sub_sub,
        List.getElem?_eq_none (Nat.le_of_not_lt inside), Option.or_none]
  · rw [if_neg low, if_neg (by omega), if_neg low]
    rfl

def Covers (b : Block α) (i : Nat) : Prop := (b.at? i).isSome = true

theorem covers_iff (b : Block α) (i : Nat) :
    b.Covers i ↔ b.base ≤ i ∧ i < b.base + b.data.length := by
  unfold Covers at?
  by_cases low : b.base ≤ i
  · rw [if_pos low, isSome_getElem?]
    omega
  · simp [low]

/-- No cell is under both blocks. -/
def Apart (b c : Block α) : Prop := ∀ i, b.Covers i → ¬ c.Covers i

theorem apart_iff (b c : Block α) :
    b.Apart c ↔ min (b.base + b.data.length) (c.base + c.data.length) ≤ max b.base c.base := by
  simp only [Apart, covers_iff]
  constructor
  · intro apart
    have shared := apart (max b.base c.base)
    omega
  · intro order i
    omega

instance : Std.Symm (@Apart α) := ⟨fun _ _ apart i covers covers' => apart i covers' covers⟩

instance (b c : Block α) : Decidable (b.Apart c) := decidable_of_iff' _ (apart_iff b c)

end Block

namespace Cells

variable {n : Nat} {α : Type}

/-- The array with a block over it. -/
def lay (c : Cells n α) (b : Block α) : Cells n α := fun i => (b.at? i).getD (c i)

/-- The checked store of a block: undefined unless the whole block is inside. -/
def copy? (c : Cells n α) (b : Block α) : Option (Cells n α) :=
  if b.base + b.data.length ≤ n then some (c.lay b) else none

theorem copy?_eq (c : Cells n α) {b : Block α} (h : b.base + b.data.length ≤ n) :
    c.copy? b = some (c.lay b) := if_pos h

/-- What laying blocks in order leaves: a cell holds the value of the last block over
it, or what it held before where there is none. -/
structure Laid (blocks : List (Block α)) (c c' : Cells n α) : Prop where
  covered : ∀ (before after : List (Block α)) (b : Block α) (i : Fin n) (v : α),
    blocks = before ++ b :: after → b.at? i = some v → (∀ x ∈ after, x.at? i = none) → c' i = v
  bare : ∀ i : Fin n, (∀ b ∈ blocks, b.at? i = none) → c' i = c i

theorem foldl_lay_bare (c : Cells n α) {blocks : List (Block α)} {i : Fin n}
    (bare : ∀ b ∈ blocks, b.at? i = none) : blocks.foldl lay c i = c i := by
  induction blocks generalizing c with
  | nil => rfl
  | cons b rest ih =>
    obtain ⟨first, others⟩ := List.forall_mem_cons.mp bare
    rw [List.foldl_cons, ih _ others, lay, first]
    rfl

theorem foldl_lay (c : Cells n α) (blocks : List (Block α)) :
    Laid blocks c (blocks.foldl lay c) where
  covered := by
    rintro before after b i v rfl covers later
    rw [List.foldl_append, List.foldl_cons, foldl_lay_bare _ later, lay, covers]
    rfl
  bare _ := foldl_lay_bare c

/-- Where all blocks over a cell have the same value for it, and one of them is there or the
cell held the value before, it holds it afterwards. -/
theorem foldl_lay_agree (c : Cells n α) {blocks : List (Block α)} {i : Fin n} {v : α}
    (agree : ∀ b ∈ blocks, ∀ u, b.at? i = some u → u = v)
    (there : c i = v ∨ ∃ b ∈ blocks, b.at? i = some v) : blocks.foldl lay c i = v := by
  induction blocks generalizing c with
  | nil => exact there.resolve_right nofun
  | cons b rest ih =>
    obtain ⟨first, others⟩ := List.forall_mem_cons.mp agree
    rw [List.foldl_cons]
    apply ih (c.lay b) others
    cases value : b.at? i with
    | none =>
      have same : c.lay b i = c i := by
        rw [lay, value]
        rfl
      rcases there with held | ⟨b', member, value'⟩
      · exact .inl (same.trans held)
      · rcases List.mem_cons.mp member with rfl | later
        · rw [value] at value'
          cases value'
        · exact .inr ⟨b', later, value'⟩
    | some u =>
      rw [lay, value]
      exact .inl (first u value)

/-- Of blocks that are all apart each is there as a whole. -/
theorem foldl_lay_apart (c : Cells n α) {blocks : List (Block α)} {b : Block α} {i : Fin n} {v : α}
    (apart : blocks.Pairwise Block.Apart) (member : b ∈ blocks) (value : b.at? i = some v) :
    blocks.foldl lay c i = v := by
  apply foldl_lay_agree c ?_ (.inr ⟨b, member, value⟩)
  intro b' member' u value'
  by_cases same : b' = b
  · rw [same, value] at value'
    exact (Option.some.inj value').symm
  · have clear : b'.Apart b := apart.forall member' member same
    refine absurd ?_ (clear i ?_)
    · rw [Block.Covers, value]
      rfl
    · rw [Block.Covers, value']
      rfl

theorem lay_nil (c : Cells n α) (base : Nat) : c.lay ⟨base, []⟩ = c := by
  funext i
  simp [lay, Block.at?]

/-- Two blocks end to end are laid like one. -/
theorem lay_lay (c : Cells n α) (base : Nat) (first second : List α) :
    (c.lay ⟨base, first⟩).lay ⟨base + first.length, second⟩ = c.lay ⟨base, first ++ second⟩ := by
  funext i
  rw [lay, lay, lay, Block.at?_append]
  cases (⟨base + first.length, second⟩ : Block α).at? i <;> rfl

end Cells
