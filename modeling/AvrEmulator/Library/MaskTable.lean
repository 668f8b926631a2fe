import Mathlib.Data.BitVec

/-! Decoding tables in which the first row that matches wins. A row matches the
words that agree with its code under its mask. -/

namespace MaskTable

variable {w : Nat} {ρ : Type} (mask code : ρ → BitVec w)

def lookup (table : List ρ) (x : BitVec w) : Option ρ :=
  table.find? fun row => x &&& mask row = code row

/-- No word with `x &&& m = c` matches the row. -/
def clash (m c : BitVec w) (row : ρ) : Bool := (c ^^^ code row) &&& (m &&& mask row) ≠ 0

/-- Every word with `x &&& m = c` matches the row. -/
def covers (m c : BitVec w) (row : ρ) : Bool :=
  mask row &&& m = mask row ∧ c &&& mask row = code row

/-- The rows that can be the first match of a word with `x &&& m = c`. -/
def candidates (m c : BitVec w) : List ρ → List ρ
  | [] => []
  | row :: rows =>
    if clash mask code m c row then candidates m c rows
    else if covers mask code m c row then [row]
    else row :: candidates m c rows

variable {mask code}

theorem not_match_of_clash {x m c : BitVec w} {row : ρ} (h : x &&& m = c)
    (hc : clash mask code m c row = true) : x &&& mask row ≠ code row := by
  intro hit
  have same : (c ^^^ code row) &&& (m &&& mask row) = 0 := by
    rw [← h, ← hit]
    ext i hi
    simp only [BitVec.getElem_and, BitVec.getElem_xor]
    cases x[i] <;> cases m[i] <;> simp
  simp [clash, same] at hc

theorem match_of_covers {x m c : BitVec w} {row : ρ} (h : x &&& m = c)
    (hc : covers mask code m c row = true) : x &&& mask row = code row := by
  obtain ⟨inside, agrees⟩ := of_decide_eq_true hc
  rw [← agrees, ← h, BitVec.and_assoc, BitVec.and_comm m, inside]

theorem lookup_candidates {x m c : BitVec w} (h : x &&& m = c) (table : List ρ) :
    lookup mask code table x = lookup mask code (candidates mask code m c table) x := by
  induction table with
  | nil => rfl
  | cons row rows ih =>
    unfold candidates
    split
    next hc =>
      have miss := not_match_of_clash h hc
      rw [← ih, lookup, List.find?_cons_of_neg (by simpa using miss)]
      rfl
    next =>
      split
      next hc =>
        have hit := match_of_covers h hc
        simp only [lookup, List.find?_cons_of_pos, hit, decide_true]
      next =>
        simp only [lookup] at ih ⊢
        simp only [List.find?_cons, ih]

theorem lookup_match {table : List ρ} {x : BitVec w} {row : ρ}
    (h : lookup mask code table x = some row) : row ∈ table ∧ x &&& mask row = code row :=
  ⟨List.mem_of_find?_eq_some h, by simpa using List.find?_some h⟩

/-- When a row covers the words with `x &&& m = c`, each of them decodes, and to a candidate. -/
theorem exists_candidate {x m c : BitVec w} {table : List ρ} (h : x &&& m = c)
    (full : (candidates mask code m c table).any (covers mask code m c) = true) :
    ∃ row ∈ candidates mask code m c table,
      lookup mask code table x = some row ∧ x &&& mask row = code row := by
  obtain ⟨cover, mem, hc⟩ := List.any_eq_true.mp full
  have hit := match_of_covers h hc
  have found : (lookup mask code (candidates mask code m c table) x).isSome := by
    rw [lookup, List.find?_isSome]
    exact ⟨cover, mem, by simpa using hit⟩
  obtain ⟨row, hrow⟩ := Option.isSome_iff_exists.mp found
  obtain ⟨mem, hit⟩ := lookup_match hrow
  exact ⟨row, mem, (lookup_candidates h table).trans hrow, hit⟩

end MaskTable
