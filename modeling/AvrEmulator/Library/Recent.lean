import Mathlib.Data.List.Basic

/-! The end of a log that only grows. It is cut back when it passes a limit. -/

namespace Recent

variable {α : Type}

/-- More of the log, cut to the last `keep` when there are more than `limit`. -/
def extend (keep limit : Nat) (shown new : List α) : List α :=
  let text := shown ++ new
  if limit < text.length then text.drop (text.length - keep) else text

/-- What is shown of a log: all of a short one, and of a long one at least the last
`keep`. -/
structure Shows (keep limit : Nat) (log shown : List α) : Prop where
  suffix : shown <:+ log
  bounded : shown.length ≤ limit
  whole : log.length ≤ limit → shown = log
  enough : limit < log.length → keep ≤ shown.length

variable {keep limit : Nat} {log shown : List α}

theorem shows_nil (keep limit : Nat) : Shows keep limit ([] : List α) [] where
  suffix := List.suffix_rfl
  bounded := Nat.zero_le limit
  whole _ := rfl
  enough long := absurd long (Nat.not_lt_zero limit)

theorem Shows.extend (h : Shows keep limit log shown) (less : keep ≤ limit) (new : List α) :
    Shows keep limit (log ++ new) (extend keep limit shown new) := by
  obtain ⟨before, split⟩ := h.suffix
  have suffix : shown ++ new <:+ log ++ new := by
    refine ⟨before, ?_⟩
    rw [← split, List.append_assoc]
  unfold Recent.extend
  dsimp only
  split
  next long =>
    have length : ((shown ++ new).drop ((shown ++ new).length - keep)).length = keep := by
      rw [List.length_drop]
      omega
    refine ⟨(List.drop_suffix _ _).trans suffix, by omega, ?_, by omega⟩
    intro short
    rw [List.length_append] at short
    rw [h.whole (by omega)] at long
    rw [List.length_append] at long
    omega
  next short =>
    refine ⟨suffix, by omega, ?_, ?_⟩
    · intro all
      rw [List.length_append] at all
      rw [h.whole (by omega)]
    · intro long
      by_cases whole : log.length ≤ limit
      · rw [h.whole whole] at short
        omega
      · have enough := h.enough (by omega)
        rw [List.length_append]
        omega

end Recent
