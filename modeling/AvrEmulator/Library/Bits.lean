import Mathlib.Data.BitVec

/-! Single-bit masks, and the idioms of C code that test and extend words with them. -/

namespace Bits

variable {w : Nat}

theorem getLsbD_one_shl (k i : Nat) :
    ((1 : BitVec w) <<< k).getLsbD i = decide (i < w ∧ i = k) := by
  rw [BitVec.getLsbD_shiftLeft, Bool.eq_iff_iff]
  simp
  omega

theorem and_one_shl_ne_zero (x : BitVec w) {k : Nat} (h : k < w) :
    x &&& ((1 : BitVec w) <<< k) ≠ 0 ↔ x.getLsbD k = true := by
  constructor
  · intro hne
    by_contra clear
    apply hne
    apply BitVec.eq_of_getLsbD_eq
    intro i hi
    rw [BitVec.getLsbD_and, getLsbD_one_shl]
    by_cases hik : i = k
    · subst hik
      simp_all
    · simp [hik]
  · intro set zero
    have bit := congrArg (fun y : BitVec w => y.getLsbD k) zero
    rw [BitVec.getLsbD_and, set, getLsbD_one_shl] at bit
    simp [h] at bit

theorem and_not_self_iff (x y : BitVec w) : x &&& ~~~y = x ↔ x &&& y = 0 := by
  constructor
  · intro h
    rw [← h]
    ext i hi
    simp
  · intro h
    ext i hi
    have := congrArg (fun z : BitVec w => z[i]) h
    simp at this ⊢
    exact this

/-- Sign extension as it is written with a test of the sign bit. -/
theorem sign_extend {k : Nat} (x : BitVec k) (h : 0 < k ∧ k ≤ w) :
    (if x.setWidth w &&& ((1 : BitVec w) <<< (k - 1)) ≠ 0 then
      x.setWidth w ||| (BitVec.allOnes w <<< k) else x.setWidth w) = x.signExtend w := by
  have sign : x.setWidth w &&& ((1 : BitVec w) <<< (k - 1)) ≠ 0 ↔ x.msb = true := by
    rw [and_one_shl_ne_zero _ (by omega), BitVec.getLsbD_setWidth, BitVec.msb_eq_getLsbD_last]
    simp
    omega
  apply BitVec.eq_of_getLsbD_eq
  intro i hi
  rw [BitVec.getLsbD_signExtend]
  split
  next set =>
    have top := sign.mp set
    rw [BitVec.getLsbD_or, BitVec.getLsbD_shiftLeft]
    by_cases inside : i < k
    · simp [hi, inside]
    · simp [hi, inside, top]
      omega
  next clear =>
    have top : x.msb = false := by simpa using fun set => clear (sign.mpr set)
    by_cases inside : i < k
    · simp [hi, inside]
    · simp [hi, inside, top, BitVec.getLsbD_of_ge x i (by omega)]

/-- Carry and borrow equations of instruction manuals: a carry out of bit `i` of a sum,
read off the operands' and the result's bits. -/
theorem carry_eq_equation (x y : BitVec w) (c : Bool) {i : Nat} (hi : i < w) :
    let sum := x + y + (BitVec.ofBool c).setWidth w
    (x.getLsbD i && y.getLsbD i || y.getLsbD i && !sum.getLsbD i ||
      !sum.getLsbD i && x.getLsbD i) = BitVec.carry (i + 1) x y c := by
  dsimp only
  rw [BitVec.getLsbD_add_add_bool hi, BitVec.carry_succ]
  cases x.getLsbD i <;> cases y.getLsbD i <;> cases BitVec.carry i x y c <;> rfl

end Bits
