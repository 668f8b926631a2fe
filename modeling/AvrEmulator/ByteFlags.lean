import AvrEmulator.Library.CarryChain
import AvrEmulator.Executor.Arithmetic

/-! What the flags of one byte addition or subtraction say about the exact result. -/

namespace AvrEmulator

open Numeral

def carryByte (c : Bool) : Byte := BitVec.setWidth 8 (BitVec.ofBool c)

theorem carryByte_toNat (c : Bool) : (carryByte c).toNat = c.toNat := by cases c <;> rfl

theorem carryIn_eq (s : AvrState) : carryIn s.sreg = carryByte (s.getFlag .C) := by
  have h := BitVec.and_one_eq_setWidth_ofBool_getLsbD (x := s.sreg >>> SregBit.C.index)
  simpa [carryIn, carryByte, AvrState.getFlag_eq, SregBit.index] using h

theorem addition_toNat (a b ci : Byte) (k : Bool) :
    (addition a b ci k).1.toNat = (a.toNat + b.toNat + ci.toNat) % 256 := by
  simp only [addition, BitVec.toNat_setWidth, BitVec.toNat_add]
  omega

theorem addition_c (a b ci : Byte) (k : Bool) :
    (addition a b ci k).2.c = decide (256 ≤ a.toNat + b.toNat + ci.toNat) := by
  have := a.isLt
  have := b.isLt
  have := ci.isLt
  simp only [addition, gt_iff_lt, BitVec.lt_def, BitVec.toNat_setWidth, BitVec.toNat_add,
    decide_eq_decide, show (0xFF : Word).toNat = 255 from rfl]
  omega

theorem subtraction_toNat (a b ci : Byte) (k : Bool) :
    (subtraction a b ci k).1.toNat = (512 + a.toNat - b.toNat - ci.toNat) % 256 := by
  have := a.isLt
  have := b.isLt
  have := ci.isLt
  simp only [subtraction, BitVec.toNat_setWidth, BitVec.toNat_sub]
  omega

theorem subtraction_c (a b ci : Byte) (k : Bool) :
    (subtraction a b ci k).2.c = decide (a.toNat < b.toNat + ci.toNat) := by
  have := a.isLt
  have := b.isLt
  have := ci.isLt
  simp only [subtraction, gt_iff_lt, BitVec.lt_def, BitVec.toNat_setWidth, BitVec.toNat_sub,
    decide_eq_decide, show (0xFF : Word).toNat = 255 from rfl]
  omega

theorem msb_eq (x : Byte) : x.msb = decide (128 ≤ x.toNat) := BitVec.msb_eq_decide x

theorem toInt_eq (x : Byte) : x.toInt = (x.toNat : Int) - if x.msb then 256 else 0 := by
  have := x.isLt
  rw [BitVec.toInt_eq_toNat_cond, msb_eq]
  by_cases h : 2 * x.toNat < 2 ^ 8
  · rw [if_pos h, if_neg (by simp only [decide_eq_true_eq]; omega)]
    omega
  · rw [if_neg h, if_pos (by simp only [decide_eq_true_eq]; omega)]
    omega

theorem addition_n (a b ci : Byte) (k : Bool) :
    (addition a b ci k).2.n = (addition a b ci k).1.msb := decide_and_sign _

theorem addition_v (a b ci : Byte) (k : Bool) : (addition a b ci k).2.v =
    ((a.msb ^^ (addition a b ci k).1.msb) && (b.msb ^^ (addition a b ci k).1.msb)) := by
  rw [← BitVec.msb_xor, ← BitVec.msb_xor, ← BitVec.msb_and]
  exact decide_and_sign _

theorem subtraction_n (a b ci : Byte) (k : Bool) :
    (subtraction a b ci k).2.n = (subtraction a b ci k).1.msb := decide_and_sign _

theorem subtraction_v (a b ci : Byte) (k : Bool) : (subtraction a b ci k).2.v =
    ((a.msb ^^ b.msb) && (a.msb ^^ (subtraction a b ci k).1.msb)) := by
  rw [← BitVec.msb_xor, ← BitVec.msb_xor, ← BitVec.msb_and]
  exact decide_and_sign _

def addStep : CarryStep 8 where
  sign := 1
  digit a b c := (addition a b (carryByte c) true).1
  carry a b c := (addition a b (carryByte c) true).2.c
  exact a b c := by
    have := c.toNat_le
    have := a.isLt
    have := b.isLt
    rw [addition_toNat, addition_c, carryByte_toNat]
    by_cases h : 256 ≤ a.toNat + b.toNat + c.toNat <;> simp [h] <;> omega

def subStep : CarryStep 8 where
  sign := -1
  digit a b c := (subtraction a b (carryByte c) true).1
  carry a b c := (subtraction a b (carryByte c) true).2.c
  exact a b c := by
    have := c.toNat_le
    have := a.isLt
    have := b.isLt
    rw [subtraction_toNat, subtraction_c, carryByte_toNat]
    by_cases h : a.toNat < b.toNat + c.toNat <;> simp [h] <;> omega

/-- What the flags of one link say, with `x` the exact signed result. -/
structure LinkFlags (f : CarryStep 8) (a b : Byte) (c z : Bool) (result : Byte × Flags) : Prop where
  digit : result.1 = f.digit a b c
  carry : result.2.c = f.carry a b c
  zero : result.2.z = (z && decide (result.1 = 0))
  negative : result.2.n = true ↔ signed [result.1] < 0
  overflow : result.2.v = true ↔ ¬ FitsSigned 8 (f.signedTotal c [(a, b)])
  sign : result.2.s = true ↔ f.signedTotal c [(a, b)] < 0

theorem msb_iff (x : Byte) : x.msb = true ↔ signed [x] < 0 := by
  have := x.isLt
  rw [signed_singleton, toInt_eq, msb_eq]
  by_cases h : 128 ≤ x.toNat
  · simp only [h, decide_true, if_true, true_iff]
    omega
  · simp [h]

theorem addition_flags (a b : Byte) (c z : Bool) :
    LinkFlags addStep a b c z (addition a b (carryByte c) z) := by
  have value := addition_toNat a b (carryByte c) z
  have n := addition_n a b (carryByte c) z
  have v := addition_v a b (carryByte c) z
  have s : (addition a b (carryByte c) z).2.s =
    ((addition a b (carryByte c) z).2.n ^^ (addition a b (carryByte c) z).2.v) := rfl
  have total : addStep.signedTotal c [(a, b)] = a.toInt + (b.toInt + c.toNat) := by
    rw [addStep.signedTotal_singleton, addStep, one_mul]
  rw [carryByte_toNat] at value
  have ha := a.isLt
  have hb := b.isLt
  have hc := c.toNat_le
  refine ⟨rfl, rfl, rfl, by rw [n, msb_iff], ?_, ?_⟩ <;>
  · simp only [total, s, v, n, FitsSigned, toInt_eq, msb_eq, value]
    by_cases ma : 128 ≤ a.toNat <;> by_cases mb : 128 ≤ b.toNat <;>
      by_cases mr : 128 ≤ (a.toNat + b.toNat + c.toNat) % 256 <;> simp [ma, mb, mr] <;> omega

theorem subtraction_flags (a b : Byte) (c z : Bool) :
    LinkFlags subStep a b c z (subtraction a b (carryByte c) z) := by
  have value := subtraction_toNat a b (carryByte c) z
  have n := subtraction_n a b (carryByte c) z
  have v := subtraction_v a b (carryByte c) z
  have s : (subtraction a b (carryByte c) z).2.s =
    ((subtraction a b (carryByte c) z).2.n ^^ (subtraction a b (carryByte c) z).2.v) := rfl
  have total : subStep.signedTotal c [(a, b)] = a.toInt - (b.toInt + c.toNat) := by
    rw [subStep.signedTotal_singleton, subStep, neg_one_mul, sub_eq_add_neg]
  rw [carryByte_toNat] at value
  have ha := a.isLt
  have hb := b.isLt
  have hc := c.toNat_le
  refine ⟨rfl, rfl, rfl, by rw [n, msb_iff], ?_, ?_⟩ <;>
  · simp only [total, s, v, n, FitsSigned, toInt_eq, msb_eq, value]
    by_cases ma : 128 ≤ a.toNat <;> by_cases mb : 128 ≤ b.toNat <;>
      by_cases mr : 128 ≤ (512 + a.toNat - b.toNat - c.toNat) % 256 <;> simp [ma, mb, mr] <;> omega

end AvrEmulator
