import AvrEmulator.Library.CarryChain

/-! Shifting numerals by one bit, a digit at a time from the most significant one. The lists
of digits are in that order here, so a numeral is the value of the reversed list. -/

namespace Numeral

variable {w : Nat}

theorem value_append (xs ys : List (BitVec w)) :
    value (xs ++ ys) = value xs + 2 ^ (w * xs.length) * value ys := by
  induction xs with
  | nil => simp [value]
  | cons x xs ih =>
    rw [List.cons_append, value, ih, value, pow_length_cons]
    ring

theorem value_reverse_cons (d : BitVec w) (ds : List (BitVec w)) :
    value (d :: ds).reverse = value ds.reverse + 2 ^ (w * ds.length) * d.toNat := by
  rw [List.reverse_cons, value_append, List.length_reverse]
  simp [value]

theorem signed_append_singleton (hw : 0 < w) (ds : List (BitVec w)) (d : BitVec w) :
    signed (ds ++ [d]) = value ds + 2 ^ (w * ds.length) * d.toInt := by
  induction ds with
  | nil => simp [value, signed_singleton]
  | cons x xs ih =>
    have power : (2 : Int) ^ (w * (xs.length + 1)) = 2 ^ w * 2 ^ (w * xs.length) := by
      rw [← pow_add]
      ring_nf
    rw [List.cons_append, signed_cons hw x (by simp), ih, value, List.length_cons, power]
    push_cast
    ring

theorem signed_reverse_cons (hw : 0 < w) (d : BitVec w) (ds : List (BitVec w)) :
    signed (d :: ds).reverse = value ds.reverse + 2 ^ (w * ds.length) * d.toInt := by
  rw [List.reverse_cons, signed_append_singleton hw, List.length_reverse]

/-- A digit shifted right, with this bit from the left. -/
def halve (c : Bool) (d : BitVec w) : BitVec w := (BitVec.cons c d >>> 1).setWidth w

/-- Each digit hands its lowest bit on. -/
def halves : Bool → List (BitVec w) → List (BitVec w)
  | _, [] => []
  | c, d :: ds => halve c d :: halves (d.getLsbD 0) ds

def lastBit : Bool → List (BitVec w) → Bool
  | c, [] => c
  | _, d :: ds => lastBit (d.getLsbD 0) ds

@[simp] theorem length_halves (c : Bool) (ds : List (BitVec w)) :
    (halves c ds).length = ds.length := by
  induction ds generalizing c with
  | nil => rfl
  | cons d ds ih => simp only [halves, List.length_cons, ih]

theorem lowest_bit (d : BitVec w) : (d.getLsbD 0).toNat = d.toNat % 2 := by
  rw [BitVec.getLsbD, Nat.testBit_zero]
  rcases Nat.mod_two_eq_zero_or_one d.toNat with even | odd
  · rw [even]
    rfl
  · rw [odd]
    rfl

theorem halve_toNat (c : Bool) (d : BitVec w) :
    (halve c d).toNat = (2 ^ w * c.toNat + d.toNat) / 2 := by
  have bound := (BitVec.cons c d).isLt
  have whole : (BitVec.cons c d).toNat = 2 ^ w * c.toNat + d.toNat := by
    rw [BitVec.toNat_cons', Nat.shiftLeft_eq, Nat.mul_comm]
  rw [whole, Nat.pow_succ] at bound
  rw [halve, BitVec.toNat_setWidth, BitVec.toNat_ushiftRight, whole, Nat.shiftRight_eq_div_pow,
    Nat.pow_one, Nat.mod_eq_of_lt (by omega)]

theorem halve_exact (hw : 0 < w) (c : Bool) (d : BitVec w) :
    2 * (halve c d).toNat + (d.getLsbD 0).toNat = 2 ^ w * c.toNat + d.toNat := by
  obtain ⟨k, rfl⟩ := Nat.exists_eq_add_one_of_ne_zero hw.ne'
  have even : 2 ^ (k + 1) * c.toNat = 2 * (2 ^ k * c.toNat) := by ring
  rw [halve_toNat, lowest_bit, even]
  omega

/-- Digits and last bit are the whole numeral, with the first bit above it. -/
theorem halves_exact (hw : 0 < w) (c : Bool) (ds : List (BitVec w)) :
    2 * value (halves c ds).reverse + (lastBit c ds).toNat =
      2 ^ (w * ds.length) * c.toNat + value ds.reverse := by
  induction ds generalizing c with
  | nil => simp [value, halves, lastBit]
  | cons d ds ih =>
    have here := halve_exact hw c d
    have rest := ih (d.getLsbD 0)
    rw [halves, lastBit, value_reverse_cons, value_reverse_cons, length_halves, pow_length_cons]
    linear_combination rest + 2 ^ (w * ds.length) * here

/-- The numeral shifted right. -/
theorem value_halves (hw : 0 < w) (ds : List (BitVec w)) :
    value (halves false ds).reverse = value ds.reverse / 2 ∧
      lastBit false ds = (value ds.reverse).testBit 0 := by
  have exact := halves_exact hw false ds
  rw [Bool.toNat_false, Nat.mul_zero, Nat.zero_add] at exact
  rw [Nat.testBit_zero, ← exact]
  cases lastBit false ds with
  | false => simp
  | true =>
    rw [Bool.toNat_true]
    refine ⟨by omega, (decide_eq_true ?_).symm⟩
    omega

theorem signed_lowest_bit (hw : 0 < w) (d : BitVec w) :
    2 * (d.toInt / 2) + (d.getLsbD 0).toNat = d.toInt := by
  obtain ⟨k, rfl⟩ := Nat.exists_eq_add_one_of_ne_zero hw.ne'
  have even : ((2 ^ (k + 1) : Nat) : Int) = 2 * 2 ^ k := by
    push_cast
    ring
  rw [lowest_bit, BitVec.toInt_eq_toNat_cond, even]
  split <;> omega

/-- The numeral shifted right, its sign kept: the top digit keeps it. -/
theorem signed_halves (hw : 0 < w) (d : BitVec w) (ds : List (BitVec w)) :
    signed (d.sshiftRight 1 :: halves (d.getLsbD 0) ds).reverse = signed (d :: ds).reverse / 2 ∧
      lastBit (d.getLsbD 0) ds = (value (d :: ds).reverse).testBit 0 := by
  refine ⟨?_, (value_halves hw (d :: ds)).2⟩
  have top := signed_lowest_bit hw d
  have rest : (2 * value (halves (d.getLsbD 0) ds).reverse +
      (lastBit (d.getLsbD 0) ds).toNat : Int) =
      2 ^ (w * ds.length) * (d.getLsbD 0).toNat + value ds.reverse := by
    exact_mod_cast halves_exact hw (d.getLsbD 0) ds
  have shifted : (d.sshiftRight 1).toInt = d.toInt / 2 := by
    rw [BitVec.toInt_sshiftRight, Int.shiftRight_eq_div_pow]
    rfl
  have exact : 2 * signed (d.sshiftRight 1 :: halves (d.getLsbD 0) ds).reverse +
      (lastBit (d.getLsbD 0) ds).toNat = signed (d :: ds).reverse := by
    rw [signed_reverse_cons hw, signed_reverse_cons hw, length_halves, shifted]
    linear_combination rest + 2 ^ (w * ds.length) * top
  have small := Bool.toNat_le (lastBit (d.getLsbD 0) ds)
  omega

end Numeral

namespace CarryStep

open Numeral

/-! Adding a numeral to itself shifts it left. -/

variable {w : Nat} (f : CarryStep w) (ds : List (BitVec w))

theorem fsts_doubled : fsts (ds.map fun d => (d, d)) = ds := by
  rw [fsts, List.map_map]
  exact List.map_id ds

theorem snds_doubled : snds (ds.map fun d => (d, d)) = ds := by
  rw [snds, List.map_map]
  exact List.map_id ds

theorem value_doubled (hf : f.sign = 1) :
    value (f.digits false (ds.map fun d => (d, d))) = 2 * value ds % 2 ^ (w * ds.length) := by
  have sum := f.value_digits (ds.map fun d => (d, d))
  rw [hf, fsts_doubled, snds_doubled, one_mul, ← two_mul, List.length_map] at sum
  exact_mod_cast sum

theorem carries_doubled (hf : f.sign = 1) (hw : 0 < w) (hds : ds ≠ []) :
    f.carries false (ds.map fun d => (d, d)) = (value ds).testBit (w * ds.length - 1) := by
  have carried := f.carries_iff_ge hf (ds.map fun d => (d, d))
  have bound := value_lt ds
  have bits : 0 < w * ds.length := Nat.mul_pos hw (List.length_pos_iff.mpr hds)
  obtain ⟨k, hk⟩ := Nat.exists_eq_add_one_of_ne_zero bits.ne'
  rw [fsts_doubled, snds_doubled, List.length_map, hk, Nat.pow_succ] at carried
  rw [hk] at bound
  rw [hk, Nat.add_sub_cancel, Bool.eq_iff_iff, carried]
  constructor
  · intro top
    exact Nat.testBit_of_two_pow_le_and_two_pow_add_one_gt (by omega) bound
  · intro top
    have := Nat.ge_two_pow_of_testBit top
    omega

end CarryStep
