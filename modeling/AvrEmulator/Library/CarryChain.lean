import Mathlib.Data.BitVec
import Mathlib.Tactic.Ring
import Mathlib.Tactic.Linarith
import Mathlib.Tactic.LinearCombination

/-! Little-endian numerals over fixed-width digits, and the digit-by-digit
operations that thread a carry or a borrow through them. -/

namespace Numeral

variable {w : Nat}

def value : List (BitVec w) → Nat
  | [] => 0
  | d :: ds => d.toNat + 2 ^ w * value ds

theorem pow_length_cons (d : BitVec w) (ds : List (BitVec w)) :
    2 ^ (w * (d :: ds).length) = 2 ^ w * 2 ^ (w * ds.length) := by
  rw [List.length_cons, ← Nat.pow_add]
  ring_nf

theorem value_lt (ds : List (BitVec w)) : value ds < 2 ^ (w * ds.length) := by
  induction ds with
  | nil => simp [value]
  | cons d ds ih =>
    rw [pow_length_cons, value]
    calc
      d.toNat + 2 ^ w * value ds < 2 ^ w + 2 ^ w * value ds := Nat.add_lt_add_right d.isLt _
      _ = 2 ^ w * (value ds + 1) := by ring
      _ ≤ 2 ^ w * 2 ^ (w * ds.length) := Nat.mul_le_mul_left _ ih

theorem value_eq_zero (ds : List (BitVec w)) : value ds = 0 ↔ ∀ d ∈ ds, d = 0 := by
  induction ds with
  | nil => simp [value]
  | cons d ds ih =>
    have hpos : 2 ^ w ≠ 0 := (Nat.two_pow_pos w).ne'
    have hd : d.toNat = 0 ↔ d = 0 := by
      constructor
      · intro h
        exact BitVec.eq_of_toNat_eq (by simpa using h)
      · rintro rfl
        simp
    simp only [value, Nat.add_eq_zero_iff, Nat.mul_eq_zero, hpos, false_or, hd, ih,
      List.forall_mem_cons]

/-- The two's complement reading. -/
def signed (ds : List (BitVec w)) : Int := (BitVec.ofNat (w * ds.length) (value ds)).toInt

theorem signed_eq (ds : List (BitVec w)) : signed ds =
    if 2 * value ds < 2 ^ (w * ds.length) then (value ds : Int)
    else (value ds : Int) - (2 ^ (w * ds.length) : Nat) := by
  rw [signed, BitVec.toInt_eq_toNat_cond, BitVec.toNat_ofNat, Nat.mod_eq_of_lt (value_lt ds)]

theorem signed_singleton (d : BitVec w) : signed [d] = d.toInt := by
  rw [signed_eq, BitVec.toInt_eq_toNat_cond]
  simp [value]

/-- The sign is in the last digit: every other digit counts as it stands. -/
theorem signed_cons (hw : 0 < w) (d : BitVec w) {ds : List (BitVec w)} (hds : ds ≠ []) :
    signed (d :: ds) = d.toNat + 2 ^ w * signed ds := by
  have hlen : 0 < ds.length := List.length_pos_iff.mpr hds
  obtain ⟨k, hk⟩ : ∃ k, w * ds.length = k + 1 :=
    Nat.exists_eq_succ_of_ne_zero (Nat.mul_pos hw hlen).ne'
  have hlt := value_lt ds
  have hd := d.isLt
  rw [signed_eq, signed_eq, pow_length_cons, hk, value, Nat.pow_succ] at *
  by_cases h : value ds < 2 ^ k
  · have hle : 2 ^ w * (value ds + 1) ≤ 2 ^ w * 2 ^ k := Nat.mul_le_mul_left _ h
    have lower : 2 * (d.toNat + 2 ^ w * value ds) < 2 ^ w * (2 ^ k * 2) := by
      rw [Nat.mul_add, Nat.mul_one] at hle
      rw [← Nat.mul_assoc]
      omega
    rw [if_pos lower, if_pos (by omega)]
    push_cast
    ring
  · have hle : 2 ^ w * 2 ^ k ≤ 2 ^ w * value ds := Nat.mul_le_mul_left _ (by omega)
    have upper : ¬ 2 * (d.toNat + 2 ^ w * value ds) < 2 ^ w * (2 ^ k * 2) := by
      rw [← Nat.mul_assoc]
      omega
    rw [if_neg upper, if_neg (by omega)]
    push_cast
    ring

/-- The numbers of so many two's complement bits. -/
def FitsSigned (bits : Nat) (x : Int) : Prop := -(2 ^ (bits - 1)) ≤ x ∧ x < 2 ^ (bits - 1)

/-- A bound that is a whole number of units of the next digit is decided there. -/
theorem digit_add_lt (d : BitVec w) (x y : Int) :
    (d.toNat : Int) + 2 ^ w * x < 2 ^ w * y ↔ x < y := by
  have hd : (d.toNat : Int) < 2 ^ w := by exact_mod_cast d.isLt
  have hpos : (0 : Int) < 2 ^ w := by positivity
  constructor
  · intro h
    by_contra hle
    have := mul_le_mul_of_nonneg_left (not_lt.mp hle) hpos.le
    have hd0 : (0 : Int) ≤ d.toNat := by positivity
    linarith
  · intro h
    have := mul_le_mul_of_nonneg_left (Int.add_one_le_iff.mpr h) hpos.le
    linarith

theorem digit_add_neg (d : BitVec w) (x : Int) : (d.toNat : Int) + 2 ^ w * x < 0 ↔ x < 0 := by
  simpa using digit_add_lt d x 0

theorem digit_add_fits (d : BitVec w) (x : Int) {k : Nat} (hk : 0 < k) :
    FitsSigned (w + k) (d.toNat + 2 ^ w * x) ↔ FitsSigned k x := by
  have power : (2 : Int) ^ (w + k - 1) = 2 ^ w * 2 ^ (k - 1) := by
    rw [← pow_add]
    congr 1
    omega
  have lower := digit_add_lt d x (-(2 ^ (k - 1)))
  rw [mul_neg] at lower
  simp only [FitsSigned, power, digit_add_lt, ← not_lt, lower]

end Numeral

/-- A digit operation with a carry. `exact` says that digit and carry together
are the true result; `sign` is 1 for addition and -1 for subtraction. -/
structure CarryStep (w : Nat) where
  sign : Int
  digit : BitVec w → BitVec w → Bool → BitVec w
  carry : BitVec w → BitVec w → Bool → Bool
  exact : ∀ a b c, (a.toNat : Int) + sign * (b.toNat + c.toNat) =
    (digit a b c).toNat + sign * (2 ^ w * (carry a b c).toNat)

namespace CarryStep

open Numeral

variable {w : Nat} (f : CarryStep w)

abbrev fsts (ps : List (BitVec w × BitVec w)) : List (BitVec w) := ps.map Prod.fst
abbrev snds (ps : List (BitVec w × BitVec w)) : List (BitVec w) := ps.map Prod.snd

def digits : Bool → List (BitVec w × BitVec w) → List (BitVec w)
  | _, [] => []
  | c, (a, b) :: ps => f.digit a b c :: digits (f.carry a b c) ps

def carries : Bool → List (BitVec w × BitVec w) → Bool
  | c, [] => c
  | c, (a, b) :: ps => carries (f.carry a b c) ps

@[simp] theorem length_digits (c : Bool) (ps : List (BitVec w × BitVec w)) :
    (f.digits c ps).length = ps.length := by
  induction ps generalizing c with
  | nil => rfl
  | cons p ps ih => simp only [digits, List.length_cons, ih]

/-- Digits and last carry are the true result on the whole numerals. -/
theorem exact_digits (c : Bool) (ps : List (BitVec w × BitVec w)) :
    (value (fsts ps) : Int) + f.sign * (value (snds ps) + c.toNat) =
      value (f.digits c ps) + f.sign * (2 ^ (w * ps.length) * (f.carries c ps).toNat) := by
  induction ps generalizing c with
  | nil => simp [value, digits, carries]
  | cons p ps ih =>
    obtain ⟨a, b⟩ := p
    have here := f.exact a b c
    have rest := ih (f.carry a b c)
    have power : (2 : Int) ^ (w * (ps.length + 1)) = 2 ^ w * 2 ^ (w * ps.length) := by
      rw [← pow_add]
      ring_nf
    simp only [List.map_cons, value, digits, carries, List.length_cons, power]
    push_cast
    linear_combination here + 2 ^ w * rest

theorem value_digits (ps : List (BitVec w × BitVec w)) :
    (value (f.digits false ps) : Int) =
      ((value (fsts ps) : Int) + f.sign * value (snds ps)) % 2 ^ (w * ps.length) := by
  have total := f.exact_digits false ps
  have bound := value_lt (f.digits false ps)
  rw [length_digits] at bound
  have small : (value (f.digits false ps) : Int) < 2 ^ (w * ps.length) := by exact_mod_cast bound
  have shift : (value (fsts ps) : Int) + f.sign * value (snds ps) = value (f.digits false ps) +
      2 ^ (w * ps.length) * (f.sign * (f.carries false ps).toNat) := by
    simp only [Bool.toNat_false, Nat.cast_zero, add_zero] at total
    rw [total]
    ring
  rw [shift, Int.add_mul_emod_self_left, Int.emod_eq_of_lt (by positivity) small]

theorem carries_iff_lt (hf : f.sign = -1) (ps : List (BitVec w × BitVec w)) :
    f.carries false ps = true ↔ value (fsts ps) < value (snds ps) := by
  have total := f.exact_digits false ps
  have bound := value_lt (f.digits false ps)
  rw [length_digits] at bound
  have small : (value (f.digits false ps) : Int) < 2 ^ (w * ps.length) := by exact_mod_cast bound
  rw [hf] at total
  cases hc : f.carries false ps <;>
    simp only [hc, Bool.toNat_false, Bool.toNat_true, Nat.cast_zero, Nat.cast_one] at total
  · simp only [Bool.false_eq_true, false_iff]
    omega
  · simp only [true_iff]
    linarith

theorem digits_zero_iff_eq (hf : f.sign = -1) (ps : List (BitVec w × BitVec w)) :
    (∀ d ∈ f.digits false ps, d = 0) ↔ value (fsts ps) = value (snds ps) := by
  have total := f.value_digits ps
  have ha := value_lt (fsts ps)
  have hb := value_lt (snds ps)
  rw [List.length_map] at ha hb
  rw [← value_eq_zero]
  rw [hf, neg_one_mul, ← sub_eq_add_neg] at total
  constructor
  · intro zero
    rw [zero] at total
    obtain ⟨q, hq⟩ := Int.dvd_of_emod_eq_zero total.symm
    have close : |(value (fsts ps) : Int) - value (snds ps)| < 2 ^ (w * ps.length) := by
      rw [abs_lt]
      constructor <;> (push_cast [← @Nat.cast_lt Int] at ha hb; linarith)
    have := Int.eq_zero_of_abs_lt_dvd ⟨q, hq⟩ close
    omega
  · intro same
    rw [same, sub_self, Int.zero_emod] at total
    exact_mod_cast total

theorem carries_iff_ge (hf : f.sign = 1) (ps : List (BitVec w × BitVec w)) :
    f.carries false ps = true ↔ 2 ^ (w * ps.length) ≤ value (fsts ps) + value (snds ps) := by
  have total := f.exact_digits false ps
  have bound := value_lt (f.digits false ps)
  rw [length_digits] at bound
  rw [hf] at total
  cases hc : f.carries false ps <;>
    simp only [hc, Bool.toNat_false, Bool.toNat_true, Nat.cast_zero, Nat.cast_one, one_mul,
      mul_zero, mul_one, add_zero] at total
  · have sum : value (fsts ps) + value (snds ps) = value (f.digits false ps) := by
      exact_mod_cast total
    simp only [Bool.false_eq_true, false_iff]
    omega
  · have sum : value (fsts ps) + value (snds ps) =
        value (f.digits false ps) + 2 ^ (w * ps.length) := by exact_mod_cast total
    simp only [true_iff]
    omega

/-! ## Signed results -/

/-- The exact result on the two's complement readings. -/
def signedTotal (c : Bool) (ps : List (BitVec w × BitVec w)) : Int :=
  signed (fsts ps) + f.sign * (signed (snds ps) + c.toNat)

theorem signedTotal_singleton (c : Bool) (a b : BitVec w) :
    f.signedTotal c [(a, b)] = a.toInt + f.sign * (b.toInt + c.toNat) := by
  simp only [signedTotal, List.map_cons, List.map_nil, signed_singleton]

theorem signedTotal_cons (hw : 0 < w) (c : Bool) (a b : BitVec w)
    {ps : List (BitVec w × BitVec w)} (hps : ps ≠ []) :
    f.signedTotal c ((a, b) :: ps) =
      (f.digit a b c).toNat + 2 ^ w * f.signedTotal (f.carry a b c) ps := by
  have here := f.exact a b c
  have hf : fsts ps ≠ [] := by simpa using hps
  have hs : snds ps ≠ [] := by simpa using hps
  simp only [signedTotal, List.map_cons, signed_cons hw a hf, signed_cons hw b hs]
  linear_combination here

/-- Sign and overflow of the whole are those of its last digit. -/
theorem signedTotal_cons_neg (hw : 0 < w) (c : Bool) (a b : BitVec w)
    {ps : List (BitVec w × BitVec w)} (hps : ps ≠ []) :
    f.signedTotal c ((a, b) :: ps) < 0 ↔ f.signedTotal (f.carry a b c) ps < 0 := by
  rw [f.signedTotal_cons hw c a b hps, digit_add_neg]

theorem signedTotal_cons_fits (hw : 0 < w) (c : Bool) (a b : BitVec w)
    {ps : List (BitVec w × BitVec w)} (hps : ps ≠ []) :
    FitsSigned (w * (ps.length + 1)) (f.signedTotal c ((a, b) :: ps)) ↔
      FitsSigned (w * ps.length) (f.signedTotal (f.carry a b c) ps) := by
  have hlen : 0 < w * ps.length := Nat.mul_pos hw (List.length_pos_iff.mpr hps)
  rw [f.signedTotal_cons hw c a b hps, Nat.mul_add, Nat.mul_one, Nat.add_comm,
    digit_add_fits _ _ hlen]

theorem signed_digits_cons_neg (hw : 0 < w) (c : Bool) (a b : BitVec w)
    {ps : List (BitVec w × BitVec w)} (hps : ps ≠ []) :
    signed (f.digits c ((a, b) :: ps)) < 0 ↔ signed (f.digits (f.carry a b c) ps) < 0 := by
  have hne : f.digits (f.carry a b c) ps ≠ [] := by
    rw [← List.length_pos_iff, length_digits]
    exact List.length_pos_iff.mpr hps
  rw [digits, signed_cons hw _ hne, digit_add_neg]

end CarryStep
