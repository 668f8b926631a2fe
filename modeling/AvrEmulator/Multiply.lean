import AvrEmulator.OperandFields

/-! The multiply family against the exact integer products of its operands. -/

namespace AvrEmulator

inductive Multiplication where
  | MUL | MULS | MULSU | FMUL | FMULS | FMULSU
  deriving DecidableEq, Repr

def multiplication : AvrOp → Option Multiplication
  | .MUL => some .MUL
  | .MULS => some .MULS
  | .MULSU => some .MULSU
  | .FMUL => some .FMUL
  | .FMULS => some .FMULS
  | .FMULSU => some .FMULSU
  | _ => none

namespace Multiplication

/-- `d dddd` counts from R0, `dddd` and `ddd` from R16. -/
def dest : Multiplication → Word → Nat
  | .MUL, w => (w.extractLsb' 4 5).toNat
  | .MULS, w => 16 + (w.extractLsb' 4 4).toNat
  | .MULSU, w | .FMUL, w | .FMULS, w | .FMULSU, w => 16 + (w.extractLsb' 4 3).toNat

def source : Multiplication → Word → Nat
  | .MUL, w => (w.extractLsb' 9 1 ++ w.extractLsb' 0 4).toNat
  | .MULS, w => 16 + (w.extractLsb' 0 4).toNat
  | .MULSU, w | .FMUL, w | .FMULS, w | .FMULSU, w => 16 + (w.extractLsb' 0 3).toNat

/-- The first operand, signed in all but MUL and FMUL. -/
def left : Multiplication → Byte → Int
  | .MUL, x | .FMUL, x => x.toNat
  | .MULS, x | .MULSU, x | .FMULS, x | .FMULSU, x => x.toInt

/-- The second operand, signed in MULS and FMULS. -/
def right : Multiplication → Byte → Int
  | .MULS, x | .FMULS, x => x.toInt
  | .MUL, x | .MULSU, x | .FMUL, x | .FMULSU, x => x.toNat

def fractional : Multiplication → Bool
  | .MUL | .MULS | .MULSU => false
  | .FMUL | .FMULS | .FMULSU => true

/-- The exact product. -/
def product (op : Multiplication) (w : Word) (s : AvrState) : Int :=
  op.left (s.reg (op.dest w)) * op.right (s.reg (op.source w))

/-- What R1:R0 receives, before it is reduced to 16 bits. -/
def scaled (op : Multiplication) (p : Int) : Int := if op.fractional then 2 * p else p

theorem dest_lt (op : Multiplication) (w : Word) : op.dest w < 32 := by
  cases op <;> simp only [dest] <;> omega

theorem source_lt (op : Multiplication) (w : Word) : op.source w < 32 := by
  cases op <;> simp only [source] <;> omega

end Multiplication

/-- R1:R0. -/
def AvrState.productPair (s : AvrState) : Word := s.reg 1 ++ s.reg 0

/-- The effect of a multiplication with exact product `p`. -/
structure MultiplyContract (op : Multiplication) (p : Int) (s s' : AvrState) : Prop where
  product : s'.productPair = BitVec.ofInt 16 (op.scaled p)
  carry : s'.getFlag .C = (BitVec.ofInt 16 p).getLsbD 15
  zero : s'.getFlag .Z = decide (s'.productPair = 0)
  /-- Of FMUL no bit is lost: C:R1:R0 is twice the product. -/
  whole : op = .FMUL → ((s'.getFlag .C).toNat * 2 ^ 16 + s'.productPair.toNat : Int) = 2 * p
  kept : ∀ b, b ≠ .C → b ≠ .Z → s'.getFlag b = s.getFlag b
  others : ∀ i, 2 ≤ i → s'.reg i = s.reg i
  frame : s' = { s with r := s'.r, sreg := s'.sreg }

/-- What `putProduct` leaves. -/
def AvrState.withProduct (s : AvrState) (result16 : Word) : AvrState :=
  ((s.setReg 0 ((result16 &&& 0xFF).setWidth 8)).setReg 1
    ((result16 >>> 8).setWidth 8)).withFlags 0xFC
      { z := result16 = 0, c := result16 &&& 0x8000 ≠ 0 }

theorem run_putProduct (result16 : Word) (s : AvrState) :
    (putProduct result16).run s = some ((), s.withProduct result16) := by
  rw [putProduct, Checked.run_bind_of (run_setRegAt _ (by decide)),
    Checked.run_bind_of (run_setRegAt _ (by decide))]
  rfl

namespace Multiplication

/-- The 16-bit product as the executors compute it. -/
def result16 : Multiplication → Byte → Byte → Word
  | .MUL, rd, rr => rd.setWidth 16 * rr.setWidth 16
  | .MULS, rd, rr => rd.signExtend 16 * rr.signExtend 16
  | .MULSU, rd, rr => rd.signExtend 16 * rr.setWidth 16
  | .FMUL, rd, rr => (rd.setWidth 16 * rr.setWidth 16) <<< 1
  | .FMULS, rd, rr => (rd.signExtend 16 * rr.signExtend 16) <<< 1
  | .FMULSU, rd, rr => (rd.signExtend 16 * rr.setWidth 16) <<< 1

/-- The one program that the six executors are. -/
def execute (op : Multiplication) (w : Word) : Cpu Unit := do
  let rd ← regAt (op.dest w)
  let rr ← regAt (op.source w)
  putProduct (op.result16 rd rr)

theorem execute_eq (op : Multiplication) (w : Word) : op.execute w =
    match op with
    | .MUL => executeMUL (decodeRdRr w)
    | .MULS => executeMULS (decodeRd06Rr06 w)
    | .MULSU => executeMULSU (decodeRdRrMpy w)
    | .FMUL => executeFMUL (decodeRdRrMpy w)
    | .FMULS => executeFMULS (decodeRdRrMpy w)
    | .FMULSU => executeFMULSU (decodeRdRrMpy w) := by
  cases op with
  | MUL => simp only [execute, dest, source, result16, executeMUL, decodeRdRr_d, decodeRdRr_r]
  | MULS =>
    simp only [execute, dest, source, result16, executeMULS, decodeRd06Rr06_d, decodeRd06Rr06_r,
      Nat.add_comm]
  | MULSU =>
    simp only [execute, dest, source, result16, executeMULSU, decodeRdRrMpy_d, decodeRdRrMpy_r]
  | FMUL =>
    simp only [execute, dest, source, result16, executeFMUL, decodeRdRrMpy_d, decodeRdRrMpy_r]
  | FMULS =>
    simp only [execute, dest, source, result16, executeFMULS, decodeRdRrMpy_d, decodeRdRrMpy_r]
  | FMULSU =>
    simp only [execute, dest, source, result16, executeFMULSU, decodeRdRrMpy_d, decodeRdRrMpy_r]

theorem dispatch_eq {row : Opcode} {op : Multiplication} (hop : multiplication row.op = some op)
    (w second : Word) : dispatch row w second = onCpu (op.execute w) := by
  rw [execute_eq]
  unfold multiplication at hop
  split at hop
  all_goals cases hop
  all_goals next h => simp only [dispatch, h]

theorem run_execute (op : Multiplication) (w : Word) (s : AvrState) : (op.execute w).run s =
    some ((), s.withProduct (op.result16 (s.reg (op.dest w)) (s.reg (op.source w)))) := by
  rw [execute, Checked.run_bind_of (run_regAt (op.dest_lt w)),
    Checked.run_bind_of (run_regAt (op.source_lt w)), run_putProduct]

theorem setWidth_eq_ofInt (x : Byte) : x.setWidth 16 = BitVec.ofInt 16 x.toNat := by
  rw [BitVec.ofInt_natCast, BitVec.ofNat_toNat]

theorem double_eq_shiftLeft (p : Int) : BitVec.ofInt 16 (2 * p) = BitVec.ofInt 16 p <<< 1 := by
  rw [BitVec.shiftLeft_eq_mul_twoPow, BitVec.mul_comm, BitVec.ofInt_mul]
  rfl

/-- The executors reduce the exact product only once. -/
theorem result16_eq (op : Multiplication) (rd rr : Byte) :
    op.result16 rd rr = BitVec.ofInt 16 (op.scaled (op.left rd * op.right rr)) := by
  have signed (x : Byte) : x.signExtend 16 = BitVec.ofInt 16 x.toInt := rfl
  have shifted : op.result16 rd rr =
      if op.fractional then BitVec.ofInt 16 (op.left rd * op.right rr) <<< 1
      else BitVec.ofInt 16 (op.left rd * op.right rr) := by
    cases op <;>
      simp only [result16, fractional, left, right, if_true, Bool.false_eq_true, if_false,
        BitVec.ofInt_mul, setWidth_eq_ofInt, signed]
  rw [shifted, scaled]
  split
  · rw [double_eq_shiftLeft]
  · rfl

end Multiplication

/-! ## The state after a multiplication -/

theorem AvrState.reg_withProduct (s : AvrState) (x : Word) {i : Nat} (h : 2 ≤ i) :
    (s.withProduct x).reg i = s.reg i := by
  rw [withProduct, reg_withFlags, reg_setReg_of_ne _ _ (by omega), reg_setReg_of_ne _ _ (by omega)]

theorem AvrState.productPair_withProduct (s : AvrState) (x : Word) :
    (s.withProduct x).productPair = x := by
  have low : (s.withProduct x).reg 0 = (x &&& 0xFF).setWidth 8 := by
    rw [withProduct, reg_withFlags, reg_setReg_of_ne _ _ (by decide),
      reg_setReg_self _ _ (by decide)]
  have high : (s.withProduct x).reg 1 = (x >>> 8).setWidth 8 := by
    rw [withProduct, reg_withFlags, reg_setReg_self _ _ (by decide)]
  rw [productPair, low, high]
  apply BitVec.eq_of_getLsbD_eq
  intro i hi
  rw [BitVec.getLsbD_append]
  interval_cases i <;> simp

theorem AvrState.getFlag_withProduct (s : AvrState) (x : Word) (b : SregBit) :
    (s.withProduct x).getFlag b =
      match b with
      | .C => x.getLsbD 15
      | .Z => decide (x = 0)
      | .N | .V | .S | .H | .T | .I => s.getFlag b := by
  have top : ({ z := x = 0, c := x &&& 0x8000 ≠ 0 } : Flags).get .C = x.getLsbD 15 := by
    have set := Bits.and_one_shl_ne_zero x (k := 15) (by decide)
    rw [Bool.eq_iff_iff, ← set]
    exact decide_eq_true_iff
  have held : ((s.setReg 0 ((x &&& 0xFF).setWidth 8)).setReg 1
      ((x >>> 8).setWidth 8)).getFlag b = s.getFlag b := rfl
  rw [withProduct, getFlag_withFlags, held]
  cases b
  case C => rw [top]; simp [SregBit.index]
  all_goals simp [SregBit.index, Flags.get]

/-- Twice a 16-bit number in 17 bits. -/
theorem carry_above_double {n : Nat} (h : n < 2 ^ 16) :
    (((BitVec.ofInt 16 n).getLsbD 15).toNat * 2 ^ 16 + (BitVec.ofInt 16 (2 * n)).toNat : Int) =
      2 * n := by
  have top : ((BitVec.ofInt 16 (n : Int)).getLsbD 15).toNat = n / 2 ^ 15 := by
    rw [BitVec.ofInt_natCast, BitVec.getLsbD_ofNat, decide_eq_true (by decide), Bool.true_and,
      Nat.toNat_testBit]
    omega
  have pair : (BitVec.ofInt 16 (2 * (n : Int))).toNat = 2 * n % 2 ^ 16 := by
    rw [← BitVec.toNat_ofNat, ← BitVec.ofInt_natCast]
    rfl
  rw [top, pair]
  omega

/-- A fraction loses its carry unless bits 14 and 15 of the product agree. -/
theorem multiplyContract_iff (op : Multiplication) (s : AvrState) {p : Int}
    (range : op = .FMUL → 0 ≤ p ∧ p < 2 ^ 16) :
    MultiplyContract op p s (s.withProduct (BitVec.ofInt 16 (op.scaled p))) ↔
      (op.fractional = true →
        (BitVec.ofInt 16 p).getLsbD 14 = (BitVec.ofInt 16 p).getLsbD 15) := by
  have computed : (s.withProduct (BitVec.ofInt 16 (op.scaled p))).getFlag .C =
      if op.fractional then (BitVec.ofInt 16 p).getLsbD 14 else (BitVec.ofInt 16 p).getLsbD 15 := by
    rw [AvrState.getFlag_withProduct, Multiplication.scaled]
    cases op.fractional with
    | true =>
      rw [if_pos rfl, if_pos rfl, Multiplication.double_eq_shiftLeft]
      change (BitVec.ofInt 16 p <<< 1).getLsbD 15 = _
      rw [BitVec.getLsbD_shiftLeft]
      rfl
    | false => rfl
  constructor
  · intro h fraction
    have carry := h.carry
    rw [computed, if_pos fraction] at carry
    exact carry
  · intro agree
    have carry : (s.withProduct (BitVec.ofInt 16 (op.scaled p))).getFlag .C =
        (BitVec.ofInt 16 p).getLsbD 15 := by
      rw [computed]
      split
      next fraction => exact agree fraction
      next => rfl
    refine ⟨s.productPair_withProduct _, carry, ?_, ?_, ?_, fun i => s.reg_withProduct _, rfl⟩
    · rw [AvrState.getFlag_withProduct, AvrState.productPair_withProduct]
    · rintro rfl
      obtain ⟨lo, hi⟩ := range rfl
      obtain ⟨n, rfl⟩ := Int.eq_ofNat_of_zero_le lo
      rw [carry, AvrState.productPair_withProduct]
      exact carry_above_double (by omega)
    · intro b notC notZ
      rw [AvrState.getFlag_withProduct]
      cases b <;> simp_all

/-- Every word that decodes to a multiplication runs and reports success. The
contract holds of its effect exactly when no fractional carry is lost. -/
theorem multiply_contract_iff {w : Word} {row : Opcode} {op : Multiplication}
    (_ : decodeInstruction w = some row) (hop : multiplication row.op = some op) (second : Word)
    (m : Machine) :
    ∃ s', (executeInstruction row w second).run m = some (true, m.setState s') ∧
      (MultiplyContract op (op.product w m.state) m.state s' ↔ (op.fractional = true →
        (BitVec.ofInt 16 (op.product w m.state)).getLsbD 14 =
          (BitVec.ofInt 16 (op.product w m.state)).getLsbD 15)) := by
  have run : (executeInstruction row w second).run m =
      some (true, m.setState (m.state.withProduct
        (BitVec.ofInt 16 (op.scaled (op.product w m.state))))) := by
    rw [executeInstruction, op.dispatch_eq hop,
      Checked.run_bind_of (run_onCpu (op.run_execute w m.state)), op.result16_eq]
    rfl
  refine ⟨_, run, multiplyContract_iff op m.state ?_⟩
  rintro rfl
  have hd := (m.state.reg (Multiplication.FMUL.dest w)).isLt
  have hr := (m.state.reg (Multiplication.FMUL.source w)).isLt
  simp only [Multiplication.product, Multiplication.left, Multiplication.right]
  constructor
  · exact_mod_cast Nat.zero_le _
  · have := Nat.mul_lt_mul'' hd hr
    exact_mod_cast this

/-- MUL R0, R1, whose operands lie in the product pair. -/
theorem mul_meets_contract :
    let s := (AvrState.zero.setReg 0 0xFF).setReg 1 0x80
    ∃ s', (executeInstruction ⟨0xFC00, 0x9C00, .MUL, .Rd_Rr, 1, 2, "MUL"⟩ 0x9C01 0).run
        (.initial s) = some (true, (Machine.initial s).setState s') ∧
      (MultiplyContract .MUL (Multiplication.MUL.product 0x9C01 s) s s' ↔
        (Multiplication.MUL.fractional = true →
          (BitVec.ofInt 16 (Multiplication.MUL.product 0x9C01 s)).getLsbD 14 =
            (BitVec.ofInt 16 (Multiplication.MUL.product 0x9C01 s)).getLsbD 15)) :=
  multiply_contract_iff (by decide) rfl 0 (.initial ((AvrState.zero.setReg 0 0xFF).setReg 1 0x80))

/-- FMUL R16, R16 squares 1.0: the product is 0x4000, and no bit is shifted out. -/
theorem fmul_carry_is_false :
    let s := AvrState.zero.setReg 16 0x80
    ∃ row s', decodeInstruction 0x0308 = some row ∧ row.op = .FMUL ∧
      (executeInstruction row 0x0308 0).run (.initial s) =
        some (true, (Machine.initial s).setState s') ∧
      s'.getFlag .C = true ∧
      ¬ MultiplyContract .FMUL (Multiplication.FMUL.product 0x0308 s) s s' := by
  refine ⟨⟨0xFF88, 0x0308, .FMUL, .Rd_Rr_mpy, 1, 2, "FMUL"⟩, _, by decide, rfl, rfl, by decide, ?_⟩
  intro h
  exact absurd h.carry (by decide)

end AvrEmulator
