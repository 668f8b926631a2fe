import AvrEmulator.ByteFlags
import AvrEmulator.OperandFields

/-! The arithmetic and shift instructions against the instruction set's definitions: the
result of each operation and the Boolean equation of each flag. -/

namespace AvrEmulator

inductive Arithmetic where
  | ADD | ADC | SUB | SUBI | SBC | SBCI | CP | CPC | CPI
  | NEG | COM | INC | DEC | ASR | LSR | ROR
  | ADIW | SBIW
  deriving DecidableEq, Repr

/-- LSL and ROL add a register to itself. -/
def arithmetic : AvrOp → Option Arithmetic
  | .ADD | .LSL => some .ADD
  | .ADC | .ROL => some .ADC
  | .SUB => some .SUB
  | .SUBI => some .SUBI
  | .SBC => some .SBC
  | .SBCI => some .SBCI
  | .CP => some .CP
  | .CPC => some .CPC
  | .CPI => some .CPI
  | .NEG => some .NEG
  | .COM => some .COM
  | .INC => some .INC
  | .DEC => some .DEC
  | .ASR => some .ASR
  | .LSR => some .LSR
  | .ROR => some .ROR
  | .ADIW => some .ADIW
  | .SBIW => some .SBIW
  | _ => none

/-! ## The definitions of the instruction set -/

/-- What becomes of the flags, S being N ⊕ V throughout. `none` is unaffected. -/
structure FlagTable where
  h : Option Bool := none
  v : Bool
  n : Bool
  z : Bool
  c : Option Bool := none

def FlagTable.get (t : FlagTable) : SregBit → Option Bool
  | .H => t.h
  | .S => some (t.n ^^ t.v)
  | .V => some t.v
  | .N => some t.n
  | .Z => some t.z
  | .C => t.c
  | .T | .I => none

/-- Carry out of bit `i` where `d + r` gave `result`. -/
def carryOut (i : Nat) (d r result : Byte) : Bool :=
  d.getLsbD i && r.getLsbD i || r.getLsbD i && !result.getLsbD i || !result.getLsbD i && d.getLsbD i

/-- Borrow into bit `i + 1` where `d - r` gave `result`. -/
def borrowOut (i : Nat) (d r result : Byte) : Bool :=
  !d.getLsbD i && r.getLsbD i || r.getLsbD i && result.getLsbD i || result.getLsbD i && !d.getLsbD i

/-- The sum of two numbers of one sign has the other sign. -/
def sumOverflow (d r result : Byte) : Bool :=
  d.getLsbD 7 && r.getLsbD 7 && !result.getLsbD 7 ||
    !d.getLsbD 7 && !r.getLsbD 7 && result.getLsbD 7

def differenceOverflow (d r result : Byte) : Bool :=
  d.getLsbD 7 && !r.getLsbD 7 && !result.getLsbD 7 ||
    !d.getLsbD 7 && r.getLsbD 7 && result.getLsbD 7

namespace Arithmetic

inductive Operand where
  | register | constant | none
  deriving DecidableEq

def operand : Arithmetic → Operand
  | ADD | ADC | SUB | SBC | CP | CPC => .register
  | SUBI | SBCI | CPI => .constant
  | NEG | COM | INC | DEC | ASR | LSR | ROR | ADIW | SBIW => .none

def isWord : Arithmetic → Bool
  | ADIW | SBIW => true
  | _ => false

def compares : Arithmetic → Bool
  | CP | CPC | CPI => true
  | _ => false

/-- The register, or the low register of the pair. -/
def dest (op : Arithmetic) (w : Word) : Nat :=
  if op.isWord then 24 + 2 * (w.extractLsb' 4 2).toNat
  else if op.operand = .constant then 16 + (w.extractLsb' 4 4).toNat
  else (w.extractLsb' 4 5).toNat

/-- `Rr` or `K`. -/
def second (op : Arithmetic) (w : Word) (s : AvrState) : Byte :=
  if op.operand = .constant then w.extractLsb' 8 4 ++ w.extractLsb' 0 4
  else s.reg (w.extractLsb' 9 1 ++ w.extractLsb' 0 4).toNat

/-- The result of an operation on bytes, with the old carry. -/
def byteResult (op : Arithmetic) (d r : Byte) (c : Bool) : Byte :=
  match op with
  | ADD => d + r
  | ADC => d + r + carryByte c
  | SUB | SUBI | CP | CPI => d - r
  | SBC | SBCI | CPC => d - r - carryByte c
  | NEG => 0 - d
  | COM => 0xFF - d
  | INC => d + 1
  | DEC => d - 1
  | ASR => d.sshiftRight 1
  | LSR => d >>> 1
  | ROR => BitVec.ofBool c ++ d.extractLsb' 1 7
  | ADIW | SBIW => d

/-- The flags of an operation on bytes. `z` is the old zero flag where it is a factor
of the new one. -/
def byteFlags (op : Arithmetic) (d r result : Byte) (z : Bool) : FlagTable :=
  let n := result.getLsbD 7
  let zero := z && decide (result = 0)
  match op with
  | ADD | ADC =>
    { h := some (carryOut 3 d r result), v := sumOverflow d r result, n := n, z := zero
      c := some (carryOut 7 d r result) }
  | SUB | SUBI | SBC | SBCI | CP | CPC | CPI =>
    { h := some (borrowOut 3 d r result), v := differenceOverflow d r result, n := n, z := zero
      c := some (borrowOut 7 d r result) }
  | NEG =>
    { h := some (result.getLsbD 3 || d.getLsbD 3), v := result = 0x80, n := n, z := zero
      c := some (result ≠ 0) }
  | COM => { v := false, n := n, z := zero, c := some true }
  | INC => { v := result = 0x80, n := n, z := zero }
  | DEC => { v := result = 0x7F, n := n, z := zero }
  | ASR | LSR | ROR => { v := n ^^ d.getLsbD 0, n := n, z := zero, c := some (d.getLsbD 0) }
  | ADIW | SBIW => { v := false, n := n, z := zero }

/-- `K` of ADIW and SBIW. -/
def wordConstant (w : Word) : Word := (w.extractLsb' 6 2 ++ w.extractLsb' 0 4).setWidth 16

def wordResult (op : Arithmetic) (d k : Word) : Word := if op = SBIW then d - k else d + k

def wordFlags (op : Arithmetic) (d result : Word) : FlagTable :=
  let up := !d.getLsbD 15 && result.getLsbD 15
  let down := d.getLsbD 15 && !result.getLsbD 15
  { v := if op = SBIW then down else up
    n := result.getLsbD 15
    z := result = 0
    c := some (if op = SBIW then up else down) }

/-- The register pair at `i`. -/
def pair (s : AvrState) (i : Nat) : Word := s.reg (i + 1) ++ s.reg i

/-- The registers that are written, with their new values. -/
def written (op : Arithmetic) (w : Word) (s : AvrState) : List (Nat × Byte) :=
  if op.isWord then
    let result := op.wordResult (pair s (op.dest w)) (wordConstant w)
    [(op.dest w, result.extractLsb' 0 8), (op.dest w + 1, result.extractLsb' 8 8)]
  else if op.compares then []
  else [(op.dest w, op.byteResult (s.reg (op.dest w)) (op.second w s) (s.getFlag .C))]

/-- The flags, where the instructions in `chained` multiply the old Z in. -/
def flags (op : Arithmetic) (chained : List Arithmetic) (w : Word) (s : AvrState) : FlagTable :=
  if op.isWord then
    op.wordFlags (pair s (op.dest w)) (op.wordResult (pair s (op.dest w)) (wordConstant w))
  else
    let d := s.reg (op.dest w)
    let r := op.second w s
    op.byteFlags d r (op.byteResult d r (s.getFlag .C)) (decide (op ∉ chained) || s.getFlag .Z)

end Arithmetic

/-- The effect the instruction set gives an instruction. -/
structure ArithmeticContract (op : Arithmetic) (chained : List Arithmetic) (w : Word)
    (s s' : AvrState) : Prop where
  results : ∀ p ∈ op.written w s, s'.reg p.1 = p.2
  flags : ∀ b, s'.getFlag b = ((op.flags chained w s).get b).getD (s.getFlag b)
  others : ∀ i, i ∉ (op.written w s).map Prod.fst → s'.reg i = s.reg i
  frame : s' = { s with r := s'.r, sreg := s'.sreg }

theorem addition_eq (a b ci : Byte) (k : Bool) : (addition a b ci k).1 = a + b + ci := by
  apply BitVec.eq_of_toNat_eq
  rw [addition_toNat, BitVec.toNat_add, BitVec.toNat_add]
  omega

theorem subtraction_eq (a b ci : Byte) (k : Bool) : (subtraction a b ci k).1 = a - b - ci := by
  have := a.isLt
  have := b.isLt
  have := ci.isLt
  apply BitVec.eq_of_toNat_eq
  rw [subtraction_toNat, BitVec.toNat_sub, BitVec.toNat_sub]
  omega

theorem low_nibble (x : Byte) : (x &&& 0x0F).toNat = x.toNat % 2 ^ 4 := by
  rw [BitVec.toNat_and, ← Nat.and_two_pow_sub_one_eq_mod]
  rfl

/-- The carry equation on the result of an addition is the carry. -/
theorem carryOut_addition (a b : Byte) (c k : Bool) {i : Nat} (hi : i < 8) :
    carryOut i a b (addition a b (carryByte c) k).1 = BitVec.carry (i + 1) a b c := by
  rw [addition_eq]
  exact Bits.carry_eq_equation a b c hi

/-- The borrow equation on a difference is the carry of the sum that undoes it. -/
theorem borrowOut_subtraction (a b : Byte) (c k : Bool) {i : Nat} (hi : i < 8) :
    borrowOut i a b (subtraction a b (carryByte c) k).1 =
      BitVec.carry (i + 1) (subtraction a b (carryByte c) k).1 b c := by
  have undone : (subtraction a b (carryByte c) k).1 + b + (BitVec.ofBool c).setWidth 8 = a := by
    rw [subtraction_eq, carryByte]
    bv_omega
  have equation := Bits.carry_eq_equation (subtraction a b (carryByte c) k).1 b c hi
  rw [undone] at equation
  rw [← equation, borrowOut]
  cases a.getLsbD i <;> cases b.getLsbD i <;>
    cases (subtraction a b (carryByte c) k).1.getLsbD i <;> rfl

theorem addition_half (a b : Byte) (c k : Bool) : (addition a b (carryByte c) k).2.h =
    carryOut 3 a b (addition a b (carryByte c) k).1 := by
  have := c.toNat_le
  rw [carryOut_addition a b c k (by decide)]
  simp only [addition, BitVec.carry, gt_iff_lt, BitVec.lt_def, BitVec.toNat_add, low_nibble,
    carryByte_toNat, decide_eq_decide, show (0x0F : Byte).toNat = 15 from rfl]
  omega

theorem addition_carry (a b : Byte) (c k : Bool) : (addition a b (carryByte c) k).2.c =
    carryOut 7 a b (addition a b (carryByte c) k).1 := by
  rw [carryOut_addition a b c k (by decide), BitVec.carry_width, addition_c, carryByte_toNat]

theorem subtraction_half (a b : Byte) (c k : Bool) : (subtraction a b (carryByte c) k).2.h =
    borrowOut 3 a b (subtraction a b (carryByte c) k).1 := by
  have := c.toNat_le
  have value := subtraction_toNat a b (carryByte c) k
  rw [carryByte_toNat] at value
  rw [borrowOut_subtraction a b c k (by decide)]
  have half : (subtraction a b (carryByte c) k).2.h =
      decide ((a &&& 0x0F) < (b &&& 0x0F) + carryByte c) := rfl
  have := a.isLt
  have := b.isLt
  rw [half]
  simp only [BitVec.carry, value, BitVec.lt_def, BitVec.toNat_add, low_nibble, carryByte_toNat,
    decide_eq_decide]
  omega

theorem subtraction_carry (a b : Byte) (c k : Bool) : (subtraction a b (carryByte c) k).2.c =
    borrowOut 7 a b (subtraction a b (carryByte c) k).1 := by
  have := c.toNat_le
  have value := subtraction_toNat a b (carryByte c) k
  rw [carryByte_toNat] at value
  have := a.isLt
  have := b.isLt
  rw [borrowOut_subtraction a b c k (by decide), BitVec.carry_width, subtraction_c, value,
    carryByte_toNat, decide_eq_decide]
  omega

theorem addition_overflow (a b ci : Byte) (k : Bool) :
    (addition a b ci k).2.v = sumOverflow a b (addition a b ci k).1 := by
  rw [addition_v, sumOverflow]
  simp only [BitVec.msb_eq_getLsbD_last]
  cases a.getLsbD 7 <;> cases b.getLsbD 7 <;> cases (addition a b ci k).1.getLsbD 7 <;> rfl

theorem subtraction_overflow (a b ci : Byte) (k : Bool) :
    (subtraction a b ci k).2.v = differenceOverflow a b (subtraction a b ci k).1 := by
  rw [subtraction_v, differenceOverflow]
  simp only [BitVec.msb_eq_getLsbD_last]
  cases a.getLsbD 7 <;> cases b.getLsbD 7 <;> cases (subtraction a b ci k).1.getLsbD 7 <;> rfl

/-! ## Keeping and computing flags -/

/-- The computed flags around a mask of kept bits give what the table says. -/
structure Realises (keep : Byte) (f : Flags) (t : FlagTable) : Prop where
  computed : ∀ b, t.get b = if keep.getLsbD b.index then none else some (f.get b)
  quiet : ∀ b, keep.getLsbD b.index = true → f.get b = false

theorem Realises.getFlag {keep : Byte} {f : Flags} {t : FlagTable} (h : Realises keep f t)
    (s : AvrState) (b : SregBit) :
    (s.withFlags keep f).getFlag b = (t.get b).getD (s.getFlag b) := by
  rw [AvrState.getFlag_withFlags, h.computed]
  cases hk : keep.getLsbD b.index with
  | true => simp [h.quiet b hk]
  | false => simp

/-- The mask 0xC0 keeps T and I. -/
theorem realises_all {f : Flags} {t : FlagTable} (h : t.h = some f.h) (v : t.v = f.v)
    (n : t.n = f.n) (z : t.z = f.z) (c : t.c = some f.c) (s : f.s = (f.n ^^ f.v)) :
    Realises 0xC0 f t := by
  constructor <;> intro b <;> cases b <;>
    simp [FlagTable.get, Flags.get, SregBit.index, h, v, n, z, c, s]

/-- The mask 0xE0 keeps H too. -/
theorem realises_without_half {f : Flags} {t : FlagTable} (h : t.h = none) (v : t.v = f.v)
    (n : t.n = f.n) (z : t.z = f.z) (c : t.c = some f.c) (s : f.s = (f.n ^^ f.v))
    (none : f.h = false) : Realises 0xE0 f t := by
  constructor <;> intro b <;> cases b <;>
    simp [FlagTable.get, Flags.get, SregBit.index, h, v, n, z, c, s, none]

/-- The mask 0xE1 keeps H and C too. -/
theorem realises_counted {x : Byte} {v : Bool} {t : FlagTable} (h : t.h = none) (hv : t.v = v)
    (n : t.n = x.getLsbD 7) (z : t.z = decide (x = 0)) (c : t.c = none) :
    Realises 0xE1 (counted x v).2 t := by
  have sign : (counted x v).2.n = x.getLsbD 7 := by
    rw [← BitVec.msb_eq_getLsbD_last]
    exact decide_and_sign x
  have table : (counted x v).2 =
      { s := x.getLsbD 7 ^^ v, v := v, n := x.getLsbD 7, z := x = 0 } := by
    rw [← sign]
    rfl
  rw [table]
  constructor <;> intro b <;> cases b <;>
    simp [FlagTable.get, Flags.get, SregBit.index, h, hv, n, z, c]

namespace Arithmetic

/-- The bits of SREG an operation on bytes keeps. -/
def keep : Arithmetic → Byte
  | ADD | ADC | SUB | SUBI | SBC | SBCI | CP | CPC | CPI | NEG => 0xC0
  | COM | ASR | LSR | ROR | ADIW | SBIW => 0xE0
  | INC | DEC => 0xE1

/-- The result and flags of an operation on bytes as the executors compute them. -/
def coded (op : Arithmetic) (rd rr : Byte) (c z : Bool) : Byte × Flags :=
  match op with
  | ADD => addition rd rr (carryByte false) true
  | ADC => addition rd rr (carryByte c) z
  | SUB | SUBI | CP | CPI => subtraction rd rr (carryByte false) true
  | SBC | SBCI | CPC => subtraction rd rr (carryByte c) z
  | NEG =>
    let n : Bool := -rd &&& 0x80 ≠ 0
    let v : Bool := rd = 0x80
    (-rd, {
      h := -rd &&& 0x08 ≠ 0 ∨ rd &&& 0x08 ≠ 0
      s := n ^^ v
      v := v
      n := n
      z := -rd = 0
      c := -rd ≠ 0 })
  | COM =>
    let n : Bool := (0xFF - rd) &&& 0x80 ≠ 0
    (0xFF - rd, { s := n, n := n, z := 0xFF - rd = 0, c := true })
  | INC => counted (rd + 1) (rd = 0x7F)
  | DEC => counted (rd - 1) (rd = 0x80)
  | ASR => shiftRight rd (rd &&& 0x80)
  | LSR => shiftRight rd 0
  | ROR => shiftRight rd (if c then 0x80 else 0x00)
  | ADIW | SBIW => (rd, {})

/-- The instructions whose executors multiply the old Z in. -/
def chains : List Arithmetic := [ADC, SBC, SBCI, CPC]

end Arithmetic

theorem decide_and_bit (x : Byte) {k : Nat} (h : k < 8) :
    decide (x &&& ((1 : Byte) <<< k) ≠ 0) = x.getLsbD k := by
  rw [Bool.eq_iff_iff, decide_eq_true_iff]
  exact Bits.and_one_shl_ne_zero x h

theorem shiftRight_n (rd top : Byte) :
    (shiftRight rd top).2.n = (shiftRight rd top).1.getLsbD 7 :=
  decide_and_bit _ (k := 7) (by decide)

theorem shiftRight_c (rd top : Byte) : (shiftRight rd top).2.c = rd.getLsbD 0 :=
  decide_and_bit _ (k := 0) (by decide)

namespace Arithmetic

theorem coded_result (op : Arithmetic) (rd rr : Byte) (c z : Bool) :
    (op.coded rd rr c z).1 = op.byteResult rd rr c := by
  cases op with
  | ADD => exact (addition_eq _ _ _ _).trans (BitVec.add_zero _)
  | ADC => exact addition_eq _ _ _ _
  | SUB => exact (subtraction_eq _ _ _ _).trans (BitVec.sub_zero _)
  | SUBI => exact (subtraction_eq _ _ _ _).trans (BitVec.sub_zero _)
  | CP => exact (subtraction_eq _ _ _ _).trans (BitVec.sub_zero _)
  | CPI => exact (subtraction_eq _ _ _ _).trans (BitVec.sub_zero _)
  | SBC => exact subtraction_eq _ _ _ _
  | SBCI => exact subtraction_eq _ _ _ _
  | CPC => exact subtraction_eq _ _ _ _
  | NEG => exact (BitVec.zero_sub _).symm
  | COM => rfl
  | INC => rfl
  | DEC => rfl
  | ASR =>
    apply BitVec.eq_of_getLsbD_eq
    intro i hi
    simp only [coded, shiftRight, byteResult, BitVec.getLsbD_or, BitVec.getLsbD_and,
      BitVec.getLsbD_ushiftRight, BitVec.getLsbD_sshiftRight]
    interval_cases i <;> simp [BitVec.msb_eq_getLsbD_last]
  | LSR => exact BitVec.or_zero
  | ROR =>
    apply BitVec.eq_of_getLsbD_eq
    intro i hi
    simp only [coded, shiftRight, byteResult, BitVec.getLsbD_or, BitVec.getLsbD_append,
      BitVec.getLsbD_ushiftRight, BitVec.getLsbD_extractLsb']
    cases c <;> interval_cases i <;> simp
  | ADIW => rfl
  | SBIW => rfl

theorem additive_flags (a b : Byte) (c k : Bool) :
    Realises 0xC0 (addition a b (carryByte c) k).2
      (ADD.byteFlags a b (addition a b (carryByte c) k).1 k) := by
  have sign := addition_n a b (carryByte c) k
  rw [BitVec.msb_eq_getLsbD_last] at sign
  exact realises_all (congrArg some (addition_half a b c k).symm)
    (addition_overflow a b _ k).symm sign.symm rfl (congrArg some (addition_carry a b c k).symm) rfl

theorem subtractive_flags (a b : Byte) (c k : Bool) :
    Realises 0xC0 (subtraction a b (carryByte c) k).2
      (SUB.byteFlags a b (subtraction a b (carryByte c) k).1 k) := by
  have sign := subtraction_n a b (carryByte c) k
  rw [BitVec.msb_eq_getLsbD_last] at sign
  exact realises_all (congrArg some (subtraction_half a b c k).symm)
    (subtraction_overflow a b _ k).symm sign.symm rfl
    (congrArg some (subtraction_carry a b c k).symm) rfl

theorem shifted_flags (rd rr top : Byte) :
    Realises 0xE0 (shiftRight rd top).2 (ASR.byteFlags rd rr (shiftRight rd top).1 true) := by
  have v : (shiftRight rd top).2.v = ((shiftRight rd top).2.n ^^ (shiftRight rd top).2.c) := rfl
  rw [shiftRight_n, shiftRight_c] at v
  exact realises_without_half rfl v.symm (shiftRight_n rd top).symm rfl
    (congrArg some (shiftRight_c rd top).symm) rfl rfl

theorem negated_flags (rd rr : Byte) (c z : Bool) :
    Realises 0xC0 (NEG.coded rd rr c z).2 (NEG.byteFlags rd rr (-rd) true) := by
  have half : (decide (-rd &&& 0x08 ≠ 0 ∨ rd &&& 0x08 ≠ 0)) =
      ((-rd).getLsbD 3 || rd.getLsbD 3) := by
    have bit (x : Byte) : decide (x &&& 0x08 ≠ 0) = x.getLsbD 3 :=
      decide_and_bit x (k := 3) (by decide)
    rw [Bool.decide_or, bit, bit]
  have least : decide (-rd = 0x80) = decide (rd = 0x80) := by
    rw [decide_eq_decide]
    constructor <;> intro h <;> bv_omega
  have sign : decide (-rd &&& 0x80 ≠ 0) = (-rd).getLsbD 7 := decide_and_bit _ (k := 7) (by decide)
  exact realises_all (congrArg some half.symm) least sign.symm rfl rfl rfl

theorem coded_flags (op : Arithmetic) (rd rr : Byte) (c z : Bool) (h : op.isWord = false) :
    Realises op.keep (op.coded rd rr c z).2
      (op.byteFlags rd rr (op.coded rd rr c z).1 (decide (op ∉ chains) || z)) := by
  cases op with
  | ADD => exact additive_flags rd rr false true
  | ADC => exact additive_flags rd rr c z
  | SUB => exact subtractive_flags rd rr false true
  | SUBI => exact subtractive_flags rd rr false true
  | CP => exact subtractive_flags rd rr false true
  | CPI => exact subtractive_flags rd rr false true
  | SBC => exact subtractive_flags rd rr c z
  | SBCI => exact subtractive_flags rd rr c z
  | CPC => exact subtractive_flags rd rr c z
  | NEG => exact negated_flags rd rr c z
  | COM =>
    have sign : decide ((0xFF - rd) &&& 0x80 ≠ 0) = (0xFF - rd).getLsbD 7 :=
      decide_and_bit _ (k := 7) (by decide)
    exact realises_without_half rfl rfl sign.symm rfl rfl (Bool.xor_false _).symm rfl
  | INC =>
    have greatest : decide (rd + 1 = 0x80) = decide (rd = 0x7F) := by
      rw [decide_eq_decide]
      constructor <;> intro h <;> bv_omega
    exact realises_counted rfl greatest rfl rfl rfl
  | DEC =>
    have least : decide (rd - 1 = 0x7F) = decide (rd = 0x80) := by
      rw [decide_eq_decide]
      constructor <;> intro h <;> bv_omega
    exact realises_counted rfl least rfl rfl rfl
  | ASR => exact shifted_flags rd rr _
  | LSR => exact shifted_flags rd rr _
  | ROR => exact shifted_flags rd rr _
  | ADIW => cases h
  | SBIW => cases h

/-- The register a byte operation writes, as the operand extractors give it. -/
def destByte (op : Arithmetic) (w : Word) : Byte :=
  match op.operand with
  | .register => (decodeRdRr w).d
  | .constant => (decodeRdK8 w).d
  | .none => (decodeRd w).d

theorem destByte_toNat {op : Arithmetic} (h : op.isWord = false) (w : Word) :
    (op.destByte w).toNat = op.dest w := by
  simp only [destByte, dest, h, Bool.false_eq_true, if_false]
  cases op.operand with
  | register => exact decodeRdRr_d w
  | constant => exact decodeRdK8_d w
  | none => exact decodeRd_d w

theorem dest_lt (op : Arithmetic) (w : Word) :
    op.dest w < 31 ∨ op.isWord = false ∧ op.dest w < 32 := by
  cases h : op.isWord with
  | true =>
    left
    simp only [dest, h, if_true]
    omega
  | false =>
    refine .inr ⟨rfl, ?_⟩
    simp only [dest, h, Bool.false_eq_true, if_false]
    split <;> omega

/-- The executor of an operation. -/
def program (op : Arithmetic) (w : Word) : Cpu Unit :=
  match op with
  | ADD => executeADD (decodeRdRr w)
  | ADC => executeADC (decodeRdRr w)
  | SUB => executeSUB (decodeRdRr w)
  | SUBI => executeSUBI (decodeRdK8 w)
  | SBC => executeSBC (decodeRdRr w)
  | SBCI => executeSBCI (decodeRdK8 w)
  | CP => executeCP (decodeRdRr w)
  | CPC => executeCPC (decodeRdRr w)
  | CPI => executeCPI (decodeRdK8 w)
  | NEG => executeNEG (decodeRd w)
  | COM => executeCOM (decodeRd w)
  | INC => executeINC (decodeRd w)
  | DEC => executeDEC (decodeRd w)
  | ASR => executeASR (decodeRd w)
  | LSR => executeLSR (decodeRd w)
  | ROR => executeROR (decodeRd w)
  | ADIW => executeADIW (decodeRd06K6 w)
  | SBIW => executeSBIW (decodeRd06K6 w)

theorem dispatch_eq {row : Opcode} {op : Arithmetic} (hop : arithmetic row.op = some op)
    (w second : Word) : dispatch row w second = onCpu (op.program w) := by
  unfold arithmetic at hop
  split at hop
  all_goals cases hop
  all_goals next h => simp only [dispatch, h, program]

/-- Two register operands. -/
theorem run_registers (w : Word) (s : AvrState) (x : Byte → Byte → Cpu Unit) :
    (do
      let rd ← regAt (decodeRdRr w).d.toNat
      let rr ← regAt (decodeRdRr w).r.toNat
      x rd rr : Cpu Unit).run s =
    (x (s.reg (w.extractLsb' 4 5).toNat)
      (s.reg (w.extractLsb' 9 1 ++ w.extractLsb' 0 4).toNat)).run s := by
  rw [Checked.run_bind_of (run_regAt (by rw [decodeRdRr_d]; omega)),
    Checked.run_bind_of (run_regAt (by rw [decodeRdRr_r]; omega)), decodeRdRr_d, decodeRdRr_r]

/-- A register beside a constant. -/
theorem run_upper (w : Word) (s : AvrState) (x : Byte → Cpu Unit) :
    (do
      let rd ← regAt (decodeRdK8 w).d.toNat
      x rd : Cpu Unit).run s = (x (s.reg (16 + (w.extractLsb' 4 4).toNat))).run s := by
  rw [Checked.run_bind_of (run_regAt (by rw [decodeRdK8_d]; omega)), decodeRdK8_d]

/-- One register operand. -/
theorem run_register (w : Word) (s : AvrState) (x : Byte → Cpu Unit) :
    (do
      let rd ← regAt (decodeRd w).d.toNat
      x rd : Cpu Unit).run s = (x (s.reg (w.extractLsb' 4 5).toNat)).run s := by
  rw [Checked.run_bind_of (run_regAt (by rw [decodeRd_d]; omega)), decodeRd_d]

/-- The result and flags of a byte operation in a state. -/
def outcome (op : Arithmetic) (w : Word) (s : AvrState) : Byte × Flags :=
  op.coded (s.reg (op.dest w)) (op.second w s) (s.getFlag .C) (s.getFlag .Z)

/-- The state after a byte operation. -/
def after (op : Arithmetic) (w : Word) (s : AvrState) : AvrState :=
  if op.compares then s.withFlags op.keep (op.outcome w s).2
  else s.withResult op.keep (op.destByte w) (op.outcome w s)

theorem run_program {op : Arithmetic} (h : op.isWord = false) (w : Word) (s : AvrState) :
    (op.program w).run s = some ((), op.after w s) := by
  have register : (decodeRdRr w).d.toNat < 32 := by rw [decodeRdRr_d]; omega
  have upper : (decodeRdK8 w).d.toNat < 32 := by rw [decodeRdK8_d]; omega
  have only : (decodeRd w).d.toNat < 32 := by rw [decodeRd_d]; omega
  cases op with
  | ADD =>
    rw [program, executeADD, run_registers, run_putResult _ _ _ register]
    rfl
  | ADC =>
    rw [program, executeADC, run_registers, Checked.run_get_bind, run_putResult _ _ _ register,
      carryIn_eq]
    rfl
  | SUB =>
    rw [program, executeSUB, run_registers, run_putResult _ _ _ register]
    rfl
  | SUBI =>
    rw [program, executeSUBI, run_upper, run_putResult _ _ _ upper, decodeRdK8_k]
    rfl
  | SBC =>
    rw [program, executeSBC, run_registers, Checked.run_get_bind, run_putResult _ _ _ register,
      carryIn_eq]
    rfl
  | SBCI =>
    rw [program, executeSBCI, run_upper, Checked.run_get_bind, run_putResult _ _ _ upper,
      carryIn_eq, decodeRdK8_k]
    rfl
  | CP =>
    rw [program, executeCP, run_registers]
    rfl
  | CPC =>
    rw [program, executeCPC, run_registers, Checked.run_get_bind, carryIn_eq]
    rfl
  | CPI =>
    rw [program, executeCPI, run_upper, decodeRdK8_k]
    rfl
  | NEG =>
    rw [program, executeNEG, run_register, run_putResult _ _ _ only]
    rfl
  | COM =>
    rw [program, executeCOM, run_register, run_putResult _ _ _ only]
    rfl
  | INC =>
    rw [program, executeINC, run_register, run_putResult _ _ _ only]
    rfl
  | DEC =>
    rw [program, executeDEC, run_register, run_putResult _ _ _ only]
    rfl
  | ASR =>
    rw [program, executeASR, run_register, run_putResult _ _ _ only]
    rfl
  | LSR =>
    rw [program, executeLSR, run_register, run_putResult _ _ _ only]
    rfl
  | ROR =>
    rw [program, executeROR, run_register, Checked.run_get_bind, run_putResult _ _ _ only]
    rfl
  | ADIW => cases h
  | SBIW => cases h

theorem run_pairAt {d : Byte} (h : d.toNat + 1 < 32) (s : AvrState) :
    (pairAt d).run s = some (pair s d.toNat, s) := by
  have joined (hi lo : Byte) : (hi.setWidth 16 <<< 8) ||| lo.setWidth 16 = hi ++ lo := by
    apply BitVec.eq_of_getLsbD_eq
    intro i hi
    rw [BitVec.getLsbD_append, BitVec.getLsbD_or]
    interval_cases i <;> simp
  rw [pairAt, Checked.run_bind_of (run_regAt (by omega)), Checked.run_bind_of (run_regAt h), joined]
  rfl

/-- What `putPair` leaves. -/
def withPair (s : AvrState) (d : Nat) (result16 : Word) (v c : Bool) : AvrState :=
  let n : Bool := result16 &&& 0x8000 ≠ 0
  ((s.setReg d ((result16 &&& 0xFF).setWidth 8)).setReg (d + 1)
    ((result16 >>> 8).setWidth 8)).withFlags 0xE0
      { s := n ^^ v, v := v, n := n, z := result16 = 0, c := c }

theorem run_putPair {d : Byte} (h : d.toNat + 1 < 32) (result16 : Word) (v c : Bool)
    (s : AvrState) :
    (putPair d result16 v c).run s = some ((), withPair s d.toNat result16 v c) := by
  rw [putPair, Checked.run_bind_of (run_setRegAt _ (by omega)),
    Checked.run_bind_of (run_setRegAt _ h)]
  rfl

theorem sign_bit (x : Word) : decide (x &&& 0x8000 ≠ 0) = x.getLsbD 15 := by
  rw [Bool.eq_iff_iff, decide_eq_true_iff]
  exact Bits.and_one_shl_ne_zero x (k := 15) (by decide)

theorem getFlag_withPair (s : AvrState) (d : Nat) (result16 : Word) (v c : Bool) (b : SregBit) :
    (withPair s d result16 v c).getFlag b =
      (({ v := v, n := result16.getLsbD 15, z := result16 = 0, c := some c } : FlagTable).get
        b).getD (s.getFlag b) := by
  rw [← sign_bit]
  exact (realises_without_half rfl rfl rfl rfl rfl rfl rfl).getFlag _ b

/-- The state after ADIW or SBIW. -/
def afterWord (op : Arithmetic) (w : Word) (s : AvrState) : AvrState :=
  let word := pair s (op.dest w)
  let result := op.wordResult word (wordConstant w)
  let up := !word.getLsbD 15 && result.getLsbD 15
  let down := word.getLsbD 15 && !result.getLsbD 15
  withPair s (op.dest w) result (if op = SBIW then down else up) (if op = SBIW then up else down)

theorem run_program_word {op : Arithmetic} (h : op.isWord = true) (w : Word) (s : AvrState) :
    (op.program w).run s = some ((), op.afterWord w s) := by
  have inside : (decodeRd06K6 w).d.toNat + 1 < 32 := by rw [decodeRd06K6_d]; omega
  have constant : (decodeRd06K6 w).k.setWidth 16 = wordConstant w := by
    rw [decodeRd06K6_k, wordConstant]
    apply BitVec.eq_of_toNat_eq
    simp only [BitVec.toNat_setWidth]
    omega
  cases op
  case ADIW =>
    rw [program, executeADIW, Checked.run_bind_of (run_pairAt inside s)]
    simp only [sign_bit, constant]
    rw [run_putPair inside, decodeRd06K6_d]
    rfl
  case SBIW =>
    rw [program, executeSBIW, Checked.run_bind_of (run_pairAt inside s)]
    simp only [sign_bit, constant]
    rw [run_putPair inside, decodeRd06K6_d]
    rfl
  all_goals cases h

/-! ## The contract of the executors -/

theorem contract_after {op : Arithmetic} (h : op.isWord = false) (w : Word) (s : AvrState) :
    ArithmeticContract op chains w s (op.after w s) := by
  have result : (op.outcome w s).1 =
      op.byteResult (s.reg (op.dest w)) (op.second w s) (s.getFlag .C) := op.coded_result _ _ _ _
  have table : Realises op.keep (op.outcome w s).2
      (op.byteFlags (s.reg (op.dest w)) (op.second w s) (op.outcome w s).1
        (decide (op ∉ chains) || s.getFlag .Z)) := op.coded_flags _ _ _ _ h
  rw [result] at table
  have flags (t : AvrState) (ht : t.sreg = s.sreg) (b : SregBit) :
      (t.withFlags op.keep (op.outcome w s).2).getFlag b =
        ((op.flags chains w s).get b).getD (s.getFlag b) := by
    have old : t.getFlag b = s.getFlag b := by rw [AvrState.getFlag, ht, AvrState.getFlag]
    rw [table.getFlag t b, old]
    simp only [Arithmetic.flags, h, Bool.false_eq_true, if_false]
  have dest := op.destByte_toNat h w
  have inside : op.dest w < 32 := by
    rcases op.dest_lt w with below | ⟨-, below⟩ <;> omega
  cases hc : op.compares with
  | true =>
    have none : op.written w s = [] := by
      simp only [written, h, hc, Bool.false_eq_true, if_false, if_true]
    rw [after, if_pos hc]
    refine ⟨?_, flags s rfl, fun i _ => rfl, rfl⟩
    rw [none]
    exact List.forall_mem_nil _
  | false =>
    have one : op.written w s = [(op.dest w, (op.outcome w s).1)] := by
      simp only [written, h, hc, Bool.false_eq_true, if_false, result]
    rw [after, if_neg (by rw [hc]; decide), AvrState.withResult, dest]
    refine ⟨?_, flags _ rfl, ?_, rfl⟩
    · rw [one, List.forall_mem_singleton, AvrState.reg_withFlags]
      exact s.reg_setReg_self _ inside
    · rw [one, List.map_singleton]
      intro i hi
      rw [AvrState.reg_withFlags, AvrState.reg_setReg_of_ne _ _ (by simpa using hi)]

theorem contract_afterWord {op : Arithmetic} (h : op.isWord = true) (w : Word) (s : AvrState) :
    ArithmeticContract op chains w s (op.afterWord w s) := by
  have inside : op.dest w + 1 < 32 := by
    rcases op.dest_lt w with below | ⟨byte, -⟩
    · omega
    · rw [byte] at h
      cases h
  generalize hr : op.wordResult (pair s (op.dest w)) (wordConstant w) = result
  have two : op.written w s =
      [(op.dest w, result.extractLsb' 0 8), (op.dest w + 1, result.extractLsb' 8 8)] := by
    simp only [written, h, if_true, hr]
  have low : (result &&& 0xFF).setWidth 8 = result.extractLsb' 0 8 := by
    ext i hi
    interval_cases i <;> simp
  have high : (result >>> 8).setWidth 8 = result.extractLsb' 8 8 := by
    ext i hi
    interval_cases i <;> simp
  rw [afterWord, hr]
  refine ⟨?_, fun b => ?_, fun i hi => ?_, rfl⟩
  · rw [withPair, low, high, two, List.forall_mem_cons, List.forall_mem_singleton,
      AvrState.reg_withFlags, AvrState.reg_withFlags]
    refine ⟨?_, AvrState.reg_setReg_self _ _ inside⟩
    rw [AvrState.reg_setReg_of_ne _ _ (by omega), AvrState.reg_setReg_self _ _ (by omega)]
  · rw [getFlag_withPair]
    simp only [Arithmetic.flags, h, if_true, wordFlags, hr]
  · rw [two] at hi
    simp only [List.map_cons, List.map_nil, List.mem_cons, List.not_mem_nil, or_false,
      not_or] at hi
    rw [withPair, AvrState.reg_withFlags, AvrState.reg_setReg_of_ne _ _ hi.2,
      AvrState.reg_setReg_of_ne _ _ hi.1]

end Arithmetic

/-- Every word that decodes to one of the twenty instructions runs and reports success
with the instruction set's effect, Z being carried through ADC, SBC, SBCI and CPC. -/
theorem arithmetic_meets_contract {w : Word} {row : Opcode} {op : Arithmetic}
    (_ : decodeInstruction w = some row) (hop : arithmetic row.op = some op) (second : Word)
    (m : Machine) :
    ∃ s', (executeInstruction row w second).run m = some (true, m.setState s') ∧
      ArithmeticContract op [.ADC, .SBC, .SBCI, .CPC] w m.state s' := by
  have run (s' : AvrState) (h : (op.program w).run m.state = some ((), s')) :
      (executeInstruction row w second).run m = some (true, m.setState s') := by
    rw [executeInstruction, op.dispatch_eq hop, Checked.run_bind_of (run_onCpu h)]
    rfl
  cases h : op.isWord with
  | true => exact ⟨_, run _ (op.run_program_word h w m.state), op.contract_afterWord h w m.state⟩
  | false => exact ⟨_, run _ (op.run_program h w m.state), op.contract_after h w m.state⟩

/-- Two negative operands, with I, T and Z set. -/
def overflowing : AvrState := { (AvrState.zero.setReg 16 0x8F).setReg 17 0x92 with sreg := 0xC2 }

/-- ADD R16, R17: the sum overflows. -/
theorem add_meets_contract : ∃ row s', decodeInstruction 0x0F01 = some row ∧
    (executeInstruction row 0x0F01 0).run (.initial overflowing) =
      some (true, (Machine.initial overflowing).setState s') ∧
    ArithmeticContract .ADD [.ADC, .SBC, .SBCI, .CPC] 0x0F01 overflowing s' ∧
    s'.reg 16 = 0x21 ∧ ∀ b, s'.getFlag b = true ↔ b ≠ .N ∧ b ≠ .Z := by
  have found : decodeInstruction 0x0F01 = some ⟨0xFC00, 0x0C00, .ADD, .Rd_Rr, 1, 1, "ADD"⟩ := by
    decide
  obtain ⟨s', run, contract⟩ := arithmetic_meets_contract found rfl 0 (.initial overflowing)
  refine ⟨_, s', found, run, contract, contract.results (16, 0x21) (by decide), ?_⟩
  intro b
  rw [contract.flags]
  cases b <;> decide

/-- ADC R0, R0 in an empty machine: the result is zero and Z stays clear. -/
theorem adc_carries_zero_flag :
    ∃ row s', decodeInstruction 0x1C00 = some row ∧ row.op = .ADC ∧
      (executeInstruction row 0x1C00 0).run (.initial .zero) =
        some (true, (Machine.initial .zero).setState s') ∧
      s'.reg 0 = 0 ∧ s'.getFlag .Z = false ∧
      ¬ ArithmeticContract .ADC [.SBC, .SBCI, .CPC] 0x1C00 .zero s' := by
  refine ⟨⟨0xFC00, 0x1C00, .ADC, .Rd_Rr, 1, 1, "ADC"⟩, _, by decide, rfl, rfl, by decide,
    by decide, ?_⟩
  intro h
  exact absurd (h.flags .Z) (by decide)

end AvrEmulator
