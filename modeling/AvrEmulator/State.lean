import AvrEmulator.Library.Bits
import AvrEmulator.Library.Cells

/-! The mutable state of one ATmega328P (`state.h`) and the status register
bits (`memory.h`). The program counter is a byte address into flash. -/

namespace AvrEmulator

abbrev Byte := BitVec 8
abbrev Word := BitVec 16

abbrev avrFlashSize : Nat := 32768
abbrev avrSramSize : Nat := 2304
abbrev avrEepromSize : Nat := 1024

structure AvrState where
  r : Cells 32 Byte
  pc : Word
  sreg : Byte
  sp : Word
  cycleCount : BitVec 64
  extraCycles : Byte
  flash : Cells avrFlashSize Byte
  sram : Cells avrSramSize Byte
  eeprom : Cells avrEepromSize Byte

/-- A zero-initialised state, as `AvrState s{}` gives it. -/
def AvrState.zero : AvrState :=
  ⟨.fill _ 0, 0, 0, 0, 0, 0, .fill _ 0, .fill _ 0, .fill _ 0⟩

/-- Power-on reset. SRAM and flash hold the loaded firmware and stay. -/
def clearState (s : AvrState) : AvrState :=
  { s with
    r := .fill _ 0
    pc := 0
    sreg := 0
    sp := 0x08FF
    cycleCount := 0
    extraCycles := 0
    eeprom := .fill _ 0 }

inductive SregBit where
  | C | Z | N | V | S | H | T | I
  deriving DecidableEq, Repr

def SregBit.index : SregBit → Nat
  | .C => 0 | .Z => 1 | .N => 2 | .V => 3 | .S => 4 | .H => 5 | .T => 6 | .I => 7

theorem SregBit.index_lt (b : SregBit) : b.index < 8 := by cases b <;> decide

theorem SregBit.index_inj {a b : SregBit} (h : a.index = b.index) : a = b := by
  cases a <;> cases b <;> first | rfl | exact absurd h (by decide)

/-- `(sreg >> bit) & 1`, read as a truth value. -/
def sregBit (sreg : Byte) (bit : Nat) : Bool := (sreg >>> bit) &&& 1 ≠ 0

theorem sregBit_eq (sreg : Byte) (bit : Nat) : sregBit sreg bit = sreg.getLsbD bit := by
  have h : (sreg >>> bit) &&& 1 = BitVec.setWidth 8 (BitVec.ofBool (sreg.getLsbD bit)) := by
    have := BitVec.and_one_eq_setWidth_ofBool_getLsbD (x := sreg >>> bit)
    simpa using this
  unfold sregBit
  rw [h]
  cases sreg.getLsbD bit <;> decide

def AvrState.getFlag (s : AvrState) (bit : SregBit) : Bool := sregBit s.sreg bit.index

def AvrState.setFlag (s : AvrState) (bit : SregBit) : AvrState :=
  { s with sreg := s.sreg ||| ((1 : Byte) <<< bit.index) }

def AvrState.clearFlag (s : AvrState) (bit : SregBit) : AvrState :=
  { s with sreg := s.sreg &&& ~~~((1 : Byte) <<< bit.index) }

theorem and_sign_ne_zero (x : Byte) : (x &&& 0x80 ≠ 0) ↔ x.msb = true := by
  have h := Bits.and_one_shl_ne_zero x (k := 7) (by decide)
  rw [BitVec.msb_eq_getLsbD_last]
  exact h

theorem decide_and_sign (x : Byte) : decide (x &&& 0x80 ≠ 0) = x.msb := by
  have h := and_sign_ne_zero x
  cases hm : x.msb <;> simp_all

theorem AvrState.getFlag_eq (s : AvrState) (bit : SregBit) :
    s.getFlag bit = s.sreg.getLsbD bit.index := sregBit_eq _ _

theorem AvrState.getFlag_clearFlag (s : AvrState) (a b : SregBit) :
    (s.clearFlag a).getFlag b = (!decide (b = a) && s.getFlag b) := by
  simp only [getFlag_eq, clearFlag, BitVec.getLsbD_and, BitVec.getLsbD_not,
    Bits.getLsbD_one_shl]
  by_cases h : b = a
  · subst h
    simp [b.index_lt]
  · have hi : b.index ≠ a.index := fun he => h (SregBit.index_inj he)
    simp [h, hi, b.index_lt]

/-- The flags an instruction computes. Those it leaves out contribute no bit. -/
structure Flags where
  h : Bool := false
  s : Bool := false
  v : Bool := false
  n : Bool := false
  z : Bool := false
  c : Bool := false
  deriving DecidableEq, Repr

def Flags.get (f : Flags) : SregBit → Bool
  | .C => f.c | .Z => f.z | .N => f.n | .V => f.v | .S => f.s | .H => f.h
  | .T => false | .I => false

/-- `(b << bit)` for a C++ `bool`. -/
def flagShl (b : Bool) (bit : SregBit) : Byte := BitVec.setWidth 8 (BitVec.ofBool b) <<< bit.index

/-- `(sreg & keep) | (s << SREG_S) | (v << SREG_V) | ...`, the expression with
which every arithmetic and logic instruction ends. -/
def packSreg (keep sreg : Byte) (f : Flags) : Byte :=
  (sreg &&& keep) ||| flagShl f.s .S ||| flagShl f.v .V ||| flagShl f.n .N
    ||| flagShl f.z .Z ||| flagShl f.c .C ||| flagShl f.h .H

theorem getLsbD_flagShl (b : Bool) (k i : SregBit) :
    (flagShl b k).getLsbD i.index = (b && decide (i = k)) := by
  cases b <;> cases k <;> cases i <;> decide

/-- Each bit of the new SREG is the kept old bit or the computed flag. -/
theorem getLsbD_packSreg (keep sreg : Byte) (f : Flags) (i : SregBit) :
    (packSreg keep sreg f).getLsbD i.index =
      (sreg.getLsbD i.index && keep.getLsbD i.index || f.get i) := by
  simp only [packSreg, BitVec.getLsbD_or, BitVec.getLsbD_and, getLsbD_flagShl]
  cases i <;> simp [Flags.get]

end AvrEmulator
