import AvrEmulator.Machine
import AvrEmulator.Decoder

/-! The arithmetic, logic, shift and compare instructions of `executor.cpp`.
They touch registers and SREG only. -/

namespace AvrEmulator

def putFlags (keep : Byte) (f : Flags) : Cpu Unit :=
  modify fun s => { s with sreg := packSreg keep s.sreg f }

/-- Write a result register, then rebuild SREG around the kept bits. -/
def putResult (keep d : Byte) (result : Byte × Flags) : Cpu Unit := do
  setRegAt d.toNat result.1
  putFlags keep result.2

def AvrState.withFlags (s : AvrState) (keep : Byte) (f : Flags) : AvrState :=
  { s with sreg := packSreg keep s.sreg f }

def AvrState.withResult (s : AvrState) (keep d : Byte) (result : Byte × Flags) : AvrState :=
  (s.setReg d.toNat result.1).withFlags keep result.2

@[simp] theorem AvrState.reg_withFlags (s : AvrState) (keep : Byte) (f : Flags) (i : Nat) :
    (s.withFlags keep f).reg i = s.reg i := rfl

theorem AvrState.getFlag_withFlags (s : AvrState) (keep : Byte) (f : Flags) (b : SregBit) :
    (s.withFlags keep f).getFlag b = (s.getFlag b && keep.getLsbD b.index || f.get b) := by
  rw [getFlag_eq, getFlag_eq, withFlags, getLsbD_packSreg]

theorem AvrState.getFlag_withResult (s : AvrState) (keep d : Byte) (result : Byte × Flags)
    (b : SregBit) : (s.withResult keep d result).getFlag b =
      (s.getFlag b && keep.getLsbD b.index || result.2.get b) :=
  AvrState.getFlag_withFlags _ _ _ _

theorem run_putResult (keep : Byte) {d : Byte} (result : Byte × Flags) (s : AvrState)
    (h : d.toNat < 32) :
    (putResult keep d result).run s = some ((), s.withResult keep d result) := by
  rw [putResult, Checked.run_bind_of (run_setRegAt _ h)]
  rfl

/-- `(state.sreg >> SREG_C) & 1` -/
def carryIn (sreg : Byte) : Byte := (sreg >>> SregBit.C.index) &&& 1

/-- `rd + rr + ci` with its flags. `keepZ` is false where an earlier byte of a
chain was not zero. -/
def addition (rd rr ci : Byte) (keepZ : Bool) : Byte × Flags :=
  let result16 : Word := rd.setWidth 16 + rr.setWidth 16 + ci.setWidth 16
  let result8 : Byte := result16.setWidth 8
  let v : Bool := (rd ^^^ result8) &&& (rr ^^^ result8) &&& 0x80 ≠ 0
  let n : Bool := result8 &&& 0x80 ≠ 0
  (result8, {
    h := (rd &&& 0x0F) + (rr &&& 0x0F) + ci > 0x0F
    s := n ^^ v
    v := v
    n := n
    z := keepZ && result8 = 0
    c := result16 > 0xFF })

/-- `rd - rr - ci` with its flags. -/
def subtraction (rd rr ci : Byte) (keepZ : Bool) : Byte × Flags :=
  let result16 : Word := rd.setWidth 16 - rr.setWidth 16 - ci.setWidth 16
  let result8 : Byte := result16.setWidth 8
  let v : Bool := (rd ^^^ rr) &&& (rd ^^^ result8) &&& 0x80 ≠ 0
  let n : Bool := result8 &&& 0x80 ≠ 0
  (result8, {
    h := (rd &&& 0x0F) < (rr &&& 0x0F) + ci
    s := n ^^ v
    v := v
    n := n
    z := keepZ && result8 = 0
    c := result16 > 0xFF })

def executeADC (ops : OpsRdRr) : Cpu Unit := do
  let rd ← regAt ops.d.toNat
  let rr ← regAt ops.r.toNat
  let s ← get
  putResult 0xC0 ops.d (addition rd rr (carryIn s.sreg) (s.getFlag .Z))

def executeADD (ops : OpsRdRr) : Cpu Unit := do
  let rd ← regAt ops.d.toNat
  let rr ← regAt ops.r.toNat
  putResult 0xC0 ops.d (addition rd rr 0 true)

def executeSBC (ops : OpsRdRr) : Cpu Unit := do
  let rd ← regAt ops.d.toNat
  let rr ← regAt ops.r.toNat
  let s ← get
  putResult 0xC0 ops.d (subtraction rd rr (carryIn s.sreg) (s.getFlag .Z))

def executeSBCI (ops : OpsRdK8) : Cpu Unit := do
  let rd ← regAt ops.d.toNat
  let s ← get
  putResult 0xC0 ops.d (subtraction rd ops.k (carryIn s.sreg) (s.getFlag .Z))

def executeSUB (ops : OpsRdRr) : Cpu Unit := do
  let rd ← regAt ops.d.toNat
  let rr ← regAt ops.r.toNat
  putResult 0xC0 ops.d (subtraction rd rr 0 true)

def executeSUBI (ops : OpsRdK8) : Cpu Unit := do
  let rd ← regAt ops.d.toNat
  putResult 0xC0 ops.d (subtraction rd ops.k 0 true)

/-! ## Compares: flags only -/

def executeCP (ops : OpsRdRr) : Cpu Unit := do
  let rd ← regAt ops.d.toNat
  let rr ← regAt ops.r.toNat
  putFlags 0xC0 (subtraction rd rr 0 true).2

def executeCPC (ops : OpsRdRr) : Cpu Unit := do
  let rd ← regAt ops.d.toNat
  let rr ← regAt ops.r.toNat
  let s ← get
  putFlags 0xC0 (subtraction rd rr (carryIn s.sreg) (s.getFlag .Z)).2

def executeCPI (ops : OpsRdK8) : Cpu Unit := do
  let rd ← regAt ops.d.toNat
  putFlags 0xC0 (subtraction rd ops.k 0 true).2

/-- INC and DEC leave C alone. -/
def counted (result8 : Byte) (v : Bool) : Byte × Flags :=
  let n : Bool := result8 &&& 0x80 ≠ 0
  (result8, { s := n ^^ v, v := v, n := n, z := result8 = 0 })

def executeDEC (ops : OpsRd) : Cpu Unit := do
  let rd ← regAt ops.d.toNat
  putResult 0xE1 ops.d (counted (rd - 1) (rd = 0x80))

def executeINC (ops : OpsRd) : Cpu Unit := do
  let rd ← regAt ops.d.toNat
  putResult 0xE1 ops.d (counted (rd + 1) (rd = 0x7F))

def executeNEG (ops : OpsRd) : Cpu Unit := do
  let rd ← regAt ops.d.toNat
  let result8 := -rd
  let v : Bool := rd = 0x80
  let n : Bool := result8 &&& 0x80 ≠ 0
  putResult 0xC0 ops.d (result8, {
    h := result8 &&& 0x08 ≠ 0 ∨ rd &&& 0x08 ≠ 0
    s := n ^^ v
    v := v
    n := n
    z := result8 = 0
    c := result8 ≠ 0 })

/-- The register pair at `d`, low byte first. -/
def pairAt (d : Byte) : Cpu Word := do
  let lo ← regAt d.toNat
  let hi ← regAt (d.toNat + 1)
  return (hi.setWidth 16 <<< 8) ||| lo.setWidth 16

def putPair (d : Byte) (result16 : Word) (v c : Bool) : Cpu Unit := do
  let n : Bool := result16 &&& 0x8000 ≠ 0
  setRegAt d.toNat ((result16 &&& 0xFF).setWidth 8)
  setRegAt (d.toNat + 1) ((result16 >>> 8).setWidth 8)
  putFlags 0xE0 { s := n ^^ v, v := v, n := n, z := result16 = 0, c := c }

def executeADIW (ops : OpsRd06K6) : Cpu Unit := do
  let word ← pairAt ops.d
  let result16 := word + ops.k.setWidth 16
  let oldN : Bool := word &&& 0x8000 ≠ 0
  let newN : Bool := result16 &&& 0x8000 ≠ 0
  putPair ops.d result16 (!oldN && newN) (oldN && !newN)

def executeSBIW (ops : OpsRd06K6) : Cpu Unit := do
  let word ← pairAt ops.d
  let result16 := word - ops.k.setWidth 16
  let oldN : Bool := word &&& 0x8000 ≠ 0
  let newN : Bool := result16 &&& 0x8000 ≠ 0
  putPair ops.d result16 (oldN && !newN) (!oldN && newN)

/-! ## Multiplication: the product goes to R1:R0, only Z and C change -/

def putProduct (result16 : Word) : Cpu Unit := do
  setRegAt 0 ((result16 &&& 0xFF).setWidth 8)
  setRegAt 1 ((result16 >>> 8).setWidth 8)
  putFlags 0xFC { z := result16 = 0, c := result16 &&& 0x8000 ≠ 0 }

def executeMUL (ops : OpsRdRr) : Cpu Unit := do
  let rd ← regAt ops.d.toNat
  let rr ← regAt ops.r.toNat
  putProduct (rd.setWidth 16 * rr.setWidth 16)

def executeMULS (ops : OpsRd06Rr06) : Cpu Unit := do
  let rd ← regAt (ops.d.toNat + 16)
  let rr ← regAt (ops.r.toNat + 16)
  putProduct (rd.signExtend 16 * rr.signExtend 16)

def executeMULSU (ops : OpsRdRrMpy) : Cpu Unit := do
  let rd ← regAt ops.d.toNat
  let rr ← regAt ops.r.toNat
  putProduct (rd.signExtend 16 * rr.setWidth 16)

def executeFMUL (ops : OpsRdRrMpy) : Cpu Unit := do
  let rd ← regAt ops.d.toNat
  let rr ← regAt ops.r.toNat
  putProduct ((rd.setWidth 16 * rr.setWidth 16) <<< 1)

def executeFMULS (ops : OpsRdRrMpy) : Cpu Unit := do
  let rd ← regAt ops.d.toNat
  let rr ← regAt ops.r.toNat
  putProduct ((rd.signExtend 16 * rr.signExtend 16) <<< 1)

def executeFMULSU (ops : OpsRdRrMpy) : Cpu Unit := do
  let rd ← regAt ops.d.toNat
  let rr ← regAt ops.r.toNat
  putProduct ((rd.signExtend 16 * rr.setWidth 16) <<< 1)

def logical (result8 : Byte) : Byte × Flags :=
  let n : Bool := result8 &&& 0x80 ≠ 0
  (result8, { s := n, n := n, z := result8 = 0 })

/-- Rebuild SREG with the mask every logic executor writes. -/
def putLogical (d result8 : Byte) : Cpu Unit := putResult 0xE4 d (logical result8)

def executeAND (ops : OpsRdRr) : Cpu Unit := do
  let rd ← regAt ops.d.toNat
  let rr ← regAt ops.r.toNat
  putLogical ops.d (rd &&& rr)

def executeANDI (ops : OpsRdK8) : Cpu Unit := do
  let rd ← regAt ops.d.toNat
  putLogical ops.d (rd &&& ops.k)

def executeEOR (ops : OpsRdRr) : Cpu Unit := do
  let rd ← regAt ops.d.toNat
  let rr ← regAt ops.r.toNat
  putLogical ops.d (rd ^^^ rr)

def executeOR (ops : OpsRdRr) : Cpu Unit := do
  let rd ← regAt ops.d.toNat
  let rr ← regAt ops.r.toNat
  putLogical ops.d (rd ||| rr)

def executeORI (ops : OpsRdK8) : Cpu Unit := do
  let rd ← regAt ops.d.toNat
  putLogical ops.d (rd ||| ops.k)

def executeCOM (ops : OpsRd) : Cpu Unit := do
  let rd ← regAt ops.d.toNat
  let result8 := 0xFF - rd
  let n : Bool := result8 &&& 0x80 ≠ 0
  putResult 0xE0 ops.d (result8, { s := n, n := n, z := result8 = 0, c := true })

def executeSER (ops : OpsRdK8) : Cpu Unit := setRegAt ops.d.toNat 0xFF

def executeSWAP (ops : OpsRd) : Cpu Unit := do
  let rd ← regAt ops.d.toNat
  setRegAt ops.d.toNat ((rd <<< 4) ||| (rd >>> 4))

/-- One place right with `top` shifted in. -/
def shiftRight (rd top : Byte) : Byte × Flags :=
  let c : Bool := rd &&& 0x01 ≠ 0
  let result8 := (rd >>> 1) ||| top
  let n : Bool := result8 &&& 0x80 ≠ 0
  let v := n ^^ c
  (result8, { s := n ^^ v, v := v, n := n, z := result8 = 0, c := c })

def executeASR (ops : OpsRd) : Cpu Unit := do
  let rd ← regAt ops.d.toNat
  putResult 0xE0 ops.d (shiftRight rd (rd &&& 0x80))

def executeLSR (ops : OpsRd) : Cpu Unit := do
  let rd ← regAt ops.d.toNat
  putResult 0xE0 ops.d (shiftRight rd 0)

def executeROR (ops : OpsRd) : Cpu Unit := do
  let rd ← regAt ops.d.toNat
  let s ← get
  putResult 0xE0 ops.d (shiftRight rd (if sregBit s.sreg SregBit.C.index then 0x80 else 0x00))

end AvrEmulator
