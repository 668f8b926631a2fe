import AvrEmulator.Memory
import AvrEmulator.Decoder

/-! The data transfer instructions of `executor.cpp`. -/

namespace AvrEmulator

def executeMOV (ops : OpsRdRr) : Cpu Unit := do
  setRegAt ops.d.toNat (← regAt ops.r.toNat)

def executeMOVW (ops : OpsRd06Rr06) : Cpu Unit := do
  let d := ops.d * 2
  let r := ops.r * 2
  setRegAt d.toNat (← regAt r.toNat)
  setRegAt (d.toNat + 1) (← regAt (r.toNat + 1))

def executeLDI (ops : OpsRdK8) : Cpu Unit := setRegAt ops.d.toNat ops.k

/-! ## Indirect, through the pointer pair at `pair`

Mode 0 leaves the pointer alone, 1 increments it after, 2 decrements it before. -/

/-- The address of the access, with a pre-decremented pointer written back. -/
def enterIndirect (pair mode : Byte) : Cpu Word := do
  let pointer ← readRegWord pair
  if mode = 2 then
    writeRegWord pair (pointer - 1)
    return pointer - 1
  else
    return pointer

def leaveIndirect (pair mode : Byte) (pointer : Word) : Cpu Unit :=
  if mode = 1 then writeRegWord pair (pointer + 1) else pure ()

def loadIndirect (pair : Byte) (ops : OpsLdSt) : Emu Unit := do
  let pointer ← onCpu (enterIndirect pair ops.mode)
  let value ← readDataByte pointer
  onCpu (setRegAt ops.d.toNat value)
  onCpu (leaveIndirect pair ops.mode pointer)

def loadDisplaced (pair : Byte) (ops : OpsLdd) : Emu Unit := do
  let pointer ← onCpu (readRegWord pair)
  let value ← readDataByte (pointer + ops.q.setWidth 16)
  onCpu (setRegAt ops.d.toNat value)

/-- The stored register is read after a pre-decrement. -/
def storeIndirect (pair : Byte) (ops : OpsLdSt) : Emu Unit := do
  let pointer ← onCpu (enterIndirect pair ops.mode)
  let value ← onCpu (regAt ops.d.toNat)
  writeDataByte pointer value
  onCpu (leaveIndirect pair ops.mode pointer)

def storeDisplaced (pair : Byte) (ops : OpsLdd) : Emu Unit := do
  let pointer ← onCpu (readRegWord pair)
  let value ← onCpu (regAt ops.d.toNat)
  writeDataByte (pointer + ops.q.setWidth 16) value

def executeLD_X (ops : OpsLdSt) : Emu Unit := loadIndirect 26 ops
def executeLD_Y (ops : OpsLdSt) : Emu Unit := loadIndirect 28 ops
def executeLD_Z (ops : OpsLdSt) : Emu Unit := loadIndirect 30 ops
def executeLDD_Y (ops : OpsLdd) : Emu Unit := loadDisplaced 28 ops
def executeLDD_Z (ops : OpsLdd) : Emu Unit := loadDisplaced 30 ops
def executeST_X (ops : OpsLdSt) : Emu Unit := storeIndirect 26 ops
def executeST_Y (ops : OpsLdSt) : Emu Unit := storeIndirect 28 ops
def executeST_Z (ops : OpsLdSt) : Emu Unit := storeIndirect 30 ops
def executeSTD_Y (ops : OpsLdd) : Emu Unit := storeDisplaced 28 ops
def executeSTD_Z (ops : OpsLdd) : Emu Unit := storeDisplaced 30 ops

def executeLDS (ops : OpsLdsSts) : Emu Unit := do
  let value ← readDataByte ops.addr
  onCpu (setRegAt ops.d.toNat value)

def executeSTS (ops : OpsLdsSts) : Emu Unit := do
  let value ← onCpu (regAt ops.d.toNat)
  writeDataByte ops.addr value

def executeIN (ops : OpsRdIO) : Emu Unit := do
  let value ← readDataByte (ops.a.setWidth 16 + 0x20)
  onCpu (setRegAt ops.d.toNat value)

def executeOUT (ops : OpsIORr) : Emu Unit := do
  let value ← onCpu (regAt ops.r.toNat)
  writeDataByte (ops.a.setWidth 16 + 0x20) value

def executePOP (ops : OpsRd) : Emu Unit := do
  let value ← popByte
  onCpu (setRegAt ops.d.toNat value)

def executePUSH (ops : OpsRd) : Emu Unit := do
  let value ← onCpu (regAt ops.d.toNat)
  pushByte value

def faultLpm (addr : Word) : Emu Unit := do
  modify fun m => { m with
    error := m.error.emuErrorPcAddr m.error.faultPc addr "LPM" "flash read out of bounds" }
  memorySignalFault

def executeLPM (ops : OpsRd) (mode : Byte) : Emu Unit := do
  let pointer ← onCpu (readRegWord 30)
  if pointer.toNat ≥ avrFlashSize then faultLpm pointer
  else
    let value ← onCpu (flashAt pointer.toNat)
    onCpu (setRegAt ops.d.toNat value)
    if mode = 1 then onCpu (writeRegWord 30 (pointer + 1))

/-- Out-of-range addresses are ignored without a fault. -/
def executeSPM : Cpu Unit := do
  let pointer ← readRegWord 30
  if pointer.toNat + 1 ≥ avrFlashSize then return
  setFlashAt pointer.toNat (← regAt 0)
  setFlashAt (pointer.toNat + 1) (← regAt 1)

end AvrEmulator
