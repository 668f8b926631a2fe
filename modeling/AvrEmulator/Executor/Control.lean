import AvrEmulator.Memory
import AvrEmulator.Decoder

/-! Branches, jumps, calls, skips and bit instructions of `executor.cpp`. The
program counter already points past the instruction. -/

namespace AvrEmulator

def setPc (pc : Word) : Cpu Unit := modify fun s => { s with pc := pc }

def addPc (bytes : Word) : Cpu Unit := modify fun s => { s with pc := s.pc + bytes }

def setExtraCycles (cycles : Byte) : Cpu Unit := modify fun s => { s with extraCycles := cycles }

/-- `flash[i] | (flash[i + 1] << 8)` -/
def fetchWord (i : Nat) : Cpu Word := do
  let lo ← flashAt i
  let hi ← flashAt (i + 1)
  return lo.setWidth 16 ||| (hi.setWidth 16 <<< 8)

/-- BRBC and BRBS: a taken branch costs a cycle. -/
def branchIf (taken : Bool) (ops : OpsK7) : Cpu Unit := do
  if sregBit (← get).sreg ops.s.toNat = taken then
    addPc (ops.k.signExtend 16 * 2)
    setExtraCycles 1

def executeBRBC (ops : OpsK7) : Cpu Unit := branchIf false ops
def executeBRBS (ops : OpsK7) : Cpu Unit := branchIf true ops

def executeRJMP (ops : OpsK02) : Cpu Unit := addPc (ops.k * 2)

def executeJMP (ops : OpsK22) : Cpu Unit := setPc ((ops.k * 2).setWidth 16)

def executeIJMP : Cpu Unit := do
  let z ← readRegWord 30
  setPc (z * 2)

def pushPc : Emu Unit := do
  pushWord (← get).state.pc

def executeRCALL (ops : OpsK02) : Emu Unit := do
  pushPc
  onCpu (addPc (ops.k * 2))

def executeCALL (ops : OpsK22) : Emu Unit := do
  pushPc
  onCpu (setPc ((ops.k * 2).setWidth 16))

def executeICALL : Emu Unit := do
  pushPc
  onCpu executeIJMP

def executeRET : Emu Unit := do
  let pc ← popWord
  onCpu (setPc pc)

def executeRETI : Emu Unit := do
  let pc ← popWord
  onCpu (setPc pc)
  onCpu (modify fun s => s.setFlag .I)

def reportPc (context : String) : Emu Unit :=
  modify fun m => { m with error := m.error.emuErrorPc m.state.pc context }

def reportPcInstr (instr : Word) (context : String) : Emu Unit :=
  modify fun m => { m with error := m.error.emuErrorPcInstr m.state.pc instr context }

def skipNextInstruction (context : String) : Emu Unit := do
  let pc := (← get).state.pc
  if pc.toNat + 1 ≥ avrFlashSize then
    reportPc context
    memorySignalFault
  else
    let nextInstr ← onCpu (fetchWord pc.toNat)
    match decodeInstruction nextInstr with
    | none =>
      reportPcInstr nextInstr context
      memorySignalFault
    | some nextOp => onCpu (addPc (nextOp.words.setWidth 16 * 2))

/-- A skip costs a cycle, also when it faults. -/
def skipIf (taken : Bool) (context : String) : Emu Unit :=
  if taken then do
    skipNextInstruction context
    onCpu (setExtraCycles 1)
  else pure ()

def executeCPSE (ops : OpsRdRr) : Emu Unit := do
  let rd ← onCpu (regAt ops.d.toNat)
  let rr ← onCpu (regAt ops.r.toNat)
  skipIf (rd = rr) "CPSE skip: unknown next instruction"

def executeSBIC (ops : OpsIOB) : Emu Unit := do
  let bit ← getIOBit ops.a ops.b
  skipIf (!bit) "SBIC skip: unknown next instruction"

def executeSBIS (ops : OpsIOB) : Emu Unit := do
  let bit ← getIOBit ops.a ops.b
  skipIf bit "SBIS skip: unknown next instruction"

def executeSBRC (ops : OpsRrB) : Emu Unit := do
  let rr ← onCpu (regAt ops.r.toNat)
  skipIf (!sregBit rr ops.b.toNat) "SBRC skip: unknown next instruction"

def executeSBRS (ops : OpsRrB) : Emu Unit := do
  let rr ← onCpu (regAt ops.r.toNat)
  skipIf (sregBit rr ops.b.toNat) "SBRS skip: unknown next instruction"

/-- `setFlag` with the SREG bit cast from the operand. -/
def executeBSET (ops : OpsBOnly) : Cpu Unit :=
  modify fun s => { s with sreg := s.sreg ||| ((1 : Byte) <<< ops.b.toNat) }

def executeBCLR (ops : OpsBOnly) : Cpu Unit :=
  modify fun s => { s with sreg := s.sreg &&& ~~~((1 : Byte) <<< ops.b.toNat) }

def executeBLD (ops : OpsRdB) : Cpu Unit := do
  let rd ← regAt ops.d.toNat
  if (← get).getFlag .T then setRegAt ops.d.toNat (rd ||| ((1 : Byte) <<< ops.b.toNat))
  else setRegAt ops.d.toNat (rd &&& ~~~((1 : Byte) <<< ops.b.toNat))

def executeBST (ops : OpsRdB) : Cpu Unit := do
  let rd ← regAt ops.d.toNat
  if sregBit rd ops.b.toNat then modify fun s => s.setFlag .T
  else modify fun s => s.clearFlag .T

def executeCBI (ops : OpsIOB) : Emu Unit := clearIOBit ops.a ops.b

def executeSBI (ops : OpsIOB) : Emu Unit := setIOBit ops.a ops.b

/-! ## MCU control: no effect -/

def executeNOP : Cpu Unit := pure ()
def executeSLEEP : Cpu Unit := pure ()
def executeWDR : Cpu Unit := pure ()
def executeBREAK : Cpu Unit := pure ()

end AvrEmulator
