import AvrEmulator.Machine

/-! The unified data space and the stack (`memory.cpp`). -/

namespace AvrEmulator

def dataSpaceEnd : Word := 0x08FF
def stackBottom : Word := 0x0100

def memorySignalFault : Emu Unit := modify fun m => { m with fault := true }

def memoryClearFault : Emu Unit := modify fun m => { m with fault := false }

def memoryFaultPending : Emu Bool := do return (← get).fault

/-- The register dump `dumpFaultContext` prints beside it is left out. -/
def faultDataAddr (addr : Word) (access : String) : Emu Unit :=
  modify fun m => { m with
    fault := true
    error := m.error.emuErrorPcAddr m.error.faultPc addr access "invalid data-space access" }

def faultStack (detail : String) : Emu Unit :=
  modify fun m => { m with
    fault := true
    error := m.error.emuErrorPc m.error.faultPc detail }

def dataAddrOk (addr : Word) : Bool := addr ≤ dataSpaceEnd

/-- `state.sram[i]` -/
def sramAt (i : Nat) : Cpu Byte := do
  (← get).sram.read? i

/-- `state.sram[i] = value` -/
def setSramAt (i : Nat) (value : Byte) : Cpu Unit := do
  let s ← get
  let sram ← s.sram.write? i value
  set { s with sram := sram }

/-- `state.flash[i]` -/
def flashAt (i : Nat) : Cpu Byte := do
  (← get).flash.read? i

/-- `state.flash[i] = value` -/
def setFlashAt (i : Nat) (value : Byte) : Cpu Unit := do
  let s ← get
  let flash ← s.flash.write? i value
  set { s with flash := flash }

def callUartRead (ioAddr : Byte) : Emu Byte := do
  let m ← get
  let (value, uart) := m.uart.uartRead ioAddr
  set { m with uart := uart }
  return value

def callUartWrite (ioAddr value : Byte) : Emu Unit :=
  modify fun m =>
    let (uart, interrupts) := m.uart.uartWrite m.interrupts ioAddr value
    { m with uart := uart, interrupts := interrupts }

/-- First match wins. The peripheral handlers take an 8-bit I/O address, so the
re-based address is cut to its low byte on the way. -/
def readDataByte (addr : Word) : Emu Byte := do
  let m ← get
  if addr < 0x20 then onCpu (regAt addr.toNat)
  else if addr = 0x5D then return (m.state.sp &&& 0xFF).setWidth 8
  else if addr = 0x5E then return (m.state.sp >>> 8).setWidth 8
  else if addr = 0x5F then return m.state.sreg
  else
    match m.timer0.timer0Read ((addr - 0x20).setWidth 8) with
    | some value => return value
    | none =>
      if addr ≥ 0xC0 ∧ addr ≤ 0xC6 then callUartRead ((addr - 0xC0).setWidth 8)
      else if addr ≥ 0x29 ∧ addr ≤ 0x2D then callUartRead ((addr - 0x20).setWidth 8)
      else if !dataAddrOk addr then
        faultDataAddr addr "read"
        return 0
      else onCpu (sramAt addr.toNat)

def setSp (sp : Word) : Emu Unit :=
  modify fun m => m.setState { m.state with sp := sp }

def writeDataByte (addr : Word) (value : Byte) : Emu Unit := do
  let m ← get
  if addr < 0x20 then onCpu (setRegAt addr.toNat value)
  else if addr = 0x5D then setSp ((m.state.sp &&& 0xFF00) ||| value.setWidth 16)
  else if addr = 0x5E then setSp ((m.state.sp &&& 0x00FF) ||| (value.setWidth 16 <<< 8))
  else if addr = 0x5F then set (m.setState { m.state with sreg := value })
  else
    match m.timer0.timer0Write ((addr - 0x20).setWidth 8) value with
    | some timer0 => set { m with timer0 := timer0 }
    | none =>
      if addr ≥ 0xC0 ∧ addr ≤ 0xC6 then callUartWrite ((addr - 0xC0).setWidth 8) value
      else if addr ≥ 0x29 ∧ addr ≤ 0x2D then callUartWrite ((addr - 0x20).setWidth 8) value
      else if !dataAddrOk addr then faultDataAddr addr "write"
      else onCpu (setSramAt addr.toNat value)

def ioDataAddr (ioAddr : Byte) : Word := 0x20 + ioAddr.setWidth 16

def getIOBit (ioAddr bit : Byte) : Emu Bool := do
  let value ← readDataByte (ioDataAddr ioAddr)
  return sregBit value bit.toNat

def setIOBit (ioAddr bit : Byte) : Emu Unit := do
  let value ← readDataByte (ioDataAddr ioAddr)
  writeDataByte (ioDataAddr ioAddr) (value ||| ((1 : Byte) <<< bit.toNat))

def clearIOBit (ioAddr bit : Byte) : Emu Unit := do
  let value ← readDataByte (ioDataAddr ioAddr)
  writeDataByte (ioDataAddr ioAddr) (value &&& ~~~((1 : Byte) <<< bit.toNat))

def pushByte (value : Byte) : Emu Unit := do
  let m ← get
  if m.state.sp < stackBottom ∨ m.state.sp > dataSpaceEnd then
    faultStack "stack overflow (SP would drop below 0x0100)"
  else
    writeDataByte m.state.sp value
    modify fun m => m.setState { m.state with sp := m.state.sp - 1 }

def popByte : Emu Byte := do
  let m ← get
  if m.state.sp ≥ dataSpaceEnd then
    faultStack "stack underflow (SP above RAMEND 0x08FF)"
    return 0
  else
    setSp (m.state.sp + 1)
    readDataByte (m.state.sp + 1)

/-- Low byte first, at the higher address. -/
def pushWord (value : Word) : Emu Unit := do
  pushByte ((value &&& 0xFF).setWidth 8)
  pushByte ((value >>> 8).setWidth 8)

def popWord : Emu Word := do
  let hi ← popByte
  let lo ← popByte
  return (hi.setWidth 16 <<< 8) ||| lo.setWidth 16

end AvrEmulator
