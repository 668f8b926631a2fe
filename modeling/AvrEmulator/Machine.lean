import AvrEmulator.Library.Checked
import AvrEmulator.Error
import AvrEmulator.Timer0
import AvrEmulator.Uart

/-! The emulator's whole mutable state: the `AvrState` together with the
file-scope statics of the peripheral modules. Programs over it return `none`
exactly where the emulator would index outside one of its arrays. -/

namespace AvrEmulator

structure Machine where
  state : AvrState
  timer0 : Timer0
  uart : Uart
  interrupts : Interrupts
  /-- `g_memoryFault` -/
  fault : Bool
  error : ErrorState

/-- The process before `executeProgram` first ran, around a given CPU state. -/
def Machine.initial (s : AvrState) : Machine :=
  ⟨s, timer0Reset, .initial, ⟨false, 0⟩, false, .initial⟩

/-- Code that has only the `AvrState&` it is given. -/
abbrev Cpu (α : Type) := StateT AvrState Option α

/-- Code that also reaches the statics. -/
abbrev Emu (α : Type) := StateT Machine Option α

def Machine.setState (m : Machine) (s : AvrState) : Machine := { m with state := s }

/-- Call code that touches nothing but the CPU state. -/
def onCpu {α : Type} (x : Cpu α) : Emu α := Checked.zoom Machine.state Machine.setState x

theorem run_onCpu {α : Type} {x : Cpu α} {m : Machine} {a : α} {s : AvrState}
    (h : x.run m.state = some (a, s)) : (onCpu x).run m = some (a, m.setState s) :=
  Checked.run_zoom h

theorem onCpu_inv {α : Type} {x : Cpu α} {m m' : Machine} {a : α}
    (h : (onCpu x).run m = some (a, m')) :
    ∃ s, x.run m.state = some (a, s) ∧ m' = m.setState s := Checked.zoom_inv h

def AvrState.reg (s : AvrState) (i : Nat) : Byte := s.r.peek i

def AvrState.setReg (s : AvrState) (i : Nat) (v : Byte) : AvrState := { s with r := s.r.poke i v }

@[simp] theorem AvrState.reg_setReg_self (s : AvrState) {i : Nat} (v : Byte) (h : i < 32) :
    (s.setReg i v).reg i = v := s.r.peek_poke_self v h

@[simp] theorem AvrState.reg_setReg_of_ne (s : AvrState) {i j : Nat} (v : Byte) (h : j ≠ i) :
    (s.setReg i v).reg j = s.reg j := s.r.peek_poke_of_ne v h

/-- `state.r[i]` -/
def regAt (i : Nat) : Cpu Byte := do
  (← get).r.read? i

/-- `state.r[i] = value` -/
def setRegAt (i : Nat) (value : Byte) : Cpu Unit := do
  let s ← get
  let r ← s.r.write? i value
  set { s with r := r }

theorem run_regAt {s : AvrState} {i : Nat} (h : i < 32) :
    (regAt i).run s = some (s.reg i, s) := by
  simp [regAt, Cells.read?_eq _ h, AvrState.reg]

theorem run_setRegAt {s : AvrState} {i : Nat} (value : Byte) (h : i < 32) :
    (setRegAt i value).run s = some ((), s.setReg i value) := by
  simp [setRegAt, Cells.write?_eq _ _ h, AvrState.setReg]

def readReg (reg : Byte) : Cpu Byte := regAt reg.toNat

def writeReg (reg value : Byte) : Cpu Unit := setRegAt reg.toNat value

/-- Low byte `r[reg]`, high byte `r[reg + 1]`. -/
def readRegWord (reg : Byte) : Cpu Word := do
  let lo ← regAt reg.toNat
  let hi ← regAt (reg.toNat + 1)
  return lo.setWidth 16 ||| (hi.setWidth 16 <<< 8)

def writeRegWord (reg : Byte) (value : Word) : Cpu Unit := do
  setRegAt reg.toNat ((value &&& 0xFF).setWidth 8)
  setRegAt (reg.toNat + 1) ((value >>> 8).setWidth 8)

end AvrEmulator
