import AvrEmulator.Library.Transition
import AvrEmulator.Service

/-! The UART between the host and the program: host calls, polls, data-space
accesses and interrupt service, in any order. -/

namespace AvrEmulator

open Checked

/-- An action of the host or of the emulator. `other` stands for anything that
leaves the UART and the pending set alone, changes of I among it. -/
inductive Access where
  | injectRx (byte : Byte)
  | popTx
  | poll (stdin : Option Byte)
  | load (addr : Word)
  | store (addr : Word) (value : Byte)
  | other (m : Machine)
  | raiseTimer0
  | service

/-- What an action shows. -/
inductive Seen where
  | nothing
  | popped (bytes : List Byte)
  | polled (byteReady : Bool)
  /-- A load, with what RXC0 reads at the time. -/
  | loaded (value : Byte) (rxc : Bool)
  /-- Service took the vector off the pending set and dispatched it, or dropped
  it for want of a handler. -/
  | took (vec : InterruptVector) (dispatched : Bool)
  deriving DecidableEq, Repr

namespace Uart

/-- A received byte waits to be read. -/
def rxReady (u : Uart) : Bool := if u.tuiMode then u.rxHwReady else u.stdinReady

theorem ucsra_rxc (u : Uart) : sregBit u.ucsra 7 = u.rxReady := by
  have flags (ready : Bool) : sregBit
      (if ready then ((1 : Byte) <<< 6) ||| ((1 : Byte) <<< 5) ||| ((1 : Byte) <<< 7)
        else ((1 : Byte) <<< 6) ||| ((1 : Byte) <<< 5)) 7 = ready := by
    cases ready <;> decide
  exact flags u.rxReady

theorem uartPoll_fst (u : Uart) (i : Interrupts) (stdin : Option Byte) :
    (u.uartPoll i stdin).1 = (u.latch stdin).2 := by
  unfold uartPoll
  dsimp only
  split <;> rfl

theorem writeControl_fst (u : Uart) (i : Interrupts) (value : Byte) :
    (u.writeControl i value).1 = { u with ucsrb := value } := by
  unfold writeControl
  dsimp only
  split <;> rfl

end Uart

namespace Machine

def access (m : Machine) : Access → Option (Seen × Machine)
  | .injectRx byte => some (.nothing, { m with uart := m.uart.uartInjectRx byte })
  | .popTx => some (.popped m.uart.uartPopTx.1, { m with uart := m.uart.uartPopTx.2 })
  | .poll stdin =>
    let (uart, interrupts) := m.uart.uartPoll m.interrupts stdin
    some (.polled (m.uart.latch stdin).1, { m with uart := uart, interrupts := interrupts })
  | .load addr => ((readDataByte addr).run m).map fun (value, m') =>
    (.loaded value (sregBit m.uart.ucsra 7), m')
  | .store addr value => ((writeDataByte addr value).run m).map fun (_, m') => (.nothing, m')
  | .other m' => some (.nothing, { m' with uart := m.uart, interrupts := m.interrupts })
  | .raiseTimer0 => some (.nothing, AvrEmulator.raiseTimer0 m)
  | .service => (interruptService.run m).map fun (result, m') =>
    ((m.candidate.map fun vec => Seen.took vec result.isSome).getD .nothing, m')

end Machine

/-- UDR0, at its two addresses. -/
def DataRegister (addr : Word) : Prop := addr = 0xC6 ∨ addr = 0x2C

/-- UCSR0B, at its two addresses. -/
def ControlRegister (addr : Word) : Prop := addr = 0xC1 ∨ addr = 0x2A

instance (addr : Word) : Decidable (DataRegister addr) := by unfold DataRegister; infer_instance

instance (addr : Word) : Decidable (ControlRegister addr) := by
  unfold ControlRegister
  infer_instance

theorem control_not_data {addr : Word} (h : ControlRegister addr) : ¬ DataRegister addr := by
  rcases h with rfl | rfl <;> decide

theorem load_data {addr : Word} (m : Machine) (h : DataRegister addr) :
    (readDataByte addr).run m =
      some (m.uart.consumeByte.1, { m with uart := m.uart.consumeByte.2 }) := by
  rcases h with rfl | rfl <;> rfl

theorem store_data {addr : Word} (m : Machine) (value : Byte) (h : DataRegister addr) :
    (writeDataByte addr value).run m = some ((), { m with
      uart := (m.uart.transmit m.interrupts value).1
      interrupts := (m.uart.transmit m.interrupts value).2 }) := by
  rcases h with rfl | rfl <;> rfl

theorem store_control {addr : Word} (m : Machine) (value : Byte) (h : ControlRegister addr) :
    (writeDataByte addr value).run m = some ((), { m with
      uart := (m.uart.writeControl m.interrupts value).1
      interrupts := (m.uart.writeControl m.interrupts value).2 }) := by
  rcases h with rfl | rfl <;> rfl

theorem Uart.uartRead_other (u : Uart) {io : Byte} (h : io ≠ 0x06 ∧ io ≠ 0x0C) :
    (u.uartRead io).2 = u := by
  unfold uartRead
  split <;> first | rfl | exact absurd rfl h.1 | exact absurd rfl h.2

/-- A store elsewhere changes at most the baud rate and the frame format. -/
theorem Uart.uartWrite_other (u : Uart) (i : Interrupts) {io : Byte} (value : Byte)
    (data : io ≠ 0x06 ∧ io ≠ 0x0C) (control : io ≠ 0x01 ∧ io ≠ 0x0A) :
    ∃ ubrrl ucsrc, u.uartWrite i io value = ({ u with ubrrl := ubrrl, ucsrc := ucsrc }, i) := by
  unfold uartWrite
  split
  all_goals first
    | exact ⟨_, _, rfl⟩
    | exact absurd rfl data.1
    | exact absurd rfl data.2
    | exact absurd rfl control.1
    | exact absurd rfl control.2

/-- A load of anything but UDR0 leaves the UART and the pending set alone. -/
theorem load_elsewhere {addr : Word} {m m' : Machine} {value : Byte} (h : ¬ DataRegister addr)
    (run : (readDataByte addr).run m = some (value, m')) :
    m'.uart = m.uart ∧ m'.interrupts = m.interrupts := by
  unfold DataRegister at h
  obtain ⟨m₀, m₁, read, run⟩ := bind_inv run
  cases read
  have window {io : Byte} (other : io ≠ 0x06 ∧ io ≠ 0x0C)
      (run : (callUartRead io).run m = some (value, m')) :
      m'.uart = m.uart ∧ m'.interrupts = m.interrupts := by
    cases run
    exact ⟨m.uart.uartRead_other other, rfl⟩
  split at run
  · obtain ⟨s, -, rfl⟩ := onCpu_inv run
    exact ⟨rfl, rfl⟩
  split at run
  · cases run
    exact ⟨rfl, rfl⟩
  split at run
  · cases run
    exact ⟨rfl, rfl⟩
  split at run
  · cases run
    exact ⟨rfl, rfl⟩
  split at run
  · cases run
    exact ⟨rfl, rfl⟩
  split at run
  next high => exact window ⟨by bv_omega, by bv_omega⟩ run
  split at run
  next low => exact window ⟨by bv_omega, by bv_omega⟩ run
  split at run
  · cases run
    exact ⟨rfl, rfl⟩
  · obtain ⟨s, -, rfl⟩ := onCpu_inv run
    exact ⟨rfl, rfl⟩

/-- A store to anything but UDR0 and UCSR0B raises nothing and leaves the received
byte, the queues and UCSR0B alone. -/
theorem store_elsewhere {addr : Word} {value : Byte} {m m' : Machine} (data : ¬ DataRegister addr)
    (control : ¬ ControlRegister addr) (run : (writeDataByte addr value).run m = some ((), m')) :
    (∃ ubrrl ucsrc, m'.uart = { m.uart with ubrrl := ubrrl, ucsrc := ucsrc }) ∧
      m'.interrupts = m.interrupts := by
  unfold DataRegister at data
  unfold ControlRegister at control
  have aside {m' : Machine} (uart : m'.uart = m.uart) (pending : m'.interrupts = m.interrupts) :
      (∃ ubrrl ucsrc, m'.uart = { m.uart with ubrrl := ubrrl, ucsrc := ucsrc }) ∧
        m'.interrupts = m.interrupts := ⟨⟨_, _, uart⟩, pending⟩
  have window {io : Byte} (data : io ≠ 0x06 ∧ io ≠ 0x0C) (control : io ≠ 0x01 ∧ io ≠ 0x0A)
      (run : (callUartWrite io value).run m = some ((), m')) :
      (∃ ubrrl ucsrc, m'.uart = { m.uart with ubrrl := ubrrl, ucsrc := ucsrc }) ∧
        m'.interrupts = m.interrupts := by
    obtain ⟨ubrrl, ucsrc, written⟩ := m.uart.uartWrite_other m.interrupts value data control
    cases run
    exact ⟨⟨ubrrl, ucsrc, congrArg Prod.fst written⟩, congrArg Prod.snd written⟩
  obtain ⟨m₀, m₁, read, run⟩ := bind_inv run
  cases read
  split at run
  · obtain ⟨s, -, rfl⟩ := onCpu_inv run
    exact aside rfl rfl
  split at run
  · cases run
    exact aside rfl rfl
  split at run
  · cases run
    exact aside rfl rfl
  split at run
  · cases run
    exact aside rfl rfl
  split at run
  · cases run
    exact aside rfl rfl
  split at run
  next high => exact window ⟨by bv_omega, by bv_omega⟩ ⟨by bv_omega, by bv_omega⟩ run
  split at run
  next low => exact window ⟨by bv_omega, by bv_omega⟩ ⟨by bv_omega, by bv_omega⟩ run
  split at run
  · cases run
    exact aside rfl rfl
  · obtain ⟨s, -, rfl⟩ := onCpu_inv run
    exact aside rfl rfl

/-! ## What an access can do -/

theorem pushed_uart (m : Machine) (value : Byte) :
    (m.pushed value).uart = m.uart ∧ (m.pushed value).interrupts = m.interrupts := by
  obtain ⟨state, timer0, stored⟩ := store_frame m m.state.sp value
  unfold Machine.pushed
  split
  · rw [stored]
    exact ⟨rfl, rfl⟩
  · exact ⟨rfl, rfl⟩

theorem entered_uart (m : Machine) (vec : InterruptVector) :
    (m.entered vec).uart = m.uart ∧ (m.entered vec).interrupts = m.interrupts := by
  have low := pushed_uart m ((m.state.pc &&& 0xFF).setWidth 8)
  have high := pushed_uart (m.pushed ((m.state.pc &&& 0xFF).setWidth 8))
    ((m.state.pc >>> 8).setWidth 8)
  exact ⟨high.1.trans low.1, high.2.trans low.2⟩

theorem settled_uart (m : Machine) : m.settled.uart = m.uart := by
  obtain ⟨i, hi⟩ := settled_frame m
  rw [hi]

/-- Service dispatches the vector it should and settles the pending set. -/
theorem service_effect {m m' : Machine} {result : Option InterruptVector}
    (run : interruptService.run m = some (result, m')) :
    result = m.dispatches ∧ m'.uart = m.uart ∧ m'.interrupts = m.settled.interrupts := by
  rw [run_interruptService] at run
  cases hd : m.dispatches with
  | none =>
    rw [hd] at run
    cases run
    exact ⟨rfl, settled_uart m, rfl⟩
  | some vec =>
    simp only [hd, run_enterHandler, Option.map_some] at run
    cases run
    have entered := entered_uart m.settled vec
    exact ⟨rfl, entered.1.trans (settled_uart m), entered.2⟩

/-- What an access shows, and the UART and pending set it leaves. -/
inductive Effect (m : Machine) : Access → Seen → Uart → Interrupts → Prop
  | injectRx (byte : Byte) :
      Effect m (.injectRx byte) .nothing (m.uart.uartInjectRx byte) m.interrupts
  | popTx : Effect m .popTx (.popped m.uart.uartPopTx.1) m.uart.uartPopTx.2 m.interrupts
  | poll (stdin : Option Byte) :
      Effect m (.poll stdin) (.polled (m.uart.latch stdin).1)
        (m.uart.uartPoll m.interrupts stdin).1 (m.uart.uartPoll m.interrupts stdin).2
  | readData {addr : Word} (data : DataRegister addr) :
      Effect m (.load addr) (.loaded m.uart.consumeByte.1 m.uart.rxReady)
        m.uart.consumeByte.2 m.interrupts
  | read {addr : Word} (value : Byte) (data : ¬ DataRegister addr) :
      Effect m (.load addr) (.loaded value m.uart.rxReady) m.uart m.interrupts
  | writeData {addr : Word} (value : Byte) (data : DataRegister addr) :
      Effect m (.store addr value) .nothing
        (m.uart.transmit m.interrupts value).1 (m.uart.transmit m.interrupts value).2
  | writeControl {addr : Word} (value : Byte) (control : ControlRegister addr) :
      Effect m (.store addr value) .nothing
        (m.uart.writeControl m.interrupts value).1 (m.uart.writeControl m.interrupts value).2
  | write {addr : Word} (value ubrrl ucsrc : Byte) (data : ¬ DataRegister addr)
      (control : ¬ ControlRegister addr) :
      Effect m (.store addr value) .nothing { m.uart with ubrrl := ubrrl, ucsrc := ucsrc }
        m.interrupts
  | other (m' : Machine) : Effect m (.other m') .nothing m.uart m.interrupts
  | raiseTimer0 : Effect m .raiseTimer0 .nothing m.uart (raiseTimer0 m).interrupts
  | service :
      Effect m .service ((m.candidate.map fun vec => .took vec m.dispatches.isSome).getD .nothing)
        m.uart m.settled.interrupts

theorem access_effect {m m' : Machine} {a : Access} {seen : Seen}
    (taken : m.access a = some (seen, m')) : Effect m a seen m'.uart m'.interrupts := by
  cases a with
  | injectRx byte =>
    cases taken
    exact .injectRx byte
  | popTx =>
    cases taken
    exact .popTx
  | poll stdin =>
    cases taken
    exact .poll stdin
  | load addr =>
    obtain ⟨⟨value, m₁⟩, run, result⟩ := Option.map_eq_some_iff.mp taken
    cases result
    rw [Uart.ucsra_rxc]
    by_cases data : DataRegister addr
    · rw [load_data m data] at run
      cases run
      exact .readData data
    · obtain ⟨uart, interrupts⟩ := load_elsewhere data run
      rw [uart, interrupts]
      exact .read value data
  | store addr value =>
    obtain ⟨⟨⟨⟩, m₁⟩, run, result⟩ := Option.map_eq_some_iff.mp taken
    cases result
    by_cases data : DataRegister addr
    · rw [store_data m value data] at run
      cases run
      exact .writeData value data
    by_cases control : ControlRegister addr
    · rw [store_control m value control] at run
      cases run
      exact .writeControl value control
    · obtain ⟨⟨ubrrl, ucsrc, uart⟩, interrupts⟩ := store_elsewhere data control run
      rw [uart, interrupts]
      exact .write value ubrrl ucsrc data control
  | other m₁ =>
    cases taken
    exact .other m₁
  | raiseTimer0 =>
    cases taken
    obtain ⟨i, raised⟩ := raiseTimer0_frame m
    have uart : (AvrEmulator.raiseTimer0 m).uart = m.uart := by rw [raised]
    rw [uart]
    exact .raiseTimer0
  | service =>
    obtain ⟨⟨result, m₁⟩, run, shown⟩ := Option.map_eq_some_iff.mp taken
    obtain ⟨rfl, uart, interrupts⟩ := service_effect run
    cases shown
    rw [uart, interrupts]
    exact .service

end AvrEmulator
