import AvrEmulator.TimerInterrupts
import AvrEmulator.UartFrame

/-! What the UART puts out: in either mode the bytes that are stored to UDR0, and they can be
read off the state before each turn. -/

namespace AvrEmulator

open Checked

/-- The bytes that stores put in UDR0. -/
def udrBytes (stores : List (Word × Byte)) : List Byte :=
  stores.flatMap fun store => if DataRegister store.1 then [store.2] else []

theorem udrBytes_append (first second : List (Word × Byte)) :
    udrBytes (first ++ second) = udrBytes first ++ udrBytes second := List.flatMap_append

/-- Where they go: to the interface, or to the terminal. -/
def Uart.output (u : Uart) : List Byte := if u.tuiMode then u.txBuffer else u.stdout

/-- The UART puts out what these stores put in UDR0. -/
structure Transmits (stores : List (Word × Byte)) (u u' : Uart) : Prop where
  tuiMode : u'.tuiMode = u.tuiMode
  output : u'.output = u.output ++ udrBytes stores

namespace Transmits

theorem still {u u' : Uart} (mode : u'.tuiMode = u.tuiMode) (tx : u'.txBuffer = u.txBuffer)
    (stdout : u'.stdout = u.stdout) : Transmits [] u u' where
  tuiMode := mode
  output := by rw [Uart.output, Uart.output, mode, tx, stdout, udrBytes, List.flatMap_nil,
    List.append_nil]

theorem refl (u : Uart) : Transmits [] u u := still rfl rfl rfl

theorem append {first second : List (Word × Byte)} {a b c : Uart} (h : Transmits first a b)
    (h' : Transmits second b c) : Transmits (first ++ second) a c where
  tuiMode := h'.tuiMode.trans h.tuiMode
  output := by rw [h'.output, h.output, udrBytes_append, List.append_assoc]

theorem consumeByte (u : Uart) : Transmits [] u u.consumeByte.2 := by
  unfold Uart.consumeByte
  split <;> split <;> exact still rfl rfl rfl

theorem latch (u : Uart) (stdin : Option Byte) : Transmits [] u (u.latch stdin).2 := by
  unfold Uart.latch
  split <;> split <;> exact still rfl rfl rfl

theorem reads : UartReads (Transmits []) where
  refl := refl
  trans _ _ _ := append
  read u io := by
    unfold Uart.uartRead
    split <;> first | exact refl u | exact consumeByte u

/-- In the mode it is in, the UART puts out the byte. -/
theorem transmit (u : Uart) (i : Interrupts) {addr : Word} (value : Byte)
    (data : DataRegister addr) : Transmits [(addr, value)] u (u.transmit i value).1 := by
  have kept : (u.transmit i value).1 =
      if u.tuiMode then { u with txBuffer := u.txBuffer ++ [value] }
      else { u with stdout := u.stdout ++ [value] } := rfl
  have one : udrBytes [(addr, value)] = [value] := by simp [udrBytes, data]
  rw [kept]
  split
  next tui => exact ⟨rfl, by simp [Uart.output, tui, one]⟩
  next tui => exact ⟨rfl, by simp [Uart.output, tui, one]⟩

theorem silent {addr : Word} (value : Byte) (data : ¬ DataRegister addr) {u u' : Uart}
    (same : Transmits [] u u') : Transmits [(addr, value)] u u' where
  tuiMode := same.tuiMode
  output := by
    have none : udrBytes [(addr, value)] = udrBytes [] := by simp [udrBytes, data]
    rw [none]
    exact same.output

/-- An instruction puts out what it stores to UDR0. -/
theorem walk : StoreWalk fun stores m m' => Transmits stores m.uart m'.uart where
  quiet := reads.walk
  skip := reads.skipNextInstruction
  write addr value := by
    intro m u m' run
    by_cases data : DataRegister addr
    · rw [store_data m value data] at run
      cases run
      exact transmit m.uart m.interrupts value data
    apply silent value data
    by_cases control : ControlRegister addr
    · rw [store_control m value control] at run
      cases run
      rw [Uart.writeControl_fst]
      exact still rfl rfl rfl
    · obtain ⟨⟨ubrrl, ucsrc, same⟩, -⟩ := store_elsewhere data control run
      rw [same]
      exact still rfl rfl rfl
  append := append

end Transmits

theorem execute_transmits {f : Fetched} {m m' : Machine} {outcome : Outcome}
    (run : (execute f).run m = some (outcome, m')) :
    Transmits (m.readied.stores f.op f.instruction f.extra) m.uart m'.uart := by
  obtain ⟨m₁, done, ended⟩ := execute_inv run
  have stores : Transmits (m.readied.stores f.op f.instruction f.extra) m.uart m₁.uart :=
    Transmits.walk.dispatch _ _ _ done
  rcases ended with ⟨-, -, rfl⟩ | ⟨-, advance⟩
  · exact stores
  · cases advance
    exact stores

namespace Program

theorem pollUart_transmits (p : Program) (stdin : Option Byte) :
    Transmits [] p.machine.uart (p.pollUart stdin).machine.uart := by
  unfold pollUart
  split
  · change Transmits [] p.machine.uart (p.machine.uart.uartPoll p.machine.interrupts stdin).1
    rw [Uart.uartPoll_fst]
    exact .latch _ _
  · exact .refl _

/-- What a step of the loop is about to store. -/
def loopStores (p : Program) (stdin : Option Byte) : List (Word × Byte) :=
  if p.control = .body then p.turnStores stdin else []

theorem turn_transmits {p q : Program} {stdin : Option Byte} {e : Event}
    (taken : p.turn stdin = some (e, q)) :
    Transmits (p.turnStores stdin) p.machine.uart q.machine.uart := by
  suffices past : Transmits (p.turnStores stdin) (p.servicePoint stdin).settled.uart
      q.machine.uart by
    rw [p.settled_servicePoint_uart] at past
    exact (p.pollUart_transmits stdin).append past
  have ran {outcome : Outcome} {m : Machine} (idle : (p.servicePoint stdin).dispatches = none)
      (run : fetchExecute.run (p.servicePoint stdin).settled = some (outcome, m)) :
      Transmits (p.turnStores stdin) (p.servicePoint stdin).settled.uart m.uart := by
    obtain ⟨found, m₀, fetched, run⟩ := bind_inv run
    have left : m₀.unfetched = (p.servicePoint stdin).settled.unfetched :=
      fetch_unfetched _ _ _ fetched
    have same := congrArg Machine.uart left
    change m₀.uart = (p.servicePoint stdin).settled.uart at same
    rw [← same]
    cases found with
    | none =>
      have none : p.turnStores stdin = [] := by simp only [turnStores, idle, fetched]
      rw [none]
      cases run
      exact .refl _
    | some f =>
      have stores : p.turnStores stdin = m₀.readied.stores f.op f.instruction f.extra := by
        simp only [turnStores, idle, fetched]
      rw [stores]
      exact execute_transmits run
  cases turn_cases taken with
  | @dispatched vec idle =>
    have stores : p.turnStores stdin = pushStores (p.servicePoint stdin).settled.state.sp
        (wordBytes (p.servicePoint stdin).settled.state.pc) := by
      rw [turnStores, idle, p.settled_servicePoint_state]
    rw [stores]
    change Transmits _ _ (acknowledge vec ((p.servicePoint stdin).settled.entered vec)).uart
    rw [acknowledge_uart]
    exact Transmits.walk.entered _ vec
  | executed idle run =>
    rw [advance_machine]
    exact ran idle run
  | failed idle run => exact ran idle run

theorem step_transmits {p q : Program} {stop pause : Bool} {stdin : Option Byte} {e : Event}
    (taken : p.step (.loop stop pause stdin) = some (e, q)) :
    Transmits (p.loopStores stdin) p.machine.uart q.machine.uart := by
  unfold loopStores
  rcases loop_cases taken with ⟨body, turn⟩ | ⟨elsewhere, moved⟩
  · rw [if_pos body]
    exact turn_transmits turn
  · rw [if_neg elsewhere, moved.machine]
    exact .refl _

end Program

end AvrEmulator
