import AvrEmulator.UartAccess

/-! In TUI mode the UART is a lossless FIFO in both directions. The histories of a
run are read off its trace and compared with the three containers. -/

namespace AvrEmulator

open Transition

/-- The byte the host injects in one step. -/
def injects : Access × Seen → List Byte
  | (.injectRx byte, _) => [byte]
  | _ => []

/-- The byte the program takes out of UDR0 while RXC0 reads 1. -/
def receives : Access × Seen → List Byte
  | (.load addr, .loaded value true) => if DataRegister addr then [value] else []
  | _ => []

/-- The byte the program writes to UDR0. -/
def sends : Access × Seen → List Byte
  | (.store addr value, _) => if DataRegister addr then [value] else []
  | _ => []

/-- The bytes the host pops. -/
def pops : Access × Seen → List Byte
  | (_, .popped bytes) => bytes
  | _ => []

/-- The byte in the hardware buffer, if any. -/
def Uart.held (u : Uart) : List Byte := if u.rxHwReady then [u.rxHwByte] else []

/-- What went in on each side, after one more step from the UART `u` to `u'`. -/
structure Conveys (u u' : Uart) (x : Access × Seen) : Prop where
  tuiMode : u'.tuiMode = true
  rx : receives x ++ u'.held ++ u'.rxQueue = u.held ++ u.rxQueue ++ injects x
  tx : pops x ++ u'.txBuffer = u.txBuffer ++ sends x

theorem Conveys.still {u u' : Uart} {x : Access × Seen} (tui : u.tuiMode = true)
    (receives : receives x = []) (injects : injects x = []) (pops : pops x = [])
    (sends : sends x = []) (mode : u'.tuiMode = u.tuiMode) (held : u'.held = u.held)
    (queue : u'.rxQueue = u.rxQueue) (tx : u'.txBuffer = u.txBuffer) : Conveys u u' x := by
  refine ⟨mode.trans tui, ?_, ?_⟩
  · rw [receives, injects, held, queue, List.nil_append, List.append_nil]
  · rw [pops, sends, tx, List.nil_append, List.append_nil]

/-- A poll moves the front of the queue into an empty hardware buffer. -/
theorem Uart.latch_conveys {u : Uart} (tui : u.tuiMode = true) (stdin : Option Byte) :
    Conveys u (u.latch stdin).2 (.poll stdin, .polled (u.latch stdin).1) := by
  unfold latch
  rw [if_pos tui]
  split
  next byte rest empty queue =>
    refine ⟨tui, ?_, ?_⟩
    · simp [receives, injects, held, empty, queue]
    · simp [pops, sends]
  next => exact .still tui rfl rfl rfl rfl rfl rfl rfl rfl

theorem Uart.consumeByte_conveys {u : Uart} {addr : Word} (tui : u.tuiMode = true)
    (data : DataRegister addr) :
    Conveys u u.consumeByte.2 (.load addr, .loaded u.consumeByte.1 u.rxReady) := by
  unfold consumeByte rxReady
  rw [if_pos tui, if_pos tui]
  cases full : u.rxHwReady with
  | true =>
    refine ⟨tui, ?_, ?_⟩
    · simp [receives, injects, held, full, data]
    · simp [pops, sends]
  | false => exact .still tui rfl rfl rfl rfl rfl rfl rfl rfl

theorem Uart.transmit_conveys {u : Uart} {addr : Word} (i : Interrupts) (value : Byte)
    (tui : u.tuiMode = true) (data : DataRegister addr) :
    Conveys u (u.transmit i value).1 (.store addr value, .nothing) := by
  unfold transmit
  rw [if_pos tui]
  refine ⟨tui, ?_, ?_⟩
  · show [] ++ u.held ++ u.rxQueue = u.held ++ u.rxQueue ++ []
    rw [List.nil_append, List.append_nil]
  · simp [pops, sends, data]

theorem Effect.conveys {m : Machine} {a : Access} {seen : Seen} {u : Uart} {i : Interrupts}
    (h : Effect m a seen u i) (tui : m.uart.tuiMode = true) : Conveys m.uart u (a, seen) := by
  cases h with
  | injectRx byte =>
    refine ⟨tui, ?_, ?_⟩
    · show [] ++ m.uart.held ++ (m.uart.rxQueue ++ [byte]) =
        m.uart.held ++ m.uart.rxQueue ++ [byte]
      rw [List.nil_append, List.append_assoc]
    · simp [pops, sends, Uart.uartInjectRx]
  | popTx =>
    refine ⟨tui, ?_, ?_⟩
    · show [] ++ m.uart.held ++ m.uart.rxQueue = m.uart.held ++ m.uart.rxQueue ++ []
      rw [List.nil_append, List.append_nil]
    · simp [pops, sends, Uart.uartPopTx]
  | poll stdin =>
    rw [Uart.uartPoll_fst]
    exact Uart.latch_conveys tui stdin
  | readData data => exact Uart.consumeByte_conveys tui data
  | @read addr value data =>
    have other : receives (.load addr, .loaded value m.uart.rxReady) = [] := by
      cases m.uart.rxReady
      · rfl
      · exact if_neg data
    exact .still tui other rfl rfl rfl rfl rfl rfl rfl
  | writeData value data => exact Uart.transmit_conveys _ value tui data
  | writeControl value control =>
    rw [Uart.writeControl_fst]
    exact .still tui rfl rfl rfl (if_neg (control_not_data control)) rfl rfl rfl rfl
  | write value ubrrl ucsrc data control =>
    exact .still tui rfl rfl rfl (if_neg data) rfl rfl rfl rfl
  | other => exact .still tui rfl rfl rfl rfl rfl rfl rfl rfl
  | raiseTimer0 => exact .still tui rfl rfl rfl rfl rfl rfl rfl rfl
  | service =>
    cases m.candidate <;> exact .still tui rfl rfl rfl rfl rfl rfl rfl rfl

/-- The bytes read so far, the held byte and the queue are the injected bytes; the
popped bytes and the transmit buffer are the bytes written. -/
structure Lossless (trace : List (Access × Seen)) (u : Uart) : Prop where
  tuiMode : u.tuiMode = true
  rx : trace.flatMap receives ++ u.held ++ u.rxQueue = trace.flatMap injects
  tx : trace.flatMap pops ++ u.txBuffer = trace.flatMap sends

theorem Lossless.snoc {trace : List (Access × Seen)} {u u' : Uart} {x : Access × Seen}
    (h : Lossless trace u) (step : Conveys u u' x) : Lossless (trace ++ [x]) u' := by
  have one (f : Access × Seen → List Byte) : (trace ++ [x]).flatMap f = trace.flatMap f ++ f x := by
    rw [List.flatMap_append, List.flatMap_singleton]
  refine ⟨step.tuiMode, ?_, ?_⟩
  · calc (trace ++ [x]).flatMap receives ++ u'.held ++ u'.rxQueue
        = trace.flatMap receives ++ (receives x ++ u'.held ++ u'.rxQueue) := by
          simp only [one, List.append_assoc]
      _ = trace.flatMap receives ++ u.held ++ u.rxQueue ++ injects x := by
          rw [step.rx]
          simp only [List.append_assoc]
      _ = (trace ++ [x]).flatMap injects := by rw [h.rx, one]
  · calc (trace ++ [x]).flatMap pops ++ u'.txBuffer
        = trace.flatMap pops ++ (pops x ++ u'.txBuffer) := by rw [one, List.append_assoc]
      _ = trace.flatMap pops ++ u.txBuffer ++ sends x := by rw [step.tx, List.append_assoc]
      _ = (trace ++ [x]).flatMap sends := by rw [h.tx, one]

/-- In TUI mode, from empty queues, no byte is lost, duplicated or reordered in
either direction. -/
theorem uart_is_lossless {m₀ m : Machine} {trace : List (Access × Seen)}
    (tui : m₀.uart.tuiMode = true) (queue : m₀.uart.rxQueue = [])
    (empty : m₀.uart.rxHwReady = false) (tx : m₀.uart.txBuffer = [])
    (run : Run Machine.access anything m₀ trace m) :
    trace.flatMap receives ++ m.uart.held ++ m.uart.rxQueue = trace.flatMap injects ∧
      trace.flatMap pops ++ m.uart.txBuffer = trace.flatMap sends := by
  have init : Lossless [] m₀.uart := by
    refine ⟨tui, ?_, ?_⟩
    · simp [Uart.held, empty, queue]
    · simp [tx]
  have all : Lossless trace m.uart :=
    run.traced (P := fun trace m => Lossless trace m.uart)
      (fun _ p a seen q _ old _ taken => old.snoc ((access_effect taken).conveys old.tuiMode)) init
  exact ⟨all.rx, all.tx⟩

/-- A reset machine in TUI mode. -/
def tuiStart : Machine :=
  { Machine.initial (clearState .zero) with uart := Uart.initial.uartSetTuiMode }

/-- Two bytes go in and one comes out through the first window, one goes out
through the second. -/
theorem bytes_pass_both_windows : ∃ m,
    Run Machine.access anything tuiStart
      [(.injectRx 0x41, .nothing), (.injectRx 0x42, .nothing), (.poll none, .polled true),
        (.load 0xC6, .loaded 0x41 true), (.store 0x2C 0x58, .nothing)] m ∧
    [0x41] ++ m.uart.held ++ m.uart.rxQueue = [0x41, 0x42] ∧ [] ++ m.uart.txBuffer = [0x58] := by
  have run : ∃ m, Run Machine.access anything tuiStart
      [(.injectRx 0x41, .nothing), (.injectRx 0x42, .nothing), (.poll none, .polled true),
        (.load 0xC6, .loaded 0x41 true), (.store 0x2C 0x58, .nothing)] m :=
    ⟨_, .cons trivial rfl <| .cons trivial rfl <| .cons trivial rfl <| .cons trivial rfl <|
      .cons trivial rfl <| .nil _⟩
  obtain ⟨m, run⟩ := run
  exact ⟨m, run, uart_is_lossless rfl rfl rfl rfl run⟩

end AvrEmulator
