import AvrEmulator.Interrupt

/-! The UART (`uart.cpp`) in both modes. In TUI mode bytes come from and go to
two buffers shared with the host, in headless mode from stdin and to stdout. -/

namespace AvrEmulator

structure Uart where
  initialized : Bool
  stdinReady : Bool
  rxBuffer : Byte
  tuiMode : Bool
  txBuffer : List Byte
  rxQueue : List Byte
  rxHwReady : Bool
  rxHwByte : Byte
  ubrrl : Byte
  ucsrb : Byte
  ucsrc : Byte
  /-- Bytes put on stdout in headless mode. -/
  stdout : List Byte
  deriving DecidableEq, Repr

/-- The statics before anything ran. -/
def Uart.initial : Uart := ⟨false, false, 0, false, [], [], false, 0, 0, 0, 0, []⟩

namespace Uart

def uartSetTuiMode (u : Uart) : Uart := { u with tuiMode := true }

def uartPopTx (u : Uart) : List Byte × Uart := (u.txBuffer, { u with txBuffer := [] })

def uartInjectRx (u : Uart) (byte : Byte) : Uart := { u with rxQueue := u.rxQueue ++ [byte] }

def uartHasRxPending (u : Uart) : Bool := u.rxHwReady || !u.rxQueue.isEmpty

/-- `uartInit`, where `fcntlOk` says whether both `fcntl` calls succeed. -/
def uartInit (u : Uart) (fcntlOk : Bool) : Bool × Uart :=
  if u.tuiMode then (true, u)
  else if u.initialized then (true, u)
  else if fcntlOk then (true, { u with initialized := true })
  else (false, u)

/-- The receive half of `uartPoll`: whether a byte was latched. `stdin` is what
the non-blocking read gives. -/
def latch (u : Uart) (stdin : Option Byte) : Bool × Uart :=
  if u.tuiMode then
    match u.rxHwReady, u.rxQueue with
    | false, byte :: rest => (true, { u with rxHwByte := byte, rxQueue := rest, rxHwReady := true })
    | _, _ => (false, u)
  else
    match u.stdinReady, stdin with
    | false, some byte => (true, { u with rxBuffer := byte, stdinReady := true })
    | _, _ => (false, u)

def uartPoll (u : Uart) (i : Interrupts) (stdin : Option Byte) : Uart × Interrupts :=
  let (byteReady, u) := u.latch stdin
  if byteReady && sregBit u.ucsrb 7 then (u, i.interruptRaise .USART_RX) else (u, i)

/-- TXC0 and UDRE0 always read 1. -/
def ucsra (u : Uart) : Byte :=
  let flags : Byte := ((1 : Byte) <<< 6) ||| ((1 : Byte) <<< 5)
  if (if u.tuiMode then u.rxHwReady else u.stdinReady) then flags ||| ((1 : Byte) <<< 7) else flags

def consumeByte (u : Uart) : Byte × Uart :=
  if u.tuiMode then
    if u.rxHwReady then (u.rxHwByte, { u with rxHwReady := false }) else (0x00, u)
  else
    if u.stdinReady then (u.rxBuffer, { u with stdinReady := false }) else (0x00, u)

def uartRead (u : Uart) (ioAddr : Byte) : Byte × Uart :=
  match ioAddr with
  | 0x00 => (u.ucsra, u)
  | 0x01 => (u.ucsrb, u)
  | 0x02 => (u.ucsrc, u)
  | 0x04 => (u.ubrrl, u)
  | 0x05 => (0x00, u)
  | 0x06 => u.consumeByte
  | 0x09 => (u.ubrrl, u)
  | 0x0A => (u.ucsrb, u)
  | 0x0B => (u.ucsra, u)
  | 0x0C => u.consumeByte
  | 0x0D => (u.ucsrc, u)
  | _ => (0x00, u)

/-- A store to UCSR0B: enabling UDRIE0 raises USART_UDRE at once. -/
def writeControl (u : Uart) (i : Interrupts) (value : Byte) : Uart × Interrupts :=
  let u := { u with ucsrb := value }
  if sregBit value 5 then (u, i.interruptRaise .USART_UDRE) else (u, i)

/-- A store to UDR0: the byte goes out and the enabled transmit events are raised. -/
def transmit (u : Uart) (i : Interrupts) (value : Byte) : Uart × Interrupts :=
  let u :=
    if u.tuiMode then { u with txBuffer := u.txBuffer ++ [value] }
    else { u with stdout := u.stdout ++ [value] }
  let i := if sregBit u.ucsrb 6 then i.interruptRaise .USART_TX else i
  let i := if sregBit u.ucsrb 5 then i.interruptRaise .USART_UDRE else i
  (u, i)

def uartWrite (u : Uart) (i : Interrupts) (ioAddr value : Byte) : Uart × Interrupts :=
  match ioAddr with
  | 0x00 => (u, i)
  | 0x01 => u.writeControl i value
  | 0x02 => ({ u with ucsrc := value }, i)
  | 0x03 => (u, i)
  | 0x04 => ({ u with ubrrl := value }, i)
  | 0x05 => (u, i)
  | 0x06 => u.transmit i value
  | 0x09 => ({ u with ubrrl := value }, i)
  | 0x0A => u.writeControl i value
  | 0x0B => (u, i)
  | 0x0C => u.transmit i value
  | 0x0D => ({ u with ucsrc := value }, i)
  | _ => (u, i)

/-- A store raises nothing but USART_TX and USART_UDRE. -/
theorem uartWrite_raises {P : Interrupts → Prop} (u : Uart) {i : Interrupts} (io value : Byte)
    (tx : ∀ i, P i → P (i.interruptRaise .USART_TX))
    (udre : ∀ i, P i → P (i.interruptRaise .USART_UDRE)) (h : P i) :
    P (u.uartWrite i io value).2 := by
  have control : P (u.writeControl i value).2 := by
    unfold writeControl
    dsimp only
    split
    · exact udre i h
    · exact h
  have transmit : P (u.transmit i value).2 := by
    have sent (enabled : Bool) : P (if enabled then i.interruptRaise .USART_TX else i) := by
      cases enabled
      · exact h
      · exact tx i h
    unfold Uart.transmit
    dsimp only
    generalize (if u.tuiMode then { u with txBuffer := u.txBuffer ++ [value] }
      else { u with stdout := u.stdout ++ [value] }) = v
    split
    · exact udre _ (sent _)
    · exact sent _
  unfold uartWrite
  split <;> first | exact h | exact control | exact transmit

end Uart

end AvrEmulator
