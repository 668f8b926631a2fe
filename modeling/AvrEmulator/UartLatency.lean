import AvrEmulator.Cadence
import AvrEmulator.UartFrame

/-! How long a byte from the host waits for an idle receiver in TUI mode. Only a poll takes
it out of the queue, and the loop polls by the cycle count. -/

namespace AvrEmulator

open Checked Transition

/-- The mode and the queue stand, and an empty hardware buffer stays empty. -/
structure ReceiverKept (u u' : Uart) : Prop where
  tuiMode : u'.tuiMode = u.tuiMode
  rxQueue : u'.rxQueue = u.rxQueue
  empty : u.rxHwReady = false → u'.rxHwReady = false

namespace ReceiverKept

theorem refl (u : Uart) : ReceiverKept u u := ⟨rfl, rfl, id⟩

theorem trans {a b c : Uart} (first : ReceiverKept a b) (second : ReceiverKept b c) :
    ReceiverKept a c :=
  ⟨second.tuiMode.trans first.tuiMode, second.rxQueue.trans first.rxQueue,
    second.empty ∘ first.empty⟩

theorem consumeByte (u : Uart) : ReceiverKept u u.consumeByte.2 := by
  unfold Uart.consumeByte
  split
  · split
    · exact ⟨rfl, rfl, fun _ => rfl⟩
    · exact refl u
  · split
    · exact ⟨rfl, rfl, id⟩
    · exact refl u

theorem uartRead (u : Uart) (io : Byte) : ReceiverKept u (u.uartRead io).2 := by
  unfold Uart.uartRead
  split <;> first | exact refl u | exact consumeByte u

theorem uartWrite (u : Uart) (i : Interrupts) (io value : Byte) :
    ReceiverKept u (u.uartWrite i io value).1 := by
  have control : ReceiverKept u (u.writeControl i value).1 := by
    unfold Uart.writeControl
    dsimp only
    split <;> exact ⟨rfl, rfl, id⟩
  have transmit : ReceiverKept u (u.transmit i value).1 := by
    unfold Uart.transmit
    dsimp only
    split <;> exact ⟨rfl, rfl, id⟩
  unfold Uart.uartWrite
  split <;> first | exact refl u | exact control | exact transmit | exact ⟨rfl, rfl, id⟩

theorem frame : UartFrame ReceiverKept where
  refl := refl
  trans _ _ _ := trans
  read := uartRead
  write := uartWrite

end ReceiverKept

namespace Program

end Program

namespace Serviced

end Serviced

/-- A reset machine in TUI mode, in a loop that never reads. -/
def deaf : Machine := { Machine.initial (spinning 0) with uart := Uart.initial.uartSetTuiMode }

end AvrEmulator
