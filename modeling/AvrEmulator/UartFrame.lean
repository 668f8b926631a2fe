import AvrEmulator.Fetch
import AvrEmulator.UartAccess

/-! What a turn can do to the UART. -/

namespace AvrEmulator

open Checked

theorem acknowledge_uart (vec : InterruptVector) (m : Machine) :
    (acknowledge vec m).uart = m.uart := by
  unfold acknowledge
  repeat' split
  all_goals rfl

/-- The receiver of a turn is the one that was polled. -/
theorem Program.settled_servicePoint_uart (p : Program) (stdin : Option Byte) :
    (p.servicePoint stdin).settled.uart = (p.pollUart stdin).machine.uart := by
  obtain ⟨i, raised⟩ := raiseTimer0_frame (p.pollUart stdin).machine
  rw [settled_uart, servicePoint, raised]

/-- A relation that every read at the UART respects. -/
structure UartReads (R : Uart → Uart → Prop) : Prop extends IsPreorder Uart R where
  read : ∀ u io, R u (u.uartRead io).2

/-- And every store. -/
structure UartFrame (R : Uart → Uart → Prop) : Prop extends UartReads R where
  write : ∀ u i io value, R u (u.uartWrite i io value).1

/-- The same of a machine. -/
def OnUart (R : Uart → Uart → Prop) (m m' : Machine) : Prop := R m.uart m'.uart

namespace UartReads

variable {R : Uart → Uart → Prop} (h : UartReads R)
include h

theorem preorder : IsPreorder Machine (OnUart R) where
  refl m := h.refl m.uart
  trans _ _ _ := h.trans _ _ _

theorem change {g : Machine → Machine} (same : ∀ m, (g m).uart = m.uart) :
    Respects (OnUart R) (modify g : Emu Unit) := by
  apply respects_modify
  intro m
  rw [OnUart, same]
  exact h.refl m.uart

theorem onCpu {α : Type} (x : Cpu α) : Respects (OnUart R) (AvrEmulator.onCpu x) := by
  intro m a m' run
  obtain ⟨s, -, rfl⟩ := onCpu_inv run
  exact h.refl m.uart

theorem walk : EmuWalk (fun _ _ => True) fun _ x => Respects (OnUart R) x where
  cpu := CpuRules.all.walk
  pure := respects_pure h.preorder
  bind := respects_bind h.preorder
  read _ rest := respects_get_bind fun m => rest m m
  onCpu _ := h.onCpu _
  callUartRead io := by
    intro m value m' run
    cases run
    exact h.read m.uart io
  faultDataAddr _ _ := h.change fun _ => rfl
  faultStack _ := h.change fun _ => rfl
  faultLpm _ := respects_bind h.preorder (h.change fun _ => rfl) fun _ => h.change fun _ => rfl

theorem skipNextInstruction (context : String) :
    Respects (OnUart R) (AvrEmulator.skipNextInstruction context) := by
  have walk := h.walk
  have reported (g : Machine → ErrorState) : Respects (OnUart R) (do
      modify fun m => { m with error := g m }
      memorySignalFault : Emu Unit) :=
    walk.bind (h.change fun _ => rfl) fun _ => h.change fun _ => rfl
  apply walk.read (fun m n same _ => by simp only [same])
  intro m
  dsimp only
  split
  · exact reported _
  · apply walk.bind (h.onCpu _)
    intro nextInstr
    split
    · exact reported _
    · exact h.onCpu _

end UartReads

namespace UartFrame

variable {R : Uart → Uart → Prop} (h : UartFrame R)
include h

theorem writeDataByte (addr : Word) (value : Byte) :
    Respects (OnUart R) (AvrEmulator.writeDataByte addr value) := by
  apply respects_get_bind
  intro m b m' run
  split at run
  · exact h.onCpu _ _ _ _ run
  split at run
  · exact h.walk.setSp _ _ _ _ run
  split at run
  · exact h.walk.setSp _ _ _ _ run
  split at run
  · cases run
    exact h.refl m.uart
  split at run
  · cases run
    exact h.refl m.uart
  split at run
  · cases run
    exact h.write m.uart _ _ _
  split at run
  · cases run
    exact h.write m.uart _ _ _
  split at run
  · exact h.walk.faultDataAddr _ _ _ _ _ run
  · exact h.onCpu _ _ _ _ run

theorem dispatch (row : Opcode) (instr secondWord : Word) :
    Respects (OnUart R) (AvrEmulator.dispatch row instr secondWord) := by
  apply dispatch_walk h.walk
  · exact fun _ => h.writeDataByte
  · exact fun _ => h.skipNextInstruction
  · exact fun _ => trivial
  · exact fun _ => trivial

theorem fetchExecute : Respects (OnUart R) AvrEmulator.fetchExecute := by
  intro m outcome m' run
  obtain ⟨found, m₀, fetched, run⟩ := bind_inv run
  have left : m₀.unfetched = m.unfetched := fetch_unfetched _ _ _ fetched
  have same := congrArg Machine.uart left
  change m₀.uart = m.uart at same
  cases found with
  | none =>
    cases run
    rw [OnUart, same]
    exact h.refl m.uart
  | some f =>
    obtain ⟨m₁, done, ended⟩ := execute_inv run
    have kept := h.dispatch _ _ _ _ _ _ done
    change R m₀.uart m₁.uart at kept
    rw [same] at kept
    rcases ended with ⟨-, -, rfl⟩ | ⟨-, advance⟩
    · exact kept
    · cases advance
      exact kept

/-- Past the poll. -/
theorem turn {p q : Program} {stdin : Option Byte} {e : Event}
    (taken : p.turn stdin = some (e, q)) : R (p.pollUart stdin).machine.uart q.machine.uart := by
  rw [← p.settled_servicePoint_uart stdin]
  cases Program.turn_cases taken with
  | @dispatched vec _ =>
    have same : (acknowledge vec ((p.servicePoint stdin).settled.entered vec)).uart =
        (p.servicePoint stdin).settled.uart := by
      rw [acknowledge_uart, (entered_uart _ vec).1]
    rw [same]
    exact h.refl _
  | executed _ run =>
    rw [Program.advance_machine]
    exact h.fetchExecute _ _ _ run
  | failed _ run => exact h.fetchExecute _ _ _ run

end UartFrame

end AvrEmulator
