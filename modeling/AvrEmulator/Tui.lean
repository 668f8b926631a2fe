import AvrEmulator.Diagnosis
import AvrEmulator.Loader
import AvrEmulator.Snapshot

/-! The terminal interface (`main.cpp`). The emulator thread and the UI thread take their
steps in any order. They share the stop and pause flags, the two flags of the thread's
end, the UART's buffers and the published snapshot. Layout and colours are left out, and
the wall clock but for whether a view is due. -/

namespace AvrEmulator

/-- The events that the handler tells apart. A character comes as its bytes. -/
inductive UiEvent where
  | Escape
  | Character (text : List Byte)
  | Tab
  | TabReverse
  | Return
  | other
  deriving DecidableEq, Repr

/-- Where the emulator thread is: before `executeProgram`, in it, or after it. -/
inductive EmuThread where
  | starting
  | executing
  | returned (ok : Bool)
  | stored
  | ended
  deriving DecidableEq, Repr

/-- Where the UI thread is: in its loop, in the middle of sending a line, or past its
loop. -/
inductive UiStage where
  | looping
  | sending (rest : List Byte)
  | left
  | stopped
  | joining
  | exited (code : Nat)
  deriving DecidableEq, Repr

/-- The snapshot that the registers tab shows. -/
structure RegView where
  regSnapshot : Cells 32 Byte
  regChanged : Cells 32 Bool
  snapPc : Word
  snapSp : Word
  snapSreg : Byte
  snapCycles : BitVec 64
  snapEver : Bool

def RegView.initial : RegView := ⟨.fill _ 0, .fill _ false, 0, 0, 0, 0, false⟩

def RegView.take (v : RegView) (s : AvrState) : RegView where
  regSnapshot := s.r
  regChanged i := v.snapEver && decide (s.r i ≠ v.regSnapshot i)
  snapPc := s.pc
  snapSp := s.sp
  snapSreg := s.sreg
  snapCycles := s.cycleCount
  snapEver := true

structure DisasmLine where
  isCurrent : Bool
  scan : Word
  disasm : String
  deriving DecidableEq, Repr

/-- The address in front of a line, with the mark of the current one. -/
def DisasmLine.addr (l : DisasmLine) : String := (if l.isCurrent then ">" else " ") ++ hex16 l.scan

namespace AvrState

def lineWords (s : AvrState) (scan : Word) : Byte :=
  match decodeInstruction (s.flashWord scan.toNat) with
  | some op => op.words
  | none => 1

def lineText (s : AvrState) (scan : Word) : String :=
  let w := s.flashWord scan.toNat
  match decodeInstruction w with
  | some op =>
    let extra :=
      if op.words = 2 ∧ scan.toNat + 3 < avrFlashSize then s.flashWord (scan.toNat + 2) else 0
    disassemble w extra scan
  | none => "??? " ++ hex16 w

def line (s : AvrState) (scan : Word) : DisasmLine := ⟨scan = s.pc, scan, s.lineText scan⟩

/-- The scan's next address. -/
def nextLine (s : AvrState) (scan : Word) : Word := scan + (s.lineWords scan).setWidth 16 * 2

/-- Where the loop goes on. -/
def Scans (s : AvrState) (scan : Word) : Prop :=
  scan.toNat < s.pc.toNat + 30 ∧ scan.toNat + 1 < avrFlashSize

instance (s : AvrState) (scan : Word) : Decidable (s.Scans scan) := by
  unfold Scans
  infer_instance

theorem lineWords_cases (s : AvrState) (scan : Word) :
    s.lineWords scan = 1 ∨ s.lineWords scan = 2 := by
  have rows : ∀ row ∈ opcodeTable, row.words = 1 ∨ row.words = 2 := by decide +kernel
  unfold lineWords
  split
  next found => exact rows _ (MaskTable.lookup_match found).1
  next => exact .inl rfl

theorem nextLine_toNat {s : AvrState} {scan : Word} (scans : s.Scans scan) :
    (s.nextLine scan).toNat = scan.toNat + 2 * (s.lineWords scan).toNat := by
  have inside : scan.toNat + 1 < 32768 := scans.2
  unfold nextLine
  rcases s.lineWords_cases scan with one | two
  · rw [one, BitVec.toNat_add]
    change (_ + 2) % 65536 = _ + 2
    omega
  · rw [two, BitVec.toNat_add]
    change (_ + 4) % 65536 = _ + 4
    omega

def lines (s : AvrState) (scan : Word) : List DisasmLine :=
  if s.Scans scan then s.line scan :: s.lines (s.nextLine scan) else []
termination_by avrFlashSize - scan.toNat
decreasing_by
  next scans =>
    have next := nextLine_toNat scans
    have inside : scan.toNat + 1 < avrFlashSize := scans.2
    rcases s.lineWords_cases scan with words | words <;> rw [words] at next <;>
      simp at next <;> omega

/-- The lines around the program counter. -/
def disasmLines (s : AvrState) : List DisasmLine :=
  let start : Word := if 30 < s.pc then s.pc - 30 else 0
  s.lines (start &&& ~~~1)

end AvrState

/-! ## The shared state and the two threads -/

structure Tui where
  program : Program
  /-- `g_emu_stop` and `g_emu_pause` -/
  emuStop : Bool
  emuPause : Bool
  emuDone : Bool
  emuError : Bool
  thread : EmuThread
  stage : UiStage
  coutText : List Byte
  cinInput : List Byte
  tabIndex : Nat
  viewSlow : Bool
  displayState : AvrState
  regs : RegView
  cachedDisasmLines : List DisasmLine
  /-- `screen.Exit()` was called, and the UI loop is to end. -/
  exitRequested : Bool

/-- A step of the emulator thread, an event for the UI with the text that the input field
would make of it, a redraw with whether the 200 ms of its tab are over, an exit that the
interface library asks for by itself (on Ctrl-C), the end of the UI loop, or the next step
of the UI in its own code. -/
inductive TuiInput where
  | emulator
  | key (event : UiEvent) (edited : List Byte)
  | render (due : Bool)
  | interrupt
  | leave
  | proceed

inductive TuiEvent where
  | idle
  | ran (event : Event)
  | entered (line : List Byte)
  | injected (byte : Byte)
  | popped (bytes : List Byte)
  | exited (code : Nat)
  deriving DecidableEq, Repr

namespace Tui

/-- `runTui` once the firmware is loaded. -/
def start (state : AvrState) : Tui where
  program :=
    { machine := { Machine.initial state with uart := Uart.initial.uartSetTuiMode }
      control := .head
      nextSnapshotCycle := 0
      nextUartPollCycle := 0
      nextWallSyncCycle := 0
      snapshot := none
      wallTarget := 0 }
  emuStop := false
  emuPause := false
  emuDone := false
  emuError := false
  thread := .starting
  stage := .looping
  coutText := []
  cinInput := []
  tabIndex := 0
  viewSlow := true
  displayState := state
  regs := .initial
  cachedDisasmLines := []
  exitRequested := false

def threadAfter : Event → EmuThread
  | .returned ok => .returned ok
  | _ => .executing

/-- The emulator thread. -/
def emulator (t : Tui) : Option (TuiEvent × Tui) :=
  match t.thread with
  | .starting => some (.idle, { t with
      program := .start t.program.machine true t.program.snapshot
      thread := .executing })
  | .executing => (t.program.step (.loop t.emuStop t.emuPause none)).map fun (e, p) =>
      (.ran e, { t with
        program := p
        thread := threadAfter e })
  | .returned ok => some (.idle, { t with emuError := !ok, thread := .stored })
  | .stored => some (.idle, { t with emuDone := true, thread := .ended })
  | .ended => none

/-- Enter sends the line. -/
def sends (t : Tui) : Bool := !t.emuDone && t.tabIndex == 0

/-- The event handler. What it does not catch reaches the input field. -/
def handle (t : Tui) (event : UiEvent) (edited : List Byte) : Tui :=
  match event with
  | .Escape => if !t.emuDone then { t with emuStop := true } else { t with exitRequested := true }
  | .Character text =>
    if text = [0x20] then if !t.emuDone then { t with emuPause := !t.emuPause } else t
    else if text = [0x74] then { t with viewSlow := !t.viewSlow }
    else { t with cinInput := edited }
  | .Tab => { t with tabIndex := (t.tabIndex + 1) % 3 }
  | .TabReverse => { t with tabIndex := (t.tabIndex + 2) % 3 }
  | .Return => if t.sends then { t with stage := .sending t.cinInput } else t
  | .other => { t with cinInput := edited }

def uartInjectRx (t : Tui) (byte : Byte) : Tui :=
  { t with program := { t.program with
    machine := { t.program.machine with uart := t.program.machine.uart.uartInjectRx byte } } }

/-- The serial tab: the text is cut to its last 80000 bytes when it passes 100000. -/
def appendTx (coutText newTx : List Byte) : List Byte :=
  if newTx.isEmpty then coutText
  else
    let text := coutText ++ newTx
    if text.length > 100000 then text.drop (text.length - 80000) else text

def renderSerial (t : Tui) : TuiEvent × Tui :=
  let (newTx, uart) := t.program.machine.uart.uartPopTx
  (.popped newTx, { t with
    program := { t.program with machine := { t.program.machine with uart := uart } }
    coutText := appendTx t.coutText newTx })

/-- `getEmulatorSnapshot(displayState)` -/
def look (t : Tui) : Tui :=
  { t with displayState := t.program.getEmulatorSnapshot.getD t.displayState }

def renderRegs (t : Tui) (due : Bool) : Tui :=
  if !t.regs.snapEver || !t.viewSlow || due || t.emuPause then
    { t.look with regs := t.regs.take t.look.displayState }
  else t

def renderDisasm (t : Tui) (due : Bool) : Tui :=
  if !t.viewSlow || t.emuPause || due then
    { t.look with cachedDisasmLines := t.look.displayState.disasmLines }
  else t

/-- Only the active tab is drawn. -/
def render (t : Tui) (due : Bool) : TuiEvent × Tui :=
  match t.tabIndex with
  | 0 => t.renderSerial
  | 1 => (.idle, t.renderRegs due)
  | _ => (.idle, t.renderDisasm due)

/-- The UI thread in a line it sends, and past its loop. -/
def proceed (t : Tui) : Option (TuiEvent × Tui) :=
  match t.stage with
  | .looping => none
  | .sending (byte :: rest) =>
    some (.injected byte, { t.uartInjectRx byte with stage := .sending rest })
  | .sending [] =>
    some (.injected 0x0A, { t.uartInjectRx 0x0A with cinInput := [], stage := .looping })
  | .left => some (.idle, { t with emuStop := true, stage := .stopped })
  | .stopped => some (.idle, { t with emuPause := false, stage := .joining })
  | .joining =>
    if t.thread = .ended then
      let code := if t.emuError then 3 else 0
      some (.exited code, { t with stage := .exited code })
    else none
  | .exited _ => none

def step (t : Tui) : TuiInput → Option (TuiEvent × Tui)
  | .emulator => t.emulator
  | .key event edited =>
    if t.stage = .looping then
      let entered := event = .Return ∧ t.sends = true
      some (if entered then .entered t.cinInput else .idle, t.handle event edited)
    else none
  | .render due => if t.stage = .looping then some (t.render due) else none
  | .interrupt =>
    if t.stage = .looping then some (.idle, { t with exitRequested := true }) else none
  | .leave =>
    if t.stage = .looping ∧ t.exitRequested = true then some (.idle, { t with stage := .left })
    else none
  | .proceed => t.proceed

/-- What one step does. -/
inductive Moves (t : Tui) : TuiInput → TuiEvent → Tui → Prop
  | starts (thread : t.thread = .starting) : Moves t .emulator .idle { t with
      program := .start t.program.machine true t.program.snapshot
      thread := .executing }
  | runs {e : Event} {p : Program} (thread : t.thread = .executing)
      (taken : t.program.step (.loop t.emuStop t.emuPause none) = some (e, p)) :
      Moves t .emulator (.ran e) { t with program := p, thread := threadAfter e }
  | stores {ok : Bool} (thread : t.thread = .returned ok) :
      Moves t .emulator .idle { t with emuError := !ok, thread := .stored }
  | ends (thread : t.thread = .stored) :
      Moves t .emulator .idle { t with emuDone := true, thread := .ended }
  | enters (stage : t.stage = .looping) (sends : t.sends = true) (edited : List Byte) :
      Moves t (.key .Return edited) (.entered t.cinInput) { t with stage := .sending t.cinInput }
  | handles (stage : t.stage = .looping) {event : UiEvent} (edited : List Byte)
      (other : ¬ (event = .Return ∧ t.sends = true)) :
      Moves t (.key event edited) .idle (t.handle event edited)
  | serial (stage : t.stage = .looping) (due : Bool) (tab : t.tabIndex = 0) :
      Moves t (.render due) t.renderSerial.1 t.renderSerial.2
  | regs (stage : t.stage = .looping) (due : Bool) (tab : t.tabIndex = 1) :
      Moves t (.render due) .idle (t.renderRegs due)
  | disasm (stage : t.stage = .looping) (due : Bool) (tab : 1 < t.tabIndex) :
      Moves t (.render due) .idle (t.renderDisasm due)
  | interrupts (stage : t.stage = .looping) :
      Moves t .interrupt .idle { t with exitRequested := true }
  | leaves (stage : t.stage = .looping) (requested : t.exitRequested = true) :
      Moves t .leave .idle { t with stage := .left }
  | sendsByte {byte : Byte} {rest : List Byte} (stage : t.stage = .sending (byte :: rest)) :
      Moves t .proceed (.injected byte) { t.uartInjectRx byte with stage := .sending rest }
  | endsLine (stage : t.stage = .sending []) :
      Moves t .proceed (.injected 0x0A)
        { t.uartInjectRx 0x0A with cinInput := [], stage := .looping }
  | stops (stage : t.stage = .left) :
      Moves t .proceed .idle { t with emuStop := true, stage := .stopped }
  | unpauses (stage : t.stage = .stopped) :
      Moves t .proceed .idle { t with emuPause := false, stage := .joining }
  | exits (stage : t.stage = .joining) (thread : t.thread = .ended) :
      Moves t .proceed (.exited (if t.emuError then 3 else 0))
        { t with stage := .exited (if t.emuError then 3 else 0) }

theorem emulator_moves {t t' : Tui} {e : TuiEvent} (taken : t.emulator = some (e, t')) :
    Moves t .emulator e t' := by
  unfold emulator at taken
  split at taken
  next thread =>
    cases taken
    exact .starts thread
  next thread =>
    obtain ⟨⟨e', p⟩, step, result⟩ := Option.map_eq_some_iff.mp taken
    cases result
    exact .runs thread step
  next ok thread =>
    cases taken
    exact .stores thread
  next thread =>
    cases taken
    exact .ends thread
  next => cases taken

theorem render_moves {t : Tui} (stage : t.stage = .looping) (due : Bool) :
    Moves t (.render due) (t.render due).1 (t.render due).2 := by
  unfold render
  match tab : t.tabIndex with
  | 0 => exact .serial stage due tab
  | 1 => exact .regs stage due tab
  | n + 2 => exact .disasm stage due (by omega)

theorem proceed_moves {t t' : Tui} {e : TuiEvent} (taken : t.proceed = some (e, t')) :
    Moves t .proceed e t' := by
  unfold proceed at taken
  split at taken
  next => cases taken
  next byte rest stage =>
    cases taken
    exact .sendsByte stage
  next stage =>
    cases taken
    exact .endsLine stage
  next stage =>
    cases taken
    exact .stops stage
  next stage =>
    cases taken
    exact .unpauses stage
  next stage =>
    split at taken
    next thread =>
      cases taken
      exact .exits stage thread
    next => cases taken
  next => cases taken

theorem step_moves {t t' : Tui} {i : TuiInput} {e : TuiEvent} (taken : t.step i = some (e, t')) :
    Moves t i e t' := by
  cases i with
  | emulator => exact emulator_moves taken
  | proceed => exact proceed_moves taken
  | key event edited =>
    obtain ⟨stage, taken⟩ := Option.ite_none_right_eq_some.mp taken
    split at taken
    next entered =>
      obtain ⟨rfl, sends⟩ := entered
      have handled : t.handle .Return edited = { t with stage := .sending t.cinInput } := by
        rw [handle, if_pos sends]
      rw [handled] at taken
      cases taken
      exact .enters stage sends edited
    next other =>
      cases taken
      exact .handles stage edited other
  | render due =>
    obtain ⟨stage, taken⟩ := Option.ite_none_right_eq_some.mp taken
    have moves := render_moves stage due
    rw [Option.some.inj taken] at moves
    exact moves
  | interrupt =>
    obtain ⟨stage, taken⟩ := Option.ite_none_right_eq_some.mp taken
    cases taken
    exact .interrupts stage
  | leave =>
    obtain ⟨⟨stage, requested⟩, taken⟩ := Option.ite_none_right_eq_some.mp taken
    cases taken
    exact .leaves stage requested

/-- `emuGetLastError` into 256 bytes. -/
def emuGetLastError (t : Tui) : String :=
  .ofList (((t.program.machine.error.lastError.map ErrorReport.text).getD "").toList.take 255)

def statusDot (t : Tui) : String :=
  if t.emuDone then if t.emuError then " ERROR " else " STOPPED " else " RUNNING "

def status (t : Tui) : String :=
  if t.emuDone then
    if t.emuError then " " ++ t.emuGetLastError ++ " — Esc to exit "
    else " Emulator stopped — Esc to exit "
  else if t.emuPause then
    if t.viewSlow then " ⏸ Paused (slow)   Space resume | Esc stop | t speed | Tab switch "
    else " ⏸ Paused (fast)   Space resume | Esc stop | t speed | Tab switch "
  else if t.viewSlow then
    " ● Running (slow)   Space pause | Esc stop | t speed | Tab switch | Enter send "
  else " ● Running (fast)   Space pause | Esc stop | t speed | Tab switch | Enter send "

end Tui

/-! ## The entry point -/

/-- The first four bytes of a file that opens are the ELF magic. -/
def validateFile (file : Option ElfFile) : Bool :=
  match file with
  | none => false
  | some file => file.slice 0 4 = [0x7F, 0x45, 0x4C, 0x46]

/-- `runTui`: an exit code or the interface. -/
def runTui (file : ElfFile) : Option (Nat ⊕ Tui) := do
  let (loaded, state) ← (loadFirmware file).run (clearState .zero)
  return if loaded then .inr (.start state) else .inl 2

/-- `main`, with the path that was given or selected and the file there, if it opens. -/
def main (selected : Option (Option ElfFile)) : Option (Nat ⊕ Tui) :=
  match selected with
  | none => some (.inl 1)
  | some file =>
    if validateFile file then
      match file with
      | some file => runTui file
      | none => some (.inl 1)
    else some (.inl 1)

end AvrEmulator
