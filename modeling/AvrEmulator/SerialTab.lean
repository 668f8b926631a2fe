import AvrEmulator.Library.Recent
import AvrEmulator.Tui
import AvrEmulator.UartStores
import AvrEmulator.UartStream

/-! The serial tab. Its text is the end of what the firmware stored to UDR0, and what the
firmware has not read yet is the end of what was typed. -/

namespace AvrEmulator

open Transition

/-- In TUI mode bytes are only taken at the front of the receiver. -/
structure TakesFront (u u' : Uart) : Prop where
  tuiMode : u'.tuiMode = u.tuiMode
  rx : u.tuiMode = true → ∃ taken, u.held ++ u.rxQueue = taken ++ (u'.held ++ u'.rxQueue)

namespace TakesFront

theorem still {u u' : Uart} (mode : u'.tuiMode = u.tuiMode) (held : u'.held = u.held)
    (queue : u'.rxQueue = u.rxQueue) : TakesFront u u' where
  tuiMode := mode
  rx _ := ⟨[], by rw [held, queue, List.nil_append]⟩

theorem refl (u : Uart) : TakesFront u u := still rfl rfl rfl

theorem trans {a b c : Uart} (first : TakesFront a b) (second : TakesFront b c) :
    TakesFront a c where
  tuiMode := second.tuiMode.trans first.tuiMode
  rx tui := by
    obtain ⟨xs, taken⟩ := first.rx tui
    obtain ⟨ys, taken'⟩ := second.rx (first.tuiMode.trans tui)
    exact ⟨xs ++ ys, by rw [taken, taken', List.append_assoc]⟩

theorem consumeByte (u : Uart) : TakesFront u u.consumeByte.2 := by
  unfold Uart.consumeByte
  split
  next tui =>
    split
    next full =>
      refine ⟨rfl, fun _ => ⟨[u.rxHwByte], ?_⟩⟩
      simp [Uart.held, full]
    next => exact refl u
  next => split <;> exact still rfl rfl rfl

theorem read (u : Uart) (io : Byte) : TakesFront u (u.uartRead io).2 := by
  unfold Uart.uartRead
  split <;> first | exact refl u | exact consumeByte u

theorem write (u : Uart) (i : Interrupts) (io value : Byte) :
    TakesFront u (u.uartWrite i io value).1 := by
  have control : TakesFront u (u.writeControl i value).1 := by
    unfold Uart.writeControl
    dsimp only
    split <;> exact still rfl rfl rfl
  have transmit : TakesFront u (u.transmit i value).1 := by
    unfold Uart.transmit
    dsimp only
    split <;> exact still rfl rfl rfl
  unfold Uart.uartWrite
  split <;> first | exact refl u | exact control | exact transmit | exact still rfl rfl rfl

theorem latch (u : Uart) (stdin : Option Byte) : TakesFront u (u.latch stdin).2 := by
  unfold Uart.latch
  split
  next tui =>
    split
    next byte rest empty queue =>
      refine ⟨rfl, fun _ => ⟨[], ?_⟩⟩
      simp [Uart.held, empty, queue]
    next => exact refl u
  next => split <;> exact still rfl rfl rfl

theorem frame : UartFrame TakesFront where
  refl := refl
  trans _ _ _ := trans
  read := read
  write := write

end TakesFront

namespace Program

theorem pollUart_takes (p : Program) (stdin : Option Byte) :
    TakesFront p.machine.uart (p.pollUart stdin).machine.uart := by
  unfold pollUart
  split
  · change TakesFront p.machine.uart (p.machine.uart.uartPoll p.machine.interrupts stdin).1
    rw [Uart.uartPoll_fst]
    exact .latch _ _
  · exact .refl _

theorem step_takes {p q : Program} {stop pause : Bool} {stdin : Option Byte} {e : Event}
    (taken : p.step (.loop stop pause stdin) = some (e, q)) :
    TakesFront p.machine.uart q.machine.uart := by
  rcases loop_cases taken with ⟨-, turn⟩ | ⟨-, moved⟩
  · exact (p.pollUart_takes stdin).trans (TakesFront.frame.turn turn)
  · rw [moved.machine]
    exact .refl _

end Program

def poppedBytes : TuiInput × TuiEvent → List Byte
  | (_, .popped bytes) => bytes
  | _ => []

def injectedBytes : TuiInput × TuiEvent → List Byte
  | (_, .injected byte) => [byte]
  | _ => []

def enteredLines : TuiInput × TuiEvent → List (List Byte)
  | (_, .entered line) => [line]
  | _ => []

namespace Tui

def uart (t : Tui) : Uart := t.program.machine.uart

/-- The bytes that a step is about to store to UDR0. Only a turn of the CPU stores any. -/
def storing (t : Tui) : TuiInput → List Byte
  | .emulator => if t.thread = .executing then udrBytes (t.program.loopStores none) else []
  | _ => []

/-- The bytes stored to UDR0 in the steps on these inputs. -/
def storedOn (t : Tui) : List TuiInput → List Byte
  | [] => []
  | i :: later => t.storing i ++ match t.step i with
    | some (_, t') => t'.storedOn later
    | none => []

theorem storedOn_cons {t t' : Tui} {i : TuiInput} {e : TuiEvent}
    (taken : t.step i = some (e, t')) (later : List TuiInput) :
    t.storedOn (i :: later) = t.storing i ++ t'.storedOn later := by
  rw [storedOn, taken]

/-- One step at the UART. -/
structure Passes (t t' : Tui) (x : TuiInput × TuiEvent) : Prop where
  tuiMode : t'.uart.tuiMode = true
  rx : ∃ taken, t.uart.held ++ t.uart.rxQueue ++ injectedBytes x =
    taken ++ (t'.uart.held ++ t'.uart.rxQueue)
  tx : poppedBytes x ++ t'.uart.txBuffer = t.uart.txBuffer ++ t.storing x.1
  text : t'.coutText = Recent.extend 80000 100000 t.coutText (poppedBytes x)

theorem extend_nil {text : List Byte} (short : text.length ≤ 100000) :
    Recent.extend 80000 100000 text [] = text := by
  rw [Recent.extend, List.append_nil, if_neg (Nat.not_lt.mpr short)]

theorem appendTx_eq {text : List Byte} (new : List Byte) (short : text.length ≤ 100000) :
    appendTx text new = Recent.extend 80000 100000 text new := by
  unfold appendTx
  cases new with
  | nil => exact (extend_nil short).symm
  | cons => rfl

theorem uart_start {m : Machine} (tui : m.uart.tuiMode = true) (snapshot : Option AvrState) :
    (Program.start m true snapshot).machine.uart = m.uart := by
  change (m.uart.uartInit true).2 = m.uart
  rw [Uart.uartInit, if_pos tui]

theorem handle_frame (t : Tui) (event : UiEvent) (edited : List Byte) :
    (t.handle event edited).program = t.program ∧
      (t.handle event edited).coutText = t.coutText := by
  unfold handle
  repeat' split
  all_goals exact ⟨rfl, rfl⟩

theorem renderRegs_frame (t : Tui) (due : Bool) :
    (t.renderRegs due).program = t.program ∧ (t.renderRegs due).coutText = t.coutText := by
  unfold renderRegs
  split <;> exact ⟨rfl, rfl⟩

theorem renderDisasm_frame (t : Tui) (due : Bool) :
    (t.renderDisasm due).program = t.program ∧ (t.renderDisasm due).coutText = t.coutText := by
  unfold renderDisasm
  split <;> exact ⟨rfl, rfl⟩

theorem Passes.quiet {t t' : Tui} {x : TuiInput × TuiEvent} (tui : t.uart.tuiMode = true)
    (short : t.coutText.length ≤ 100000) (injected : injectedBytes x = [])
    (popped : poppedBytes x = []) (stored : t.storing x.1 = []) (uart : t'.uart = t.uart)
    (text : t'.coutText = t.coutText) : Passes t t' x where
  tuiMode := by rw [uart, tui]
  rx := ⟨[], by rw [injected, uart, List.append_nil, List.nil_append]⟩
  tx := by rw [popped, uart, stored, List.append_nil, List.nil_append]
  text := by rw [popped, extend_nil short, text]

theorem Passes.inject {t t' : Tui} {i : TuiInput} {byte : Byte} (tui : t.uart.tuiMode = true)
    (short : t.coutText.length ≤ 100000) (stored : t.storing i = [])
    (uart : t'.uart = t.uart.uartInjectRx byte) (text : t'.coutText = t.coutText) :
    Passes t t' (i, .injected byte) where
  tuiMode := by rw [uart]; exact tui
  rx := by
    refine ⟨[], ?_⟩
    rw [uart]
    exact List.append_assoc _ _ [byte]
  tx := by
    rw [uart]
    simp [poppedBytes, Uart.uartInjectRx, stored]
  text := (extend_nil short).symm ▸ text

theorem Moves.passes {t t' : Tui} {i : TuiInput} {e : TuiEvent} (moves : Moves t i e t')
    (tui : t.uart.tuiMode = true) (short : t.coutText.length ≤ 100000) :
    Passes t t' (i, e) := by
  cases moves with
  | starts thread =>
    have idle : t.storing .emulator = [] := by simp [storing, thread]
    exact .quiet tui short rfl rfl idle (uart_start tui _) rfl
  | stores thread | ends thread =>
    have idle : t.storing .emulator = [] := by simp [storing, thread]
    exact .quiet tui short rfl rfl idle rfl rfl
  | @runs e p thread taken =>
    have takes := Program.step_takes taken
    have transmits := Program.step_transmits taken
    obtain ⟨read, rx⟩ := takes.rx tui
    have mode : p.machine.uart.tuiMode = true := takes.tuiMode.trans tui
    refine ⟨mode, ⟨read, ?_⟩, ?_, ?_⟩
    · exact (List.append_nil _).trans rx
    · have output := transmits.output
      unfold Uart.output at output
      rw [if_pos mode, if_pos (show t.program.machine.uart.tuiMode = true from tui)] at output
      have storing : t.storing .emulator = udrBytes (t.program.loopStores none) := if_pos thread
      rw [storing]
      exact output
    · exact (extend_nil short).symm
  | enters | interrupts | leaves | stops | unpauses | exits =>
    exact .quiet tui short rfl rfl rfl rfl rfl
  | handles _ edited =>
    obtain ⟨program, text⟩ := t.handle_frame _ edited
    exact .quiet tui short rfl rfl rfl (by rw [uart, program, uart]) text
  | serial =>
    refine ⟨tui, ⟨[], List.append_nil _⟩, rfl, ?_⟩
    exact appendTx_eq _ short
  | regs _ due =>
    obtain ⟨program, text⟩ := t.renderRegs_frame due
    exact .quiet tui short rfl rfl rfl (by rw [uart, program, uart]) text
  | disasm _ due =>
    obtain ⟨program, text⟩ := t.renderDisasm_frame due
    exact .quiet tui short rfl rfl rfl (by rw [uart, program, uart]) text
  | sendsByte | endsLine => exact .inject tui short rfl rfl rfl

/-- What the trace so far says of the tab and of the receiver. -/
structure Serial (trace : List (TuiInput × TuiEvent)) (t : Tui) : Prop where
  tuiMode : t.uart.tuiMode = true
  text : Recent.Shows 80000 100000 (trace.flatMap poppedBytes) t.coutText
  rx : ∃ taken, trace.flatMap injectedBytes = taken ++ (t.uart.held ++ t.uart.rxQueue)

theorem start_serial (state : AvrState) : Serial [] (start state) where
  tuiMode := rfl
  text := Recent.shows_nil _ _
  rx := ⟨[], rfl⟩

theorem Serial.snoc {trace : List (TuiInput × TuiEvent)} {t t' : Tui}
    {x : TuiInput × TuiEvent} (h : Serial trace t) (passes : Passes t t' x) :
    Serial (trace ++ [x]) t' where
  tuiMode := passes.tuiMode
  text := by
    rw [List.flatMap_append, List.flatMap_singleton, passes.text]
    exact h.text.extend (by decide) _
  rx := by
    obtain ⟨taken, sofar⟩ := h.rx
    obtain ⟨more, rx⟩ := passes.rx
    refine ⟨taken ++ more, ?_⟩
    rw [List.flatMap_append, List.flatMap_singleton, sofar, List.append_assoc, rx,
      List.append_assoc]

theorem run_serial {ok : Tui → TuiInput → Prop} {state : AvrState} {t : Tui}
    {trace : List (TuiInput × TuiEvent)} (run : Run step ok (start state) trace t) :
    Serial trace t := by
  apply run.traced (P := Serial) ?_ (start_serial state)
  intro before p i e q _ serial _ taken
  exact serial.snoc ((step_moves taken).passes serial.tuiMode serial.text.bounded)

/-- What was stored is popped or waits. -/
theorem run_sends {ok : Tui → TuiInput → Prop} {t t' : Tui}
    {trace before : List (TuiInput × TuiEvent)} (serial : Serial before t)
    (run : Run step ok t trace t') :
    trace.flatMap poppedBytes ++ t'.uart.txBuffer =
      t.uart.txBuffer ++ t.storedOn (trace.map Prod.fst) := by
  induction run generalizing before with
  | nil t => exact (List.append_nil _).symm
  | @cons t u v i e trace _ taken _ ih =>
    have passes := (step_moves taken).passes serial.tuiMode serial.text.bounded
    have rest := ih (serial.snoc passes)
    rw [List.flatMap_cons, List.append_assoc, rest, ← List.append_assoc, passes.tx,
      List.map_cons, storedOn_cons taken, List.append_assoc]

end Tui

/-- The serial tab, in every run: all that was popped is shown up to 100000 bytes, and
beyond that at least the last 80000 and no more than 100000; and from any point on what is
popped and what waits is what waited there and what the instructions since stored to UDR0,
in order. -/
theorem serial_tab_shows_what_was_sent {state : AvrState} {t t' : Tui}
    {before later : List (TuiInput × TuiEvent)}
    (run : Run Tui.step anything (Tui.start state) before t)
    (rest : Run Tui.step anything t later t') :
    Recent.Shows 80000 100000 (before.flatMap poppedBytes) t.coutText ∧
    later.flatMap poppedBytes ++ t'.uart.txBuffer =
      t.uart.txBuffer ++ t.storedOn (later.map Prod.fst) := by
  have serial := Tui.run_serial run
  exact ⟨serial.text, Tui.run_sends serial rest⟩

/-- LDI R16 and STS UDR0, R16 for each of two letters. -/
def greeter : AvrState := Program.firmware [0xE408, 0x9300, 0x00C6, 0xE609, 0x9300, 0x00C6]

def greeting : Tui := .start greeter

/-- The thread starts and sends the first letter, and the tab is drawn. -/
def greets : List TuiInput := List.replicate 7 .emulator ++ [.render true]

/-- Once both are sent, the first letter is shown and the second waits. -/
theorem greeting_is_shown : ∃ trace t, Run Tui.step anything greeting trace t ∧
    greeting.storedOn (trace.map Prod.fst) = [0x48, 0x69] ∧
    trace.flatMap poppedBytes = [0x48] ∧ t.uart.txBuffer = [0x69] ∧ t.coutText = [0x48] := by
  let inputs := greets ++ List.replicate 6 .emulator
  have h : (feed Tui.step anything greeting inputs).map (fun (es, _) =>
      ((inputs.zip es).flatMap poppedBytes, greeting.storedOn ((inputs.zip es).map Prod.fst))) =
        some ([0x48], [0x48, 0x69]) := by
    decide +kernel
  obtain ⟨⟨es, t⟩, fed, seen⟩ := Option.map_eq_some_iff.mp h
  obtain ⟨popped, stored⟩ := Prod.mk.inj seen
  have run := run_of_feed fed
  obtain ⟨shows, -⟩ := serial_tab_shows_what_was_sent run (.nil t)
  obtain ⟨-, sent⟩ := serial_tab_shows_what_was_sent (.nil greeting) run
  rw [popped, stored] at sent
  refine ⟨_, t, run, stored, popped, (List.cons.inj sent).2, ?_⟩
  rw [shows.whole (by rw [popped]; decide), popped]

/-! ## Typed lines -/

/-- The bytes of a character. -/
def UiEvent.bytes : UiEvent → List Byte
  | .Character text => text
  | _ => []

/-- A character event is one printable character: a byte from the space on, or the bytes of
one beyond ASCII. -/
def UiEvent.Printable : UiEvent → Prop
  | .Character [byte] => 0x20 ≤ byte
  | .Character text => ∀ byte ∈ text, 0x80 ≤ byte
  | _ => True

/-- What the terminal and the input field do: characters are printable, and the field puts
nothing in its text but what was there and the character. -/
def Tui.Typed (t : Tui) : TuiInput → Prop
  | .key event edited =>
    event.Printable ∧ ∀ byte ∈ edited, byte ∈ t.cinInput ∨ byte ∈ event.bytes
  | _ => True

/-- No space, no letter t and no newline. -/
def Sendable (line : List Byte) : Prop := ∀ byte ∈ line, byte ≠ 0x20 ∧ byte ≠ 0x74 ∧ byte ≠ 0x0A

theorem UiEvent.Printable.sendable {text : List Byte} (printable : (Character text).Printable)
    (space : text ≠ [0x20]) (speed : text ≠ [0x74]) : Sendable text := by
  match text, printable with
  | [], _ => simp [Sendable]
  | [byte], printable =>
    have printable : 0x20 ≤ byte := printable
    intro b member
    rw [List.mem_singleton.mp member]
    refine ⟨?_, ?_, ?_⟩
    · rintro rfl
      exact space rfl
    · rintro rfl
      exact speed rfl
    · rintro rfl
      exact absurd printable (by decide)
  | a :: b :: rest, printable =>
    intro byte member
    have high : 0x80 ≤ byte := printable byte member
    refine ⟨?_, ?_, ?_⟩ <;> rintro rfl <;> exact absurd high (by decide)

namespace Tui

/-- What is still to be injected of a line. -/
def pending (t : Tui) : List Byte :=
  match t.stage with
  | .sending rest => rest ++ [0x0A]
  | _ => []

/-- A line as it goes to the receiver. -/
def ended (line : List Byte) : List Byte := line ++ [0x0A]

/-- One step at the input field. -/
structure Types (t t' : Tui) (x : TuiInput × TuiEvent) : Prop where
  field : Sendable t.cinInput → Sendable t'.cinInput
  line : enteredLines x = [] ∨ enteredLines x = [t.cinInput]
  sent : injectedBytes x ++ t'.pending = t.pending ++ (enteredLines x).flatMap ended

theorem Types.quiet {t t' : Tui} {x : TuiInput × TuiEvent} (field : t'.cinInput = t.cinInput)
    (entered : enteredLines x = []) (injected : injectedBytes x = [])
    (pending : t'.pending = t.pending) : Types t t' x where
  field := by
    rw [field]
    exact id
  line := .inl entered
  sent := by rw [injected, entered, pending, List.nil_append, List.flatMap_nil, List.append_nil]

theorem handle_types {t : Tui} {event : UiEvent} {edited : List Byte}
    (typed : t.Typed (.key event edited)) (other : ¬ (event = .Return ∧ t.sends = true)) :
    Types t (t.handle event edited) (.key event edited, .idle) := by
  obtain ⟨printable, only⟩ := typed
  have edit (bytes : Sendable event.bytes) :
      Types t { t with cinInput := edited } (.key event edited, .idle) := by
    refine ⟨?_, .inl rfl, (List.append_nil _).symm⟩
    intro clean byte member
    rcases only byte member with old | new
    · exact clean byte old
    · exact bytes byte new
  cases event with
  | Tab | TabReverse => exact .quiet rfl rfl rfl rfl
  | other => exact edit (by simp [Sendable, UiEvent.bytes])
  | Return =>
    have idle : ¬ t.sends = true := fun sends => other ⟨rfl, sends⟩
    rw [handle, if_neg idle]
    exact .quiet rfl rfl rfl rfl
  | Escape =>
    unfold handle
    dsimp only
    split <;> exact .quiet rfl rfl rfl rfl
  | Character text =>
    unfold handle
    dsimp only
    split
    · split <;> exact .quiet rfl rfl rfl rfl
    next space =>
      split
      · exact .quiet rfl rfl rfl rfl
      next speed => exact edit (printable.sendable space speed)

theorem Moves.types {t t' : Tui} {i : TuiInput} {e : TuiEvent} (moves : Moves t i e t')
    (typed : t.Typed i) : Types t t' (i, e) := by
  cases moves with
  | starts | stores | ends | runs | serial | interrupts => exact .quiet rfl rfl rfl rfl
  | handles _ edited other => exact handle_types typed other
  | enters stage sends edited =>
    refine ⟨id, .inr rfl, ?_⟩
    have idle : t.pending = [] := by rw [pending, stage]
    rw [idle, enteredLines, List.flatMap_singleton]
    rfl
  | regs _ due =>
    unfold renderRegs
    split <;> exact .quiet rfl rfl rfl rfl
  | disasm _ due =>
    unfold renderDisasm
    split <;> exact .quiet rfl rfl rfl rfl
  | leaves stage _ | stops stage | unpauses stage | exits stage _ =>
    refine .quiet rfl rfl rfl ?_
    rw [pending, pending, stage]
  | @sendsByte byte rest stage =>
    refine ⟨id, .inl rfl, ?_⟩
    have sending : t.pending = byte :: (rest ++ [0x0A]) := by
      rw [pending, stage]
      rfl
    rw [sending]
    exact (List.append_nil _).symm
  | endsLine stage =>
    refine ⟨fun _ => by simp [Sendable], .inl rfl, ?_⟩
    have sending : t.pending = [0x0A] := by
      rw [pending, stage]
      rfl
    rw [sending]
    rfl

/-- What the trace so far says of the lines. -/
structure Sent (trace : List (TuiInput × TuiEvent)) (t : Tui) : Prop where
  field : Sendable t.cinInput
  lines : ∀ line ∈ trace.flatMap enteredLines, Sendable line
  sent : trace.flatMap injectedBytes ++ t.pending = (trace.flatMap enteredLines).flatMap ended

theorem Sent.snoc {trace : List (TuiInput × TuiEvent)} {t t' : Tui} {x : TuiInput × TuiEvent}
    (h : Sent trace t) (types : Types t t' x) : Sent (trace ++ [x]) t' where
  field := types.field h.field
  lines := by
    intro line member
    rw [List.flatMap_append, List.flatMap_singleton, List.mem_append] at member
    rcases member with old | new
    · exact h.lines line old
    · rcases types.line with none | one
      · rw [none] at new
        cases new
      · rw [one, List.mem_singleton] at new
        rw [new]
        exact h.field
  sent := by
    rw [List.flatMap_append, List.flatMap_singleton, List.flatMap_append, List.flatMap_singleton,
      List.flatMap_append, List.append_assoc, types.sent, ← List.append_assoc, h.sent]

end Tui

/-- In every run, whatever the firmware does: the injected bytes and those still to come are
the entered lines with a newline each, in order. The handler keeps the space and the letter
t for itself, so that no line has one. What the firmware has not read yet is the end of the
injected bytes. -/
theorem typed_lines_reach_the_receiver {state : AvrState} {t : Tui}
    {trace : List (TuiInput × TuiEvent)} (run : Run Tui.step Tui.Typed (Tui.start state) trace t) :
    trace.flatMap injectedBytes ++ t.pending = (trace.flatMap enteredLines).flatMap Tui.ended ∧
    (∀ line ∈ trace.flatMap enteredLines, Sendable line) ∧
    ∃ taken, trace.flatMap injectedBytes = taken ++ (t.uart.held ++ t.uart.rxQueue) := by
  have sent : Tui.Sent trace t := by
    refine run.traced (P := Tui.Sent) ?_ ⟨?_, ?_, rfl⟩
    · intro before p i e q _ sent typed taken
      exact sent.snoc ((Tui.step_moves taken).types typed)
    · intro byte member
      cases member
    · intro line member
      cases member
  exact ⟨sent.sent, sent.lines, (Tui.run_serial run).rx⟩

/-- The keys o and k and Enter, before the emulator thread has started. -/
theorem ok_is_sent : ∃ trace t,
    Run Tui.step Tui.Typed (Tui.start (Program.firmware [])) trace t ∧
    trace.flatMap injectedBytes ++ t.pending = [0x6F, 0x6B, 0x0A] ∧
    ∃ taken, [0x6F, 0x6B, 0x0A] = taken ++ (t.uart.held ++ t.uart.rxQueue) := by
  have typed : ∃ t, Run Tui.step Tui.Typed (Tui.start (Program.firmware []))
      [(.key (.Character [0x6F]) [0x6F], .idle), (.key (.Character [0x6B]) [0x6F, 0x6B], .idle),
        (.key .Return [], .entered [0x6F, 0x6B]), (.proceed, .injected 0x6F),
        (.proceed, .injected 0x6B), (.proceed, .injected 0x0A)] t := by
    have field (old bytes : List Byte) : ∀ byte ∈ old ++ bytes, byte ∈ old ∨ byte ∈ bytes :=
      fun _ member => List.mem_append.mp member
    have o : UiEvent.Printable (.Character [0x6F]) := by
      change (0x20 : Byte) ≤ 0x6F
      decide
    have k : UiEvent.Printable (.Character [0x6B]) := by
      change (0x20 : Byte) ≤ 0x6B
      decide
    exact ⟨_, .cons ⟨o, field [] [0x6F]⟩ rfl <| .cons ⟨k, field [0x6F] [0x6B]⟩ rfl <|
      .cons ⟨trivial, by simp⟩ rfl <| .cons trivial rfl <| .cons trivial rfl <|
      .cons trivial rfl <| .nil _⟩
  obtain ⟨t, run⟩ := typed
  obtain ⟨sent, -, rx⟩ := typed_lines_reach_the_receiver run
  exact ⟨_, t, run, sent, rx⟩

end AvrEmulator
