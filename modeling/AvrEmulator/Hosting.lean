import AvrEmulator.Controls
import AvrEmulator.SerialTab
import AvrEmulator.Transparency

/-! The UI as the host of `executeProgram`. A session is a run of it, and of what the UI does
the program feels the typed bytes alone. -/

namespace AvrEmulator

open Transition

/-- What a step does to the program. -/
inductive Act where
  | ran (event : Event)
  | injected (byte : Byte)
  | popped
  deriving DecidableEq, Repr

def Program.act : Input × Event → Act
  | (.loop _ _ _, e) => .ran e
  | (.injectRx byte, _) => .injected byte
  | (.popTx, _) => .popped

def TuiEvent.act : TuiEvent → Option Act
  | .ran e => some (.ran e)
  | .injected byte => some (.injected byte)
  | .popped _ => some .popped
  | .idle | .entered _ | .exited _ => none

def acts (trace : List (TuiInput × TuiEvent)) : List Act := trace.filterMap fun x => x.2.act

theorem acts_snoc (trace : List (TuiInput × TuiEvent)) (x : TuiInput × TuiEvent) :
    acts (trace ++ [x]) = acts trace ++ x.2.act.toList := by
  simp only [acts, List.filterMap_append, List.filterMap_cons, List.filterMap_nil]
  cases x.2.act <;> rfl

/-- Acts of the host, before the program is started. -/
def Program.Hosts (_ : Program) : Input → Prop
  | .loop _ _ _ => False
  | .injectRx _ | .popTx => True

namespace Tui

/-- The program was reached by these acts, and `P` holds wherever its thread took a step. -/
inductive Hosted (P : Program → Prop) (state : AvrState) (t : Tui) : List Act → Prop
  | starting {before : List (Input × Event)} (thread : t.thread = .starting)
      (host : Run Program.step Program.Hosts (start state).program before t.program) :
      Hosted P state t (before.map Program.act)
  | started {p : Program} {before after : List (Input × Event)} (thread : t.thread ≠ .starting)
      (host : Run Program.step Program.Hosts (start state).program before p)
      (run : Run Program.step (fun p _ => P p) (.start p.machine true p.snapshot) after t.program) :
      Hosted P state t ((before ++ after).map Program.act)

namespace Hosted

variable {P : Program → Prop} {state : AvrState} {t t' : Tui} {acts : List Act}

theorem same (h : t.Hosted P state acts) (thread : t'.thread = .starting ↔ t.thread = .starting)
    (program : t'.program = t.program) : t'.Hosted P state (acts ++ []) := by
  rw [List.append_nil]
  cases h with
  | starting starting host => exact .starting (thread.mpr starting) (program ▸ host)
  | started started host run =>
    exact .started (fun starting => started (thread.mp starting)) host (program ▸ run)

theorem hosts (h : t.Hosted P state acts) (holds : P t.program) {x : Input × Event}
    (hosts : t.program.Hosts x.1) (taken : t.program.step x.1 = some (x.2, t'.program))
    (thread : t'.thread = t.thread) : t'.Hosted P state (acts ++ [Program.act x]) := by
  have last (trace : List (Input × Event)) : trace.map Program.act ++ [Program.act x] =
      (trace ++ [x]).map Program.act := by
    rw [List.map_append]
    rfl
  cases h with
  | starting starting host =>
    rw [last]
    exact .starting (thread.trans starting) (host.snoc hosts taken)
  | started started host run =>
    rw [last, List.append_assoc]
    exact .started (thread ▸ started) host (run.snoc holds taken)

theorem step (h : t.Hosted P state acts) (holds : P t.program) {i : TuiInput} {e : TuiEvent}
    (moves : Moves t i e t') : t'.Hosted P state (acts ++ e.act.toList) := by
  cases moves with
  | starts thread =>
    cases h with
    | @starting starting _ host =>
      have begun : starting.map Program.act ++ [] = (starting ++ []).map Program.act := by simp
      change Hosted P state _ (starting.map Program.act ++ [])
      rw [begun]
      exact .started nofun host (.nil _)
    | started started => exact absurd thread started
  | @runs e p thread taken =>
    have executing : threadAfter e ≠ .starting := by cases e <;> nofun
    cases h with
    | starting starting =>
      rw [thread] at starting
      cases starting
    | @started _ before after _ host run =>
      have last : (before ++ after).map Program.act ++ [.ran e] =
          (before ++ (after ++ [(Input.loop t.emuStop t.emuPause none, e)])).map Program.act := by
        simp [Program.act]
      change Hosted P state _ ((before ++ after).map Program.act ++ [.ran e])
      rw [last]
      exact .started executing host (run.snoc holds taken)
  | stores thread | ends thread => exact h.same (by simp [thread]) rfl
  | handles _ edited =>
    obtain ⟨thread, -, -, program⟩ := t.handle_thread _ edited
    exact h.same (by rw [thread]) program
  | regs _ due =>
    unfold renderRegs
    split <;> exact h.same Iff.rfl rfl
  | disasm _ due =>
    unfold renderDisasm
    split <;> exact h.same Iff.rfl rfl
  | enters | interrupts | leaves | stops | unpauses | exits => exact h.same Iff.rfl rfl
  | serial => exact h.hosts holds (x := (.popTx, .idle)) trivial rfl rfl
  | sendsByte | endsLine => exact h.hosts holds (x := (.injectRx _, .idle)) trivial rfl rfl

end Hosted

theorem run_hosted {P : Program → Prop} {state : AvrState} {t : Tui}
    {trace : List (TuiInput × TuiEvent)}
    (run : Run step (fun t _ => P t.program) (start state) trace t) :
    t.Hosted P state (acts trace) := by
  have waiting : (start state).Hosted P state (([] : List (Input × Event)).map Program.act) :=
    .starting rfl (.nil _)
  apply run.traced (P := fun trace t => t.Hosted P state (acts trace)) ?_ waiting
  intro before p i e q _ hosted holds taken
  rw [acts_snoc]
  exact hosted.step holds (step_moves taken)

end Tui

/-- A session is a run of `executeProgram`: what its steps do to the program, in their order,
is what a run from its start does, after the acts of the host before it was started. What
holds of the program in every state of the session holds along that run. -/
theorem session_is_a_run {P : Program → Prop} {state : AvrState} {t : Tui}
    {trace : List (TuiInput × TuiEvent)}
    (run : Run Tui.step (fun t _ => P t.program) (Tui.start state) trace t) :
    t.Hosted P state (acts trace) := Tui.run_hosted run

theorem greeting_is_a_run : ∃ trace, ∃ t : Tui,
    t.Hosted (fun _ => True) greeter (acts trace) ∧
    acts trace = [.ran .idle, .ran .idle, .ran .executed, .ran .idle, .ran .idle, .ran .executed,
      .popped] := by
  have h : (feed Tui.step (fun _ _ => True) greeting greets).map
      (fun (es, _) => acts (greets.zip es)) =
      some [.ran .idle, .ran .idle, .ran .executed, .ran .idle, .ran .idle, .ran .executed,
        .popped] := by
    decide +kernel
  obtain ⟨⟨es, t⟩, fed, done⟩ := Option.map_eq_some_iff.mp h
  exact ⟨_, t, session_is_a_run (P := fun _ => True) (run_of_feed fed), done⟩

inductive Felt where
  | turn
  | typed (byte : Byte)
  deriving DecidableEq, Repr

def TuiEvent.felt : TuiEvent → Option Felt
  | .ran (.dispatched _) | .ran .executed | .ran (.returned false) => some .turn
  | .injected byte => some (.typed byte)
  | _ => none

def felt (trace : List (TuiInput × TuiEvent)) : List Felt := trace.filterMap fun x => x.2.felt

/-- How the turns ended. -/
def TuiEvent.turn : TuiEvent → Option Event
  | .ran (.dispatched vec) => some (.dispatched vec)
  | .ran .executed => some .executed
  | .ran (.returned false) => some (.returned false)
  | _ => none

def turnEvents (trace : List (TuiInput × TuiEvent)) : List Event :=
  trace.filterMap fun x => x.2.turn

/-- What turns read of a program. -/
structure Core where
  machine : Machine
  nextUartPollCycle : BitVec 64

def Program.core (p : Program) : Core := ⟨p.machine, p.nextUartPollCycle⟩

namespace Core

def program (c : Core) : Program where
  machine := c.machine
  control := .body
  nextSnapshotCycle := 0
  nextUartPollCycle := c.nextUartPollCycle
  nextWallSyncCycle := 0
  snapshot := none
  wallTarget := 0

def onUart (G : Uart → Uart) (c : Core) : Core := { c with machine := c.machine.onUart G }

/-- The emulator without a UI. -/
def feel (c : Core) : Felt → Option (Event × Core)
  | .turn => (c.program.turn none).map fun (e, q) => (e, q.core)
  | .typed byte => some (.idle, c.onUart fun u => u.uartInjectRx byte)

end Core

namespace Program

variable {p q : Program}

theorem pollUart_core (same : p.core = q.core) (stdin : Option Byte) :
    (p.pollUart stdin).core = (q.pollUart stdin).core := by
  obtain ⟨machine, poll⟩ := Core.mk.inj same
  by_cases due : p.nextUartPollCycle ≤ p.machine.state.cycleCount
  · have due' : q.nextUartPollCycle ≤ q.machine.state.cycleCount := by rwa [← machine, ← poll]
    rw [pollUart_due due, pollUart_due due', core, core, machine]
  · have due' : ¬ q.nextUartPollCycle ≤ q.machine.state.cycleCount := by rwa [← machine, ← poll]
    rw [pollUart, pollUart, if_neg due, if_neg due', same]

theorem after_core (p : Program) (m : Machine) (outcome : Outcome) :
    (p.after m outcome).2.core = ⟨m, p.nextUartPollCycle⟩ := by
  cases outcome with
  | dispatched | failed => rfl
  | executed =>
    rw [after, core, advance_machine, advance_poll]

/-- A turn depends on the core alone. -/
theorem turn_core (same : p.core = q.core) (stdin : Option Byte) :
    (p.turn stdin).map (fun x => (x.1, x.2.core)) =
      (q.turn stdin).map fun x => (x.1, x.2.core) := by
  obtain ⟨machine, poll⟩ := Core.mk.inj (pollUart_core same stdin)
  rw [turn, turn, machine, Option.map_map, Option.map_map]
  congr 1
  funext x
  obtain ⟨outcome, m⟩ := x
  apply Prod.ext
  · cases outcome <;> rfl
  · change ((p.pollUart stdin).after m outcome).2.core = ((q.pollUart stdin).after m outcome).2.core
    rw [after_core, after_core, poll]

end Program

/-! ## The UI does not matter -/

/-- With bytes in front of those that wait to be popped. -/
def Uart.behind (sent : List Byte) : Uart → Uart := .mapBuffers (sent ++ ·) id

/-- What a turn shows. -/
def Felt.shows : Felt → Event → Option Event
  | .turn, e => some e
  | .typed _, _ => none

theorem start_core (m : Machine) (tx rx : List Byte → List Byte) (snapshot : Option AvrState) :
    (Program.start (m.onUart (Uart.mapBuffers tx rx)) true snapshot).core =
      (Program.start m true snapshot).core.onUart (Uart.mapBuffers tx rx) := by
  have init (u : Uart) : ((u.mapBuffers tx rx).uartInit true).2 =
      (u.uartInit true).2.mapBuffers tx rx := by
    obtain ⟨initialized, _, _, tuiMode, _, _, _, _, _, _, _, _⟩ := u
    cases tuiMode <;> cases initialized <;> rfl
  exact congrArg (fun u => Core.mk { m with
    uart := u
    timer0 := timer0Reset
    interrupts := m.interrupts.interruptSetState.interruptReset } 0) (init m.uart)

namespace Tui

/-- The program, once its thread is in `executeProgram`. -/
def begun (t : Tui) : Program :=
  match t.thread with
  | .starting => .start t.program.machine true t.program.snapshot
  | _ => t.program

theorem begun_started {t : Tui} (started : t.thread ≠ .starting) : t.begun = t.program := by
  unfold begun
  split
  next starting => exact absurd starting started
  next => rfl

/-- With everything that was popped put back. -/
def unwatched (t : Tui) (sent : List Byte) : Core := t.begun.core.onUart (Uart.behind sent)

/-- What a step is for an emulator without a UI: nothing, or what it feels. -/
def Feels (c c' : Core) (e : TuiEvent) : Prop :=
  (e.felt = none ∧ e.turn = none ∧ c' = c) ∨
    ∃ f shown, e.felt = some f ∧ e.turn = f.shows shown ∧ c.feel f = some (shown, c')

theorem behind_turn {p q : Program} {e : Event} (taken : p.turn none = some (e, q))
    (sent : List Byte) : (p.core.onUart (Uart.behind sent)).feel .turn =
      some (e, q.core.onUart (Uart.behind sent)) := by
  have blind : UartBlind (Uart.behind sent) :=
    mapBuffers_blind id fun before byte => (List.append_assoc sent before [byte]).symm
  have polled : (p.onUart (Uart.behind sent)).pollUart none =
      (p.pollUart none).onUart (Uart.behind sent) := by
    apply pollUart_mapBuffers
    intro _ _ _
    cases queue : p.machine.uart.rxQueue with
    | nil => exact .inl ⟨rfl, rfl⟩
    | cons byte rest => exact .inr ⟨byte, rest, rfl, rfl⟩
  have same := Program.turn_core (p := (p.core.onUart (Uart.behind sent)).program)
    (q := p.onUart (Uart.behind sent)) rfl none
  rw [blind.turn polled, taken] at same
  exact same

theorem runs_feels {t : Tui} {e : Event} {p : Program} (thread : t.thread = .executing)
    (taken : t.program.step (.loop t.emuStop t.emuPause none) = some (e, p)) (sent : List Byte) :
    Feels (t.unwatched sent)
      (unwatched { t with program := p, thread := threadAfter e } sent) (.ran e) := by
  have before : t.begun = t.program := begun_started (by rw [thread]; nofun)
  have after : begun { t with program := p, thread := threadAfter e } = p :=
    begun_started (by cases e <;> nofun)
  rw [unwatched, unwatched, before, after]
  cases Program.step_looped taken with
  | stops | goesOn | waits | resumes => exact .inl ⟨rfl, rfl, rfl⟩
  | turns control turn =>
    rw [Program.step_body control] at taken
    have feels := behind_turn taken sent
    rcases turn.control with ⟨⟨vec, rfl⟩, -⟩ | ⟨rfl, -⟩ | ⟨rfl, -⟩
    · exact .inr ⟨.turn, _, rfl, rfl, feels⟩
    · exact .inr ⟨.turn, _, rfl, rfl, feels⟩
    · exact .inr ⟨.turn, _, rfl, rfl, feels⟩

theorem Feels.idle {t t' : Tui} {sent : List Byte} {e : TuiEvent} (felt : e.felt = none)
    (turn : e.turn = none) (begun : t'.begun = t.begun) :
    Feels (t.unwatched sent) (t'.unwatched sent) e := by
  refine .inl ⟨felt, turn, ?_⟩
  rw [unwatched, unwatched, begun]

/-- The UI changed the buffers, in whichever state the thread is. -/
theorem begun_core {t t' : Tui} {tx rx : List Byte → List Byte}
    (program : t'.program = t.program.onUart (Uart.mapBuffers tx rx))
    (thread : t'.thread = t.thread) :
    t'.begun.core = t.begun.core.onUart (Uart.mapBuffers tx rx) := by
  by_cases starting : t.thread = .starting
  · rw [begun, begun, thread, starting, program]
    exact start_core _ _ _ _
  · rw [begun_started starting, begun_started (thread ▸ starting), program]
    rfl

theorem injects_feels {t t' : Tui} {byte : Byte} (sent : List Byte)
    (program : t'.program = t.program.injected byte) (thread : t'.thread = t.thread) :
    Feels (t.unwatched sent) (t'.unwatched sent) (.injected byte) := by
  refine .inr ⟨.typed byte, .idle, rfl, rfl, ?_⟩
  rw [unwatched, unwatched, begun_core program thread]
  rfl

theorem begun_txBuffer (t : Tui) : t.begun.machine.uart.txBuffer = t.uart.txBuffer := by
  by_cases starting : t.thread = .starting
  · rw [begun, starting]
    change (t.program.machine.uart.uartInit true).2.txBuffer = t.program.machine.uart.txBuffer
    unfold Uart.uartInit
    repeat' split
    all_goals rfl
  · rw [begun_started starting]
    rfl

/-- What is popped goes to what was popped. -/
theorem serial_feels (t : Tui) (sent : List Byte) :
    t.renderSerial.2.unwatched (sent ++ t.uart.txBuffer) = t.unwatched sent := by
  have popped : t.renderSerial.2.begun.core =
      t.begun.core.onUart (Uart.mapBuffers (fun _ => []) id) := begun_core rfl rfl
  rw [unwatched, unwatched, popped, ← begun_txBuffer]
  simp [Core.onUart, Machine.onUart, Uart.behind, Uart.mapBuffers, Program.core]

theorem Moves.feels {t t' : Tui} {i : TuiInput} {e : TuiEvent} (moves : Moves t i e t')
    (sent : List Byte) :
    Feels (t.unwatched sent) (t'.unwatched (sent ++ poppedBytes (i, e))) e := by
  have quiet (none : poppedBytes (i, e) = [])
      (feels : Feels (t.unwatched sent) (t'.unwatched sent) e) :
      Feels (t.unwatched sent) (t'.unwatched (sent ++ poppedBytes (i, e))) e := by
    rw [none, List.append_nil]
    exact feels
  cases moves with
  | serial => exact .inl ⟨rfl, rfl, t.serial_feels sent⟩
  | runs thread taken => exact quiet rfl (runs_feels thread taken sent)
  | sendsByte | endsLine => exact quiet rfl (injects_feels sent rfl rfl)
  | starts thread | stores thread | ends thread =>
    apply quiet rfl (.idle rfl rfl _)
    rw [begun, begun, thread]
  | handles _ edited =>
    obtain ⟨thread, -, -, program⟩ := t.handle_thread _ edited
    apply quiet rfl (.idle rfl rfl _)
    rw [begun, begun, thread, program]
  | regs _ due =>
    apply quiet rfl (.idle rfl rfl _)
    unfold renderRegs
    split <;> rfl
  | disasm _ due =>
    apply quiet rfl (.idle rfl rfl _)
    unfold renderDisasm
    split <;> rfl
  | enters | interrupts | leaves | stops | unpauses | exits =>
    exact quiet rfl (.idle rfl rfl rfl)

/-- The emulator without a UI, which felt the same and showed the same, is here. -/
structure Followed (state : AvrState) (trace : List (TuiInput × TuiEvent)) (t : Tui)
    (felts : List (Felt × Event)) : Prop where
  run : Run Core.feel anything (start state).begun.core felts
    (t.unwatched (trace.flatMap poppedBytes))
  felt : felts.map Prod.fst = felt trace
  turns : felts.filterMap (fun x => x.1.shows x.2) = turnEvents trace

theorem run_followed {state : AvrState} {t : Tui} {trace : List (TuiInput × TuiEvent)}
    (run : Run step anything (start state) trace t) : ∃ felts, Followed state trace t felts := by
  apply run.traced (P := fun trace t => ∃ felts, Followed state trace t felts) ?_
    ⟨[], .nil _, rfl, rfl⟩
  intro before p i e q _ ih _ taken
  obtain ⟨felts, ih⟩ := ih
  have feels := (step_moves taken).feels (before.flatMap poppedBytes)
  have popped : (before ++ [(i, e)]).flatMap poppedBytes =
      before.flatMap poppedBytes ++ poppedBytes (i, e) := by simp
  rw [← popped] at feels
  rcases feels with ⟨felt, turn, same⟩ | ⟨f, shown, felt, turn, taken⟩
  · refine ⟨felts, same ▸ ih.run, ih.felt.trans ?_, ih.turns.trans ?_⟩
    · simp [AvrEmulator.felt, felt]
    · simp [turnEvents, turn]
  · refine ⟨felts ++ [(f, shown)], ih.run.snoc trivial taken, ?_, ?_⟩
    · simp [AvrEmulator.felt, felt, ih.felt]
    · rw [List.filterMap_append, ih.turns, turnEvents, turnEvents, List.filterMap_append]
      congr 1
      cases f with
      | turn =>
        have turn : e.turn = some shown := turn
        simp [Felt.shows, turn]
      | typed byte =>
        have turn : e.turn = none := turn
        simp [Felt.shows, turn]

end Tui

/-- Two sessions of one firmware in which the typed bytes came between the same turns. Then
their turns ended alike, the machines are the same but for what waits to be popped, and the
same bytes were sent in all. Pauses, redraws, tabs and how often the output was popped do not
matter to the program. -/
theorem only_typing_is_felt {state : AvrState} {t t' : Tui}
    {trace trace' : List (TuiInput × TuiEvent)}
    (run : Run Tui.step anything (Tui.start state) trace t)
    (run' : Run Tui.step anything (Tui.start state) trace' t')
    (begun : t.thread ≠ .starting) (begun' : t'.thread ≠ .starting)
    (same : felt trace = felt trace') :
    turnEvents trace = turnEvents trace' ∧
    t.program.machine.onUart (Uart.behind (trace.flatMap poppedBytes)) =
      t'.program.machine.onUart (Uart.behind (trace'.flatMap poppedBytes)) := by
  obtain ⟨felts, followed⟩ := Tui.run_followed run
  obtain ⟨felts', followed'⟩ := Tui.run_followed run'
  have inputs : felts.map Prod.fst = felts'.map Prod.fst := by
    rw [followed.felt, followed'.felt, same]
  obtain ⟨rfl, ends⟩ := followed.run.determined followed'.run inputs
  refine ⟨followed.turns.symm.trans followed'.turns, ?_⟩
  rw [Tui.unwatched, Tui.unwatched, Tui.begun_started begun, Tui.begun_started begun'] at ends
  exact congrArg Core.machine ends

/-- The same turns with a pause between them and the registers on the screen. -/
def greetsPaused : List TuiInput :=
  .key .Tab [] :: List.replicate 5 .emulator ++ .key (.Character [0x20]) [] :: .emulator ::
    .render true :: .key (.Character [0x20]) [] :: List.replicate 3 .emulator

/-- What was popped in one session waits in the other. -/
theorem paused_greeting_is_the_same : ∃ t t' trace trace',
    Run Tui.step anything greeting trace t ∧ Run Tui.step anything greeting trace' t' ∧
    turnEvents trace = turnEvents trace' ∧ trace.flatMap poppedBytes = [0x48] ∧
    t'.uart.txBuffer = [0x48] := by
  have first : (feed Tui.step anything greeting greets).map (fun (es, t) =>
      (t.thread, felt (greets.zip es), (greets.zip es).flatMap poppedBytes, t.uart.txBuffer)) =
      some (.executing, [.turn, .turn], [0x48], []) := by
    decide +kernel
  have second : (feed Tui.step anything greeting greetsPaused).map (fun (es, t) =>
      (t.thread, felt (greetsPaused.zip es), (greetsPaused.zip es).flatMap poppedBytes)) =
      some (.executing, [.turn, .turn], []) := by
    decide +kernel
  obtain ⟨⟨es, t⟩, fed, done⟩ := Option.map_eq_some_iff.mp first
  obtain ⟨⟨es', t'⟩, fed', done'⟩ := Option.map_eq_some_iff.mp second
  simp only [Prod.mk.injEq] at done done'
  obtain ⟨begun, felt, popped, waiting⟩ := done
  obtain ⟨begun', felt', popped'⟩ := done'
  have run := run_of_feed fed
  have run' := run_of_feed fed'
  obtain ⟨turns, same⟩ := only_typing_is_felt run run' (by rw [begun]; nofun)
    (by rw [begun']; nofun) (felt.trans felt'.symm)
  refine ⟨t, t', _, _, run, run', turns, popped, ?_⟩
  have sent := congrArg (fun m : Machine => m.uart.txBuffer) same
  rw [popped, popped'] at sent
  change [0x48] ++ t.uart.txBuffer = t'.uart.txBuffer at sent
  rw [← sent, waiting]
  rfl

end AvrEmulator
