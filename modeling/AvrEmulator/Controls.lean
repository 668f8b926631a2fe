import AvrEmulator.ArrayBounds
import AvrEmulator.Session

/-! Stop and pause. Both flags are only looked at between turns, so each of them lets at
most one turn pass. -/

namespace AvrEmulator

open Transition

def Input.unpaused : Input → Input
  | .loop stop _ stdin => .loop stop false stdin
  | i => i

/-- Nobody asks for a pause. -/
def Program.Unpaused (_ : Program) (i : Input) : Prop := i.unpaused = i

/-- What a step shows beside that the loop went round its own waits. -/
def visible : Input × Event → Option (Input × Event)
  | (.loop _ _ _, .idle) => none
  | (i, e) => some (i.unpaused, e)

theorem visible_unpaused (i : Input) (e : Event) : visible (i.unpaused, e) = visible (i, e) := by
  cases i <;> cases e <;> rfl

/-- A step waits in place, or the pause flag does not matter to it. -/
theorem Program.step_unpaused {p q : Program} {i : Input} {e : Event}
    (taken : p.step i = some (e, q)) :
    (visible (i, e) = none ∧ q = p) ∨ p.step i.unpaused = some (e, q) := by
  cases i with
  | injectRx | popTx => exact .inr taken
  | loop stop pause stdin =>
    cases step_looped taken with
    | waits => exact .inl ⟨rfl, rfl⟩
    | resumes control =>
      refine .inr ?_
      rw [Input.unpaused, step, control]
      rfl
    | stops control | goesOn control | turns control =>
      rw [step, control] at taken
      rw [Input.unpaused, step, control]
      exact .inr taken

/-- A run with pauses is a run without them: the same turns and the same acts of the host in
the same order, to the same end. -/
theorem pauses_change_nothing {p q : Program} {trace : List (Input × Event)}
    (run : Run Program.step anything p trace q) :
    ∃ trace', Run Program.step Program.Unpaused p trace' q ∧
      trace'.filterMap visible = trace.filterMap visible := by
  induction run with
  | nil p => exact ⟨[], .nil p, rfl⟩
  | @cons p r q i e trace _ taken _ ih =>
    obtain ⟨trace', run, same⟩ := ih
    rcases Program.step_unpaused taken with ⟨hidden, rfl⟩ | step
    · refine ⟨trace', run, ?_⟩
      rw [List.filterMap_cons_none hidden]
      exact same
    · refine ⟨(i.unpaused, e) :: trace', .cons ?_ step run, ?_⟩
      · cases i <;> rfl
      · simp only [List.filterMap_cons, visible_unpaused, same]

/-- The endless loop pauses before its first turn and goes on. -/
def resting : List Input :=
  List.replicate 3 (.loop false true none) ++ [Program.go, Program.go]

theorem resting_changes_nothing : ∃ trace q,
    Run Program.step Program.Unpaused (.start (.initial (Program.firmware [0xCFFF])) true none)
      trace q ∧ trace.filterMap visible = [(Program.go, .executed)] := by
  have h : (feed Program.step anything
      (.start (.initial (Program.firmware [0xCFFF])) true none) resting).map (fun (es, _) =>
        es) = some [.idle, .idle, .idle, .idle, .executed] := by
    decide +kernel
  obtain ⟨⟨es, q⟩, fed, events⟩ := Option.map_eq_some_iff.mp h
  obtain ⟨trace, run, same⟩ := pauses_change_nothing (run_of_feed fed)
  have events : es = [.idle, .idle, .idle, .idle, .executed] := events
  refine ⟨trace, q, run, ?_⟩
  rw [same, events]
  rfl

/-! ## Stop -/

/-- A step of the emulator thread. -/
def TuiInput.isEmulator : TuiInput → Bool
  | .emulator => true
  | _ => false

/-- An interrupt was dispatched, an instruction executed, or an error returned. -/
def TuiEvent.isTurn : TuiEvent → Bool
  | .ran (.dispatched _) | .ran .executed | .ran (.returned false) => true
  | _ => false

def emulatorSteps (trace : List (TuiInput × TuiEvent)) : Nat :=
  trace.countP fun x => x.1.isEmulator

def turnsIn (trace : List (TuiInput × TuiEvent)) : Nat := trace.countP fun x => x.2.isTurn

theorem emulatorSteps_cons (x : TuiInput × TuiEvent) (trace : List (TuiInput × TuiEvent)) :
    emulatorSteps (x :: trace) = emulatorSteps trace + x.1.isEmulator.toNat := by
  rw [emulatorSteps, List.countP_cons]
  cases x.1.isEmulator <;> rfl

theorem turnsIn_cons (x : TuiInput × TuiEvent) (trace : List (TuiInput × TuiEvent)) :
    turnsIn (x :: trace) = turnsIn trace + x.2.isTurn.toNat := by
  rw [turnsIn, List.countP_cons]
  cases x.2.isTurn <;> rfl

namespace Tui

/-- The steps of the thread to its end, once it is to stop. -/
def stepsLeft (t : Tui) : Nat :=
  match t.thread with
  | .starting => 4
  | .executing =>
    match t.program.control with
    | .head | .done _ => 3
    | .body => 4
    | .paused => 5
  | .returned _ => 2
  | .stored => 1
  | .ended => 0

/-- The turns among them. -/
def turnsLeft (t : Tui) : Nat :=
  match t.thread with
  | .executing =>
    match t.program.control with
    | .head | .done _ => 0
    | .body | .paused => 1
  | _ => 0

theorem left_le (t : Tui) : t.stepsLeft ≤ 5 ∧ t.turnsLeft ≤ 1 := by
  unfold stepsLeft turnsLeft
  cases t.thread with
  | executing => cases t.program.control <;> simp
  | starting | returned | stored | ended => simp

/-- A step under the stop flag. -/
structure Stopping (t t' : Tui) (x : TuiInput × TuiEvent) : Prop where
  stop : t'.emuStop = true
  steps : t'.stepsLeft + x.1.isEmulator.toNat ≤ t.stepsLeft
  turns : t'.turnsLeft + x.2.isTurn.toNat ≤ t.turnsLeft

theorem Stopping.idle {t t' : Tui} {i : TuiInput} {e : TuiEvent} (ui : i.isEmulator = false)
    (still : e.isTurn = false) (stop : t'.emuStop = true) (thread : t'.thread = t.thread)
    (control : t'.program.control = t.program.control) : Stopping t t' (i, e) := by
  refine ⟨stop, ?_, ?_⟩
  · rw [stepsLeft, stepsLeft, thread, control, ui]
    exact Nat.le_refl _
  · rw [turnsLeft, turnsLeft, thread, control, still]
    exact Nat.le_refl _

theorem runs_stopping {t : Tui} {e : Event} {p : Program} (stop : t.emuStop = true)
    (thread : t.thread = .executing)
    (looped : Program.Looped t.program t.emuStop t.emuPause none e p) :
    Stopping t { t with program := p, thread := threadAfter e } (.emulator, .ran e) := by
  have steps : t.stepsLeft = match t.program.control with
      | .head | .done _ => 3
      | .body => 4
      | .paused => 5 := by
    rw [stepsLeft, thread]
  have turns : t.turnsLeft = match t.program.control with
      | .head | .done _ => 0
      | .body | .paused => 1 := by
    rw [turnsLeft, thread]
  cases looped with
  | goesOn _ clear | waits _ _ clear =>
    rw [stop] at clear
    cases clear
  | stops control | resumes control =>
    rw [control] at steps turns
    refine ⟨stop, ?_, ?_⟩
    · rw [steps]
      exact Nat.le_refl _
    · rw [turns]
      exact Nat.le_refl _
  | turns control turn =>
    rw [control] at steps turns
    refine ⟨stop, ?_, ?_⟩
    · rw [steps]
      rcases turn.control with ⟨⟨vec, rfl⟩, head⟩ | ⟨rfl, head⟩ | ⟨rfl, -⟩
      · simp [stepsLeft, threadAfter, head, TuiInput.isEmulator]
      · simp [stepsLeft, threadAfter, head, TuiInput.isEmulator]
      · simp [stepsLeft, threadAfter, TuiInput.isEmulator]
    · rw [turns]
      rcases turn.control with ⟨⟨vec, rfl⟩, head⟩ | ⟨rfl, head⟩ | ⟨rfl, -⟩
      · simp [turnsLeft, threadAfter, head, TuiEvent.isTurn]
      · simp [turnsLeft, threadAfter, head, TuiEvent.isTurn]
      · simp [turnsLeft, threadAfter, TuiEvent.isTurn]

theorem handle_stop {t : Tui} (stop : t.emuStop = true) (event : UiEvent) (edited : List Byte) :
    (t.handle event edited).emuStop = true := by
  unfold handle
  repeat' split
  all_goals first | exact stop | rfl

theorem Moves.stopping {t t' : Tui} {i : TuiInput} {e : TuiEvent} (moves : Moves t i e t')
    (stop : t.emuStop = true) : Stopping t t' (i, e) := by
  cases moves with
  | runs thread taken => exact runs_stopping stop thread (Program.step_looped taken)
  | starts thread | stores thread | ends thread =>
    refine ⟨stop, ?_, ?_⟩
    · rw [stepsLeft, stepsLeft, thread]
      exact Nat.le_refl _
    · rw [turnsLeft, turnsLeft, thread]
      exact Nat.le_refl _
  | handles _ edited =>
    obtain ⟨thread, -, -, program⟩ := t.handle_thread _ edited
    exact .idle rfl rfl (handle_stop stop _ edited) thread (by rw [program])
  | regs _ due =>
    unfold renderRegs
    split <;> exact .idle rfl rfl stop rfl rfl
  | disasm _ due =>
    unfold renderDisasm
    split <;> exact .idle rfl rfl stop rfl rfl
  | stops => exact .idle rfl rfl rfl rfl rfl
  | enters | serial | interrupts | leaves | sendsByte | endsLine | unpauses | exits =>
    exact .idle rfl rfl stop rfl rfl

theorem run_stopping {ok : Tui → TuiInput → Prop} {t t' : Tui}
    {trace : List (TuiInput × TuiEvent)} (run : Run step ok t trace t')
    (stop : t.emuStop = true) :
    t'.stepsLeft + emulatorSteps trace ≤ t.stepsLeft ∧
      t'.turnsLeft + turnsIn trace ≤ t.turnsLeft := by
  induction run with
  | nil => exact ⟨Nat.le_refl _, Nat.le_refl _⟩
  | cons _ taken _ ih =>
    have stopping := (step_moves taken).stopping stop
    obtain ⟨steps, turns⟩ := ih stopping.stop
    have steps' := stopping.steps
    have turns' := stopping.turns
    rw [emulatorSteps_cons, turnsIn_cons]
    omega

/-- Past its loop the UI has told the thread to stop. -/
def Told (t : Tui) : Prop := t.stage = .stopped ∨ t.stage = .joining → t.emuStop = true

theorem Told.looping {t : Tui} (stage : t.stage = .looping) : t.Told := by
  intro past
  rcases past with past | past <;> rw [stage] at past <;> cases past

theorem Moves.told {t t' : Tui} {i : TuiInput} {e : TuiEvent} (moves : Moves t i e t')
    (h : t.Told) : t'.Told := by
  cases moves with
  | starts | runs | stores | ends => exact h
  | handles stage edited =>
    rcases t.handle_stage _ edited with same | sending
    · exact .looping (same.trans stage)
    · intro past
      rcases past with past | past <;> rw [sending] at past <;> cases past
  | regs stage due =>
    unfold renderRegs
    split <;> exact .looping stage
  | disasm stage due =>
    unfold renderDisasm
    split <;> exact .looping stage
  | serial stage | interrupts stage => exact .looping stage
  | endsLine => exact .looping rfl
  | enters | leaves | sendsByte | exits => rintro (past | past) <;> cases past
  | stops => exact fun _ => rfl
  | unpauses stage => exact fun _ => h (.inl stage)

theorem run_told {ok : Tui → TuiInput → Prop} {state : AvrState} {t : Tui}
    {trace : List (TuiInput × TuiEvent)} (run : Run step ok (start state) trace t) : t.Told := by
  apply run.invariant (P := Told) ?_ (.looping rfl)
  intro s i e t told _ taken
  exact (step_moves taken).told told

theorem loop_defined {p : Program} (running : ∀ ok, p.control ≠ .done ok) (stop pause : Bool)
    (stdin : Option Byte) : (p.step (.loop stop pause stdin)).isSome = true := by
  cases control : p.control with
  | done ok => exact absurd control (running ok)
  | body =>
    rw [Program.step_body control]
    exact p.turn_defined stdin
  | head =>
    rw [Program.step, control]
    cases stop <;> rfl
  | paused =>
    rw [Program.step, control]
    dsimp only
    split <;> rfl

/-- The thread always has a next step, until it has ended. -/
theorem emulator_defined {t : Tui} {result : Option Bool} (flagged : t.Flagged result)
    (running : t.thread ≠ .ended) : ∃ e t', t.step .emulator = some (e, t') := by
  change ∃ e t', t.emulator = some (e, t')
  unfold emulator
  split
  next => exact ⟨_, _, rfl⟩
  next thread =>
    unfold Flagged at flagged
    rw [thread] at flagged
    obtain ⟨x, taken⟩ := Option.isSome_iff_exists.mp
      (loop_defined flagged.2.2.2 t.emuStop t.emuPause none)
    rw [taken]
    exact ⟨_, _, rfl⟩
  next => exact ⟨_, _, rfl⟩
  next => exact ⟨_, _, rfl⟩
  next thread => exact absurd thread running

theorem emulator_stage {t t' : Tui} {e : TuiEvent} (moves : Moves t .emulator e t') :
    t'.stage = t.stage := by
  cases moves <;> rfl

/-- The library asks for no exit by itself. -/
def Uninterrupted (_ : Tui) (i : TuiInput) : Prop := i ≠ .interrupt

/-- Told to stop, the thread runs to its end. -/
theorem thread_ends {t : Tui} {result : Option Bool} (stop : t.emuStop = true)
    (flagged : t.Flagged result) :
    ∃ trace t' result', Run step Uninterrupted t trace t' ∧ t'.thread = .ended ∧
      t'.stage = t.stage ∧ t'.Flagged result' := by
  induction left : t.stepsLeft using Nat.strong_induction_on generalizing t result with
  | _ n ih =>
    by_cases ended : t.thread = .ended
    · exact ⟨[], t, result, .nil t, ended, rfl, flagged⟩
    · obtain ⟨e, t', taken⟩ := emulator_defined flagged ended
      have moves := step_moves taken
      have stopping := moves.stopping stop
      have fewer : t'.stepsLeft < n := by
        have steps : t'.stepsLeft + 1 ≤ t.stepsLeft := stopping.steps
        omega
      have allowed : t.Uninterrupted .emulator := by simp [Uninterrupted]
      obtain ⟨trace, last, result', run, ended, stage, flagged'⟩ :=
        ih _ fewer stopping.stop (moves.flagged flagged) rfl
      exact ⟨_, last, result', .cons allowed taken run, ended, stage.trans (emulator_stage moves),
        flagged'⟩

/-- The interface can be left from here, by its own keys. -/
def Leaves (t : Tui) : Prop :=
  ∃ trace t' code, Run step Uninterrupted t trace t' ∧ t'.stage = .exited code

theorem Leaves.step {t t' : Tui} {i : TuiInput} {e : TuiEvent} (allowed : i ≠ .interrupt)
    (taken : t.step i = some (e, t')) (h : t'.Leaves) : t.Leaves := by
  obtain ⟨trace, last, code, run, exited⟩ := h
  exact ⟨(i, e) :: trace, last, code, .cons allowed taken run, exited⟩

theorem Leaves.run {t t' : Tui} {trace : List (TuiInput × TuiEvent)}
    (first : Run Tui.step Uninterrupted t trace t') (h : t'.Leaves) : t.Leaves := by
  obtain ⟨later, last, code, rest, exited⟩ := h
  exact ⟨trace ++ later, last, code, first.append rest, exited⟩

theorem leaves_joining {t : Tui} {result : Option Bool} (stage : t.stage = .joining)
    (stop : t.emuStop = true) (flagged : t.Flagged result) : t.Leaves := by
  obtain ⟨trace, last, -, run, ended, same, -⟩ := thread_ends stop flagged
  have taken : last.step .proceed = some (.exited (if last.emuError then 3 else 0),
      { last with stage := .exited (if last.emuError then 3 else 0) }) := by
    change last.proceed = _
    rw [proceed, same, stage]
    exact if_pos ended
  exact .run run (.step (by simp) taken ⟨[], _, _, .nil _, rfl⟩)

theorem leaves_stopped {t : Tui} {result : Option Bool} (stage : t.stage = .stopped)
    (stop : t.emuStop = true) (flagged : t.Flagged result) : t.Leaves := by
  have taken : t.step .proceed = some (.idle, { t with emuPause := false, stage := .joining }) := by
    change t.proceed = _
    rw [proceed, stage]
  exact .step (by simp) taken (leaves_joining rfl stop (flagged.same rfl rfl rfl rfl))

theorem leaves_left {t : Tui} {result : Option Bool} (stage : t.stage = .left)
    (flagged : t.Flagged result) : t.Leaves := by
  have taken : t.step .proceed = some (.idle, { t with emuStop := true, stage := .stopped }) := by
    change t.proceed = _
    rw [proceed, stage]
  exact .step (by simp) taken (leaves_stopped rfl rfl (flagged.same rfl rfl rfl rfl))

/-- Escape, once the thread is done, ends the loop. -/
theorem leaves_done {t : Tui} {result : Option Bool} (stage : t.stage = .looping)
    (done : t.emuDone = true) (flagged : t.Flagged result) : t.Leaves := by
  have escape : t.step (.key .Escape []) = some (.idle, { t with exitRequested := true }) := by
    rw [Tui.step, if_pos stage, handle, done]
    rfl
  have leave : Tui.step { t with exitRequested := true } .leave =
      some (.idle, { t with exitRequested := true, stage := .left }) := if_pos ⟨stage, rfl⟩
  exact .step (by simp) escape <| .step (by simp) leave <|
    leaves_left rfl (flagged.same rfl rfl rfl rfl)

/-- Escape stops the thread, and once it has run to its end Escape ends the loop. -/
theorem leaves_looping {t : Tui} {result : Option Bool} (stage : t.stage = .looping)
    (flagged : t.Flagged result) : t.Leaves := by
  cases done : t.emuDone with
  | true => exact leaves_done stage done flagged
  | false =>
    have escape : t.step (.key .Escape []) = some (.idle, { t with emuStop := true }) := by
      rw [Tui.step, if_pos stage, handle, done]
      rfl
    obtain ⟨trace, last, result', run, ended, same, flagged'⟩ :=
      thread_ends (t := { t with emuStop := true }) rfl (flagged.same rfl rfl rfl rfl)
    have done : last.emuDone = true := by
      have told := flagged'
      unfold Flagged at told
      rw [ended] at told
      exact told.2
    exact .step (by simp) escape (.run run (leaves_done (same.trans stage) done flagged'))

theorem leaves_sending {t : Tui} {result : Option Bool} {line : List Byte}
    (stage : t.stage = .sending line) (flagged : t.Flagged result) : t.Leaves := by
  induction line generalizing t with
  | nil =>
    have taken : t.step .proceed = some (.injected 0x0A,
        { t.uartInjectRx 0x0A with cinInput := [], stage := .looping }) := by
      change t.proceed = _
      rw [proceed, stage]
    exact .step (by simp) taken (leaves_looping rfl (flagged.same rfl rfl rfl rfl))
  | cons byte rest ih =>
    have taken : t.step .proceed = some (.injected byte,
        { t.uartInjectRx byte with stage := .sending rest }) := by
      change t.proceed = _
      rw [proceed, stage]
    exact .step (by simp) taken (ih rfl (flagged.same rfl rfl rfl rfl))

theorem run_leaves {state : AvrState} {t : Tui} {trace : List (TuiInput × TuiEvent)}
    (run : Run step anything (start state) trace t) : t.Leaves := by
  have flagged := run_flagged run
  have told := run_told run
  cases stage : t.stage with
  | looping => exact leaves_looping stage flagged
  | sending line => exact leaves_sending stage flagged
  | left => exact leaves_left stage flagged
  | stopped => exact leaves_stopped stage (told (.inl stage)) flagged
  | joining => exact leaves_joining stage (told (.inr stage)) flagged
  | exited code => exact ⟨[], t, code, .nil t, stage⟩

end Tui

/-- Once the stop flag is set, whatever the UI still does, the thread takes at most five
more steps and one more turn. It always has a next step until it has ended, and from every
state of a session its own keys lead the process to its exit: neither loop waits for the
other for ever. -/
theorem stop_is_obeyed {state : AvrState} {t : Tui} {trace : List (TuiInput × TuiEvent)}
    (run : Run Tui.step anything (Tui.start state) trace t) :
    (t.emuStop = true → ∀ later t', Run Tui.step anything t later t' →
      emulatorSteps later ≤ 5 ∧ turnsIn later ≤ 1) ∧
    (t.thread ≠ .ended → ∃ e t', t.step .emulator = some (e, t')) ∧
    ∃ later t' code, Run Tui.step Tui.Uninterrupted t later t' ∧ t'.stage = .exited code := by
  have flagged := Tui.run_flagged run
  refine ⟨?_, Tui.emulator_defined flagged, Tui.run_leaves run⟩
  intro stop later t' rest
  have left := Tui.run_stopping rest stop
  have bounds := t.left_le
  omega

/-- The endless loop, RJMP to itself, at work. -/
def looping : Tui := .start (Program.firmware [0xCFFF])

/-- Space pauses the thread before its second turn, and Escape stops it there. -/
def stopsPaused : List TuiInput :=
  List.replicate 5 .emulator ++ .key (.Character [0x20]) [] :: .emulator :: [.key .Escape []]

theorem paused_loop_stops : ∃ trace t, Run Tui.step anything looping trace t ∧
    t.program.control = .paused ∧ t.emuPause = true ∧
    (∀ later t', Run Tui.step anything t later t' → emulatorSteps later ≤ 5 ∧ turnsIn later ≤ 1) ∧
    ∃ later t' code, Run Tui.step Tui.Uninterrupted t later t' ∧ t'.stage = .exited code := by
  have h : (feed Tui.step anything looping stopsPaused).map (fun (_, t) =>
      (t.program.control, t.emuPause, t.emuStop)) = some (.paused, true, true) := by
    decide +kernel
  obtain ⟨⟨es, t⟩, fed, ended⟩ := Option.map_eq_some_iff.mp h
  simp only [Prod.mk.injEq] at ended
  obtain ⟨control, pause, stop⟩ := ended
  have run := run_of_feed fed
  obtain ⟨bound, -, leaves⟩ := stop_is_obeyed run
  exact ⟨_, t, run, control, pause, bound stop, leaves⟩

/-! ## Pause -/

namespace Tui

/-- The pause flag is set and the stop flag is not. -/
def Held (t : Tui) (_ : TuiInput) : Prop := t.emuPause = true ∧ t.emuStop = false

instance (t : Tui) (i : TuiInput) : Decidable (t.Held i) := by
  unfold Held
  infer_instance

/-- The turn that the thread has already gone into. -/
def turnBegun (t : Tui) : Nat :=
  if t.thread = .executing ∧ t.program.control = .body then 1 else 0

/-- A step under the pause flag. -/
structure Holding (t t' : Tui) (x : TuiInput × TuiEvent) : Prop where
  turns : t'.turnBegun + x.2.isTurn.toNat ≤ t.turnBegun
  state : x.2.isTurn = false → t'.program.machine.state = t.program.machine.state

theorem Holding.idle {t t' : Tui} {i : TuiInput} {e : TuiEvent} (still : e.isTurn = false)
    (thread : t'.thread = t.thread) (control : t'.program.control = t.program.control)
    (state : t'.program.machine.state = t.program.machine.state) : Holding t t' (i, e) := by
  refine ⟨?_, fun _ => state⟩
  rw [turnBegun, turnBegun, thread, control, still]
  exact Nat.le_refl _

theorem runs_holding {t : Tui} {e : Event} {p : Program} (thread : t.thread = .executing)
    (clear : t.emuStop = false)
    (looped : Program.Looped t.program t.emuStop true none e p) :
    Holding t { t with program := p, thread := threadAfter e } (.emulator, .ran e) := by
  cases looped with
  | stops _ set =>
    rw [clear] at set
    cases set
  | resumes _ free =>
    rw [clear] at free
    rcases free with free | free <;> cases free
  | goesOn control =>
    refine ⟨?_, fun _ => rfl⟩
    simp [turnBegun, threadAfter, TuiEvent.isTurn]
  | waits control =>
    refine ⟨?_, fun _ => rfl⟩
    simp [turnBegun, threadAfter, TuiEvent.isTurn, control]
  | turns control turn =>
    have begun : t.turnBegun = 1 := if_pos ⟨thread, control⟩
    rcases turn.control with ⟨⟨vec, rfl⟩, head⟩ | ⟨rfl, head⟩ | ⟨rfl, -⟩
    · refine ⟨?_, nofun⟩
      rw [begun]
      simp [turnBegun, head, TuiEvent.isTurn]
    · refine ⟨?_, nofun⟩
      rw [begun]
      simp [turnBegun, head, TuiEvent.isTurn]
    · refine ⟨?_, nofun⟩
      rw [begun]
      simp [turnBegun, threadAfter, TuiEvent.isTurn]

theorem Moves.holding {t t' : Tui} {i : TuiInput} {e : TuiEvent} (moves : Moves t i e t')
    (held : t.Held i) : Holding t t' (i, e) := by
  cases moves with
  | runs thread taken =>
    have looped := Program.step_looped taken
    rw [held.1] at looped
    exact runs_holding thread held.2 looped
  | starts thread | stores thread | ends thread =>
    refine ⟨?_, fun _ => rfl⟩
    simp [turnBegun, thread, TuiEvent.isTurn, Program.start, Program.publishSnapshot]
  | handles _ edited =>
    obtain ⟨thread, -, -, program⟩ := t.handle_thread _ edited
    exact .idle rfl thread (by rw [program]) (by rw [program])
  | regs _ due =>
    unfold renderRegs
    split <;> exact .idle rfl rfl rfl rfl
  | disasm _ due =>
    unfold renderDisasm
    split <;> exact .idle rfl rfl rfl rfl
  | enters | serial | interrupts | leaves | sendsByte | endsLine | stops | unpauses | exits =>
    exact .idle rfl rfl rfl rfl

end Tui

/-- While the pause flag stays set, and the stop flag clear, the thread finishes the turn it
has begun, if any, and takes no other. Without that turn the CPU stands still, whatever the
UI does: its views, its tabs and the lines it sends. -/
theorem pause_is_obeyed {t t' : Tui} {trace : List (TuiInput × TuiEvent)}
    (run : Run Tui.step Tui.Held t trace t') :
    turnsIn trace ≤ t.turnBegun ∧
    (turnsIn trace = 0 → t'.program.machine.state = t.program.machine.state) := by
  suffices t'.turnBegun + turnsIn trace ≤ t.turnBegun ∧
      (turnsIn trace = 0 → t'.program.machine.state = t.program.machine.state) by
    refine ⟨?_, this.2⟩
    omega
  induction run with
  | nil => exact ⟨Nat.le_refl _, fun _ => rfl⟩
  | @cons t u t' i e trace held taken _ ih =>
    have holding := (Tui.step_moves taken).holding held
    have turns := holding.turns
    rw [turnsIn_cons]
    refine ⟨by omega, ?_⟩
    intro none
    have later : turnsIn trace = 0 := by omega
    have still : e.isTurn = false := by
      cases isTurn : e.isTurn with
      | false => rfl
      | true => simp [isTurn] at none
    rw [ih.2 later, holding.state still]

theorem paused_loop_waits : ∃ trace t,
    Run Tui.step Tui.Held { looping with emuPause := true } trace t ∧ t.thread = .executing ∧
    turnsIn trace ≤ 0 ∧ t.program.machine.state = Program.firmware [0xCFFF] := by
  have h : (feed Tui.step Tui.Held { looping with emuPause := true }
      (List.replicate 5 .emulator)).map (fun (_, t) => t.thread) = some .executing := by
    decide +kernel
  obtain ⟨⟨es, t⟩, fed, thread⟩ := Option.map_eq_some_iff.mp h
  have run := run_of_feed fed
  obtain ⟨none, still⟩ := pause_is_obeyed run
  have none : turnsIn ((List.replicate 5 TuiInput.emulator).zip es) ≤ 0 := none
  exact ⟨_, t, run, thread, none, still (Nat.le_zero.mp none)⟩

end AvrEmulator
