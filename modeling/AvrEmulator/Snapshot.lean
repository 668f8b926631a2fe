import AvrEmulator.Fetch

/-! The debugger's view of the CPU. The loop stores a copy of its state at the start,
on a stop and every 160000 cycles, and stands still in other places too. -/

namespace AvrEmulator

open Transition

namespace Program

/-- `getEmulatorSnapshot`, `none` where it returns false. -/
def getEmulatorSnapshot (p : Program) : Option AvrState := p.snapshot

/-- The debugger sees the state as it is. -/
def Current (p : Program) : Prop := p.getEmulatorSnapshot = some p.machine.state

theorem publishSnapshot_current (p : Program) : p.publishSnapshot.Current := rfl

theorem advance_snapshot (p : Program) : p.snapshotIfDue.syncIfDue.snapshot =
    if p.nextSnapshotCycle ≤ p.machine.state.cycleCount then some p.machine.state
    else p.snapshot := by
  unfold syncIfDue snapshotIfDue
  split <;> split <;> rfl

theorem pollUart_frame (p : Program) (stdin : Option Byte) :
    (p.pollUart stdin).snapshot = p.snapshot ∧
      (p.pollUart stdin).nextSnapshotCycle = p.nextSnapshotCycle := by
  unfold pollUart
  split <;> exact ⟨rfl, rfl⟩

end Program

/-- The pause wait goes on waiting when it sees these flags. -/
def Input.pauses : Input → Bool
  | .loop stop pause _ => pause && !stop
  | _ => false

/-- A run that remembers whether a turn was taken since the last publication. -/
structure Watched where
  program : Program
  stale : Bool

namespace Watched

def start (m : Machine) (fcntlOk : Bool) (snapshot : Option AvrState) : Watched :=
  ⟨Program.start m fcntlOk snapshot, false⟩

/-- Every turn makes the copy stale but one that executes past the next due cycle. -/
def staleAfter (w : Watched) (q : Program) : Event → Bool
  | .idle => w.stale
  | .dispatched _ => true
  | .executed => q.machine.state.cycleCount < w.program.nextSnapshotCycle
  | .returned result => !result

def step (w : Watched) (i : Input) : Option (Event × Watched) :=
  (w.program.step i).map fun (e, q) => (e, ⟨q, w.staleAfter q e⟩)

/-- Watching changes no step. -/
theorem run_program {ok : Watched → Input → Prop} {w w' : Watched} {trace : List (Input × Event)}
    (run : Run step ok w trace w') : Run Program.step anything w.program trace w'.program := by
  induction run with
  | nil => exact .nil _
  | cons _ taken _ ih =>
    obtain ⟨⟨e, q⟩, step, result⟩ := Option.map_eq_some_iff.mp taken
    cases result
    exact .cons trivial step ih

/-- The pause wait goes on waiting, and an error is returned, only before a turn makes the
copy stale; and the error is returned with the program counter outside flash. -/
structure Timely (w : Watched) (i : Input) : Prop where
  paused : i.pauses = true → w.program.control = .paused → w.stale = false
  failed : ∀ q, w.program.step i = some (.returned false, q) →
    w.stale = false ∧ avrFlashSize ≤ w.program.machine.state.pc.toNat + 1

/-- The copy is current unless a turn made it stale, and after the return in any case. -/
structure Shown (w : Watched) : Prop where
  fresh : w.stale = false → w.program.Current
  returned : ∀ result, w.program.control = .done result → w.program.Current

theorem start_shown (m : Machine) (fcntlOk : Bool) (snapshot : Option AvrState) :
    (start m fcntlOk snapshot).Shown :=
  ⟨fun _ => rfl, fun _ _ => rfl⟩

/-- A step that publishes nothing and leaves the CPU alone. -/
theorem Shown.idle {w : Watched} (shown : w.Shown) {q : Program}
    (state : q.machine.state = w.program.machine.state)
    (snapshot : q.snapshot = w.program.snapshot)
    (control : ∀ result, q.control = .done result → w.program.control = .done result) :
    (⟨q, w.stale⟩ : Watched).Shown := by
  have carry (current : w.program.Current) : q.Current := by
    rw [Program.Current, Program.getEmulatorSnapshot, snapshot, state]
    exact current
  exact ⟨fun fresh => carry (shown.fresh fresh),
    fun result done => carry (shown.returned result (control result done))⟩

theorem turn_shown {w : Watched} {q : Program} {stdin : Option Byte} {e : Event}
    (shown : w.Shown) (turn : Program.Turn w.program stdin e q)
    (failed : e = .returned false →
      w.stale = false ∧ avrFlashSize ≤ w.program.machine.state.pc.toNat + 1) :
    (⟨q, w.staleAfter q e⟩ : Watched).Shown := by
  obtain ⟨snapshot, due⟩ := w.program.pollUart_frame stdin
  cases turn with
  | dispatched =>
    constructor
    · intro fresh
      cases fresh
    · intro result done
      cases done
  | @executed m _ run =>
    constructor
    · intro fresh
      rw [staleAfter, Program.advance_machine] at fresh
      have past : w.program.nextSnapshotCycle ≤ m.state.cycleCount :=
        BitVec.not_lt.mp (of_decide_eq_false fresh)
      rw [Program.Current, Program.getEmulatorSnapshot, Program.advance_machine,
        Program.advance_snapshot, due, if_pos past]
    · intro result done
      rw [Program.advance_control] at done
      cases done
  | @failed m _ run =>
    obtain ⟨fresh, outside⟩ := failed rfl
    have current := shown.fresh fresh
    have reached := w.program.settled_servicePoint_state stdin
    have same : m.state = w.program.machine.state := by
      rw [← reached] at outside
      rw [run_fetchExecute_outside outside] at run
      cases run
      exact reached
    constructor
    · intro stale
      cases stale
    · intro _ _
      rw [Program.Current, Program.getEmulatorSnapshot, same]
      exact snapshot.trans current

theorem step_shown {w w' : Watched} {i : Input} {e : Event} (shown : w.Shown)
    (timely : w.Timely i) (taken : w.step i = some (e, w')) : w'.Shown := by
  obtain ⟨⟨e, q⟩, step, result⟩ := Option.map_eq_some_iff.mp taken
  cases result
  cases i with
  | injectRx byte =>
    cases step
    exact shown.idle rfl rfl fun _ done => done
  | popTx =>
    cases step
    exact shown.idle rfl rfl fun _ done => done
  | loop stop pause stdin =>
    have failed (h : e = .returned false) := timely.failed q (h ▸ step)
    cases control : w.program.control with
    | body =>
      rw [Program.step_body control] at step
      exact turn_shown shown (Program.turn_cases step) failed
    | done =>
      rw [Program.step, control] at step
      cases step
    | head =>
      rw [Program.step, control] at step
      dsimp only at step
      split at step
      · cases step
        exact ⟨fun _ => w.program.publishSnapshot_current, fun _ _ => rfl⟩
      · cases step
        exact shown.idle rfl rfl fun _ done => by cases done
    | paused =>
      rw [Program.step, control] at step
      dsimp only at step
      split at step
      · cases step
        exact shown
      · cases step
        exact shown.idle rfl rfl fun _ done => by cases done

end Watched

/-- Whenever the loop has returned or waits for the end of a pause, the debugger sees the
CPU state as it is, in every run that stands still only on a fresh copy and fails only with
the program counter outside flash. -/
theorem debugger_view_is_current (m : Machine) (fcntlOk : Bool) (snapshot : Option AvrState)
    {trace : List (Input × Event)} {w : Watched}
    (run : Run Watched.step Watched.Timely (Watched.start m fcntlOk snapshot) trace w) :
    (∀ result, w.program.control = .done result →
      w.program.getEmulatorSnapshot = some w.program.machine.state) ∧
    ∀ i : Input, i.pauses = true → w.program.control = .paused → w.Timely i →
      w.program.getEmulatorSnapshot = some w.program.machine.state := by
  have shown : w.Shown :=
    run.invariant (P := Watched.Shown)
      (fun _ _ _ _ shown timely taken => Watched.step_shown shown timely taken)
      (Watched.start_shown m fcntlOk snapshot)
  exact ⟨shown.returned, fun _ pauses waits timely => shown.fresh (timely.paused pauses waits)⟩

/-- No pause, and an error only on a fresh copy with the program counter outside flash. -/
def Watched.Runs (w : Watched) (i : Input) : Prop :=
  i.pauses = false ∧ ((w.program.step i).map Prod.fst = some (.returned false) →
    w.stale = false ∧ avrFlashSize ≤ w.program.machine.state.pc.toNat + 1)

instance (w : Watched) (i : Input) : Decidable (w.Runs i) := inferInstanceAs (Decidable (_ ∧ _))

theorem Watched.Runs.timely {w : Watched} {i : Input} (runs : w.Runs i) : w.Timely i where
  paused pauses := by
    rw [runs.1] at pauses
    cases pauses
  failed q step := runs.2 (by rw [step]; rfl)

/-- A CPU whose program counter is outside flash. -/
def strayed : AvrState := { AvrState.zero with pc := 0x8000 }

/-- A pause before the first turn shows the reset state, a stop after it the state then, and
so does an error before any instruction. -/
theorem early_pause_is_shown :
    (∃ p, Run Program.step anything (Program.start (.initial .zero) true none)
        [(.loop false true none, .idle)] p ∧ p.control = .paused ∧
      p.step (.loop false true none) = some (.idle, p) ∧
      p.getEmulatorSnapshot = some p.machine.state) ∧
    (∃ trace p, Run Program.step anything (Program.start (.initial .zero) true none) trace p ∧
      p.control = .done true ∧ p.machine.state.pc = 2 ∧
      p.getEmulatorSnapshot = some p.machine.state) ∧
    ∃ trace p, Run Program.step anything (Program.start (.initial strayed) true none) trace p ∧
      p.control = .done false ∧ p.getEmulatorSnapshot = some p.machine.state := by
  have arrives : (Watched.start (.initial .zero) true none).Timely (.loop false true none) :=
    ⟨fun _ _ => rfl, fun _ step => by cases step⟩
  have waits : (⟨{ Program.start (.initial .zero) true none with control := .paused }, false⟩ :
      Watched).Timely (.loop false true none) := ⟨fun _ _ => rfl, fun _ step => by cases step⟩
  have pause : Run Watched.step Watched.Timely (Watched.start (.initial .zero) true none)
      [(.loop false true none, .idle)] _ := .cons arrives rfl (.nil _)
  have stops : (feed Watched.step Watched.Runs (Watched.start (.initial .zero) true none)
      (Program.turns 1 ++ [.loop true false none])).map (fun x =>
        (x.2.program.control, x.2.program.machine.state.pc)) = some (.done true, 2) := by
    decide +kernel
  have fails : (feed Watched.step Watched.Runs (Watched.start (.initial strayed) true none)
      (Program.turns 1)).map (fun x => x.2.program.control) = some (.done false) := by
    decide +kernel
  obtain ⟨⟨es, w⟩, fed, shown⟩ := Option.map_eq_some_iff.mp stops
  obtain ⟨control, pc⟩ := Prod.mk.inj shown
  obtain ⟨⟨es', w'⟩, fed', control'⟩ := Option.map_eq_some_iff.mp fails
  have stop := (run_of_feed fed).mono fun _ _ => Watched.Runs.timely
  have failure := (run_of_feed fed').mono fun _ _ => Watched.Runs.timely
  exact ⟨⟨_, Watched.run_program pause, rfl, rfl,
      (debugger_view_is_current _ _ _ pause).2 (.loop false true none) rfl rfl waits⟩,
    ⟨_, w.program, Watched.run_program stop, control, pc,
      (debugger_view_is_current _ _ _ stop).1 true control⟩,
    _, w'.program, Watched.run_program failure, control',
    (debugger_view_is_current _ _ _ failure).1 false control'⟩

/-- A pause after one NOP shows the state before it, and so does the return from an
unknown opcode. -/
theorem pause_shows_old_state :
    (∃ trace p, Run Program.step anything (Program.start (.initial .zero) true none) trace p ∧
      p.control = .paused ∧ p.step (.loop false true none) = some (.idle, p) ∧
      p.getEmulatorSnapshot ≠ some p.machine.state) ∧
    ∃ trace p, Run Program.step anything
        (Program.start (.initial (Program.firmware [0x0001])) true none) trace p ∧
      p.control = .done false ∧ p.getEmulatorSnapshot ≠ some p.machine.state := by
  have paused : (feed Program.step anything (Program.start (.initial .zero) true none)
      (Program.turns 1 ++ [Program.go])).map (fun x => (x.2.control,
        decide (x.2.snapshot.map AvrState.pc = some x.2.machine.state.pc))) =
      some (.paused, false) := by decide +kernel
  have failed : (feed Program.step anything
      (Program.start (.initial (Program.firmware [0x0001])) true none)
      (Program.turns 1)).map (fun x => (x.2.control,
        decide (x.2.snapshot.map AvrState.pc = some x.2.machine.state.pc))) =
      some (.done false, false) := by decide +kernel
  have differs {p : Program} (pc : decide (p.snapshot.map AvrState.pc =
      some p.machine.state.pc) = false) : p.getEmulatorSnapshot ≠ some p.machine.state := by
    intro same
    rw [Program.getEmulatorSnapshot] at same
    rw [same] at pc
    exact of_decide_eq_false pc rfl
  obtain ⟨⟨es, p⟩, fed, shown⟩ := Option.map_eq_some_iff.mp paused
  obtain ⟨⟨es', p'⟩, fed', shown'⟩ := Option.map_eq_some_iff.mp failed
  obtain ⟨control, old⟩ := Prod.mk.inj shown
  obtain ⟨control', old'⟩ := Prod.mk.inj shown'
  refine ⟨⟨_, p, run_of_feed fed, control, ?_, differs old⟩,
    _, p', run_of_feed fed', control', differs old'⟩
  rw [Program.step, control]
  rfl

end AvrEmulator
