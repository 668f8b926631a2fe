import AvrEmulator.Tui

/-! How a session ends: what the status line and the exit code say of the result of
`executeProgram`. -/

namespace AvrEmulator

open Transition

/-- The result so far of `executeProgram`. -/
def resultAfter (result : Option Bool) : TuiEvent → Option Bool
  | .ran (.returned ok) => some ok
  | _ => result

def resultOf (trace : List (TuiInput × TuiEvent)) : Option Bool :=
  trace.foldl (fun result x => resultAfter result x.2) none

theorem resultOf_snoc (trace : List (TuiInput × TuiEvent)) (x : TuiInput × TuiEvent) :
    resultOf (trace ++ [x]) = resultAfter (resultOf trace) x.2 := by
  rw [resultOf, List.foldl_append]
  rfl

namespace Tui

/-- While the interface is up an emulator turn that pushes a return address has room. -/
def Roomy (t : Tui) : TuiInput → Prop
  | .emulator => t.thread = .executing →
      t.program.StackReady (.loop t.emuStop t.emuPause none)
  | _ => True

/-- The two flags of the thread's end, for a result. -/
def Flagged (t : Tui) (result : Option Bool) : Prop :=
  match t.thread with
  | .starting => result = none ∧ t.emuError = false ∧ t.emuDone = false
  | .executing => result = none ∧ t.emuError = false ∧ t.emuDone = false ∧
      ∀ ok, t.program.control ≠ .done ok
  | .returned ok => result = some ok ∧ t.emuError = false ∧ t.emuDone = false
  | .stored => result = some (!t.emuError) ∧ t.emuDone = false
  | .ended => result = some (!t.emuError) ∧ t.emuDone = true

theorem Flagged.same {t t' : Tui} {result : Option Bool} (h : t.Flagged result)
    (thread : t'.thread = t.thread) (error : t'.emuError = t.emuError)
    (done : t'.emuDone = t.emuDone) (control : t'.program.control = t.program.control) :
    t'.Flagged result := by
  unfold Flagged
  rw [thread, error, done, control]
  exact h

end Tui

namespace Program

/-- What a step of the loop does. -/
inductive Looped (p : Program) (stop pause : Bool) (stdin : Option Byte) : Event → Program → Prop
  | stops (control : p.control = .head) (set : stop = true) :
      Looped p stop pause stdin (.returned true) { p.publishSnapshot with control := .done true }
  | goesOn (control : p.control = .head) (clear : stop = false) :
      Looped p stop pause stdin .idle { p with control := .paused }
  | waits (control : p.control = .paused) (held : pause = true) (clear : stop = false) :
      Looped p stop pause stdin .idle p
  | resumes (control : p.control = .paused) (free : pause = false ∨ stop = true) :
      Looped p stop pause stdin .idle { p with control := .body }
  | turns {e : Event} {q : Program} (control : p.control = .body) (turn : Turn p stdin e q) :
      Looped p stop pause stdin e q

theorem step_looped {p q : Program} {stop pause : Bool} {stdin : Option Byte} {e : Event}
    (taken : p.step (.loop stop pause stdin) = some (e, q)) : Looped p stop pause stdin e q := by
  cases control : p.control with
  | body =>
    rw [step_body control] at taken
    exact .turns control (turn_cases taken)
  | done ok =>
    rw [step, control] at taken
    cases taken
  | head =>
    rw [step, control] at taken
    cases stop <;> cases taken
    · exact .goesOn control rfl
    · exact .stops control rfl
  | paused =>
    rw [step, control] at taken
    cases pause
    · cases taken
      exact .resumes control (.inl rfl)
    · cases stop <;> cases taken
      · exact .waits control rfl rfl
      · exact .resumes control (.inr rfl)

/-- A turn ends at the head of the loop or with an error. -/
theorem Turn.control {p q : Program} {stdin : Option Byte} {e : Event} (turn : Turn p stdin e q) :
    (∃ vec, e = .dispatched vec) ∧ q.control = .head ∨ e = .executed ∧ q.control = .head ∨
      e = .returned false ∧ q.control = .done false := by
  cases turn with
  | dispatched => exact .inl ⟨⟨_, rfl⟩, rfl⟩
  | executed => exact .inr (.inl ⟨rfl, advance_control _⟩)
  | failed => exact .inr (.inr ⟨rfl, rfl⟩)

/-- A step that does not return leaves the program running. -/
theorem Looped.running {p q : Program} {stop pause : Bool} {stdin : Option Byte} {e : Event}
    (looped : Looped p stop pause stdin e q) :
    (∃ ok, e = .returned ok) ∨ ∀ ok, q.control ≠ .done ok := by
  cases looped with
  | stops => exact .inl ⟨true, rfl⟩
  | goesOn => exact .inr nofun
  | waits control =>
    refine .inr fun ok => ?_
    rw [control]
    exact nofun
  | resumes => exact .inr nofun
  | turns _ turn =>
    rcases turn.control with ⟨-, head⟩ | ⟨-, head⟩ | ⟨returned, -⟩
    · refine .inr fun ok => ?_
      rw [head]
      exact nofun
    · refine .inr fun ok => ?_
      rw [head]
      exact nofun
    · exact .inl ⟨false, returned⟩

end Program

namespace Tui

theorem handle_thread (t : Tui) (event : UiEvent) (edited : List Byte) :
    (t.handle event edited).thread = t.thread ∧
      (t.handle event edited).emuError = t.emuError ∧
      (t.handle event edited).emuDone = t.emuDone ∧
      (t.handle event edited).program = t.program := by
  unfold handle
  repeat' split
  all_goals exact ⟨rfl, rfl, rfl, rfl⟩

theorem Moves.flagged {t t' : Tui} {i : TuiInput} {e : TuiEvent} {result : Option Bool}
    (moves : Moves t i e t') (h : t.Flagged result) : t'.Flagged (resultAfter result e) := by
  cases moves with
  | starts thread =>
    unfold Flagged at h
    rw [thread] at h
    exact ⟨h.1, h.2.1, h.2.2, nofun⟩
  | @runs e p thread taken =>
    unfold Flagged at h
    rw [thread] at h
    obtain ⟨none, error, done, -⟩ := h
    rcases (Program.step_looped taken).running with ⟨ok, rfl⟩ | still
    · exact ⟨rfl, error, done⟩
    · cases e with
      | returned ok => exact ⟨rfl, error, done⟩
      | idle | dispatched | executed => exact ⟨none, error, done, still⟩
  | @stores ok thread =>
    unfold Flagged at h
    rw [thread] at h
    refine ⟨?_, h.2.2⟩
    change result = some (!!ok)
    rw [Bool.not_not]
    exact h.1
  | ends thread =>
    unfold Flagged at h
    rw [thread] at h
    exact ⟨h.1, rfl⟩
  | handles _ edited =>
    obtain ⟨thread, error, done, program⟩ := t.handle_thread _ edited
    exact h.same thread error done (by rw [program])
  | regs _ due =>
    unfold renderRegs
    split <;> exact h.same rfl rfl rfl rfl
  | disasm _ due =>
    unfold renderDisasm
    split <;> exact h.same rfl rfl rfl rfl
  | enters | serial | interrupts | leaves | sendsByte | endsLine | stops | unpauses | exits =>
    exact h.same rfl rfl rfl rfl

theorem run_flagged {ok : Tui → TuiInput → Prop} {state : AvrState} {t : Tui}
    {trace : List (TuiInput × TuiEvent)} (run : Run step ok (start state) trace t) :
    t.Flagged (resultOf trace) := by
  apply run.traced (P := fun trace t => t.Flagged (resultOf trace)) ?_ ⟨rfl, rfl, rfl⟩
  intro before p i e q _ flagged _ taken
  rw [resultOf_snoc]
  exact (step_moves taken).flagged flagged

theorem Flagged.done {t : Tui} {result : Option Bool} (h : t.Flagged result)
    (done : t.emuDone = true) : t.thread = .ended ∧ result = some (!t.emuError) := by
  unfold Flagged at h
  split at h
  next => rw [h.2.2] at done; cases done
  next => rw [h.2.2.1] at done; cases done
  next => rw [h.2.2] at done; cases done
  next => rw [h.2] at done; cases done
  next thread => exact ⟨thread, h.1⟩

/-- The exit is taken when the thread has ended, with the code of its flag. -/
def Exits (t : Tui) : Prop :=
  ∀ code, t.stage = .exited code → t.thread = .ended ∧ code = if t.emuError then 3 else 0

theorem handle_stage (t : Tui) (event : UiEvent) (edited : List Byte) :
    (t.handle event edited).stage = t.stage ∨
      (t.handle event edited).stage = .sending t.cinInput := by
  unfold handle
  repeat' split
  all_goals first | exact .inl rfl | exact .inr rfl

theorem Moves.exits_kept {t t' : Tui} {i : TuiInput} {e : TuiEvent} (moves : Moves t i e t')
    (h : t.Exits) : t'.Exits := by
  intro code exited
  cases moves with
  | starts thread | runs thread | stores thread | ends thread =>
    have ended := (h code exited).1
    rw [thread] at ended
    cases ended
  | handles stage edited =>
    rcases t.handle_stage _ edited with same | sending
    · rw [same, stage] at exited
      cases exited
    · rw [sending] at exited
      cases exited
  | regs stage due =>
    have same : (t.renderRegs due).stage = t.stage := by
      unfold renderRegs
      split <;> rfl
    rw [same, stage] at exited
    cases exited
  | disasm stage due =>
    have same : (t.renderDisasm due).stage = t.stage := by
      unfold renderDisasm
      split <;> rfl
    rw [same, stage] at exited
    cases exited
  | serial stage | interrupts stage =>
    have exited : t.stage = .exited code := exited
    rw [stage] at exited
    cases exited
  | enters | leaves | sendsByte | endsLine | stops | unpauses => cases exited
  | exits _ thread =>
    cases exited
    exact ⟨thread, rfl⟩

theorem run_exits {ok : Tui → TuiInput → Prop} {state : AvrState} {t : Tui}
    {trace : List (TuiInput × TuiEvent)} (run : Run step ok (start state) trace t) : t.Exits := by
  apply run.invariant (P := Exits) ?_ nofun
  intro s i e t exits _ taken
  exact (step_moves taken).exits_kept exits

/-! ## The status line -/

/-- What the status line says of a report. -/
def errorStatus (r : ErrorReport) : String :=
  " " ++ .ofList (r.text.toList.take 255) ++ " — Esc to exit "

/-- The report that the failing turn of a run left. It names the program counter that can
be read off the state before that turn. -/
structure Blames (start : Tui) (trace : List (TuiInput × TuiEvent)) (t : Tui)
    (r : ErrorReport) : Prop where
  last : t.program.machine.error.lastError = some r
  turn : ∃ before later u, trace = before ++ (.emulator, .ran (.returned false)) :: later ∧
    Run step Roomy start before u ∧ r.names = some u.program.machine.reportedPc

theorem Blames.snoc {start t t' : Tui} {trace : List (TuiInput × TuiEvent)} {r : ErrorReport}
    (h : Blames start trace t r) (x : TuiInput × TuiEvent)
    (same : t'.program.machine.error = t.program.machine.error) :
    Blames start (trace ++ [x]) t' r := by
  obtain ⟨before, later, u, rfl, first, names⟩ := h.turn
  refine ⟨?_, before, later ++ [x], u, by simp, first, names⟩
  rw [same]
  exact h.last

/-- Only a turn reports. -/
theorem Moves.error_kept {t t' : Tui} {i : TuiInput} {e : TuiEvent} (moves : Moves t i e t')
    (idle : t.thread ≠ .executing) : t'.program.machine.error = t.program.machine.error := by
  cases moves with
  | runs thread => exact absurd thread idle
  | handles _ edited => rw [(t.handle_thread _ edited).2.2.2]
  | regs _ due =>
    unfold renderRegs
    split <;> rfl
  | disasm _ due =>
    unfold renderDisasm
    split <;> rfl
  | starts | stores | ends | enters | serial | interrupts | leaves | sendsByte | endsLine | stops
  | unpauses | exits => rfl

theorem step_blames {state : AvrState} {before : List (TuiInput × TuiEvent)} {t t' : Tui}
    {i : TuiInput} {e : TuiEvent} (run : Run step Roomy (start state) before t)
    (h : resultOf before = some false → ∃ r, Blames (start state) before t r)
    (roomy : t.Roomy i) (moves : Moves t i e t')
    (failed : resultOf (before ++ [(i, e)]) = some false) :
    ∃ r, Blames (start state) (before ++ [(i, e)]) t' r := by
  have flagged := run_flagged run
  rw [resultOf_snoc] at failed
  by_cases executing : t.thread = .executing
  · unfold Flagged at flagged
    rw [executing] at flagged
    rw [flagged.1] at failed
    cases moves with
    | @runs e p thread taken =>
      cases e with
      | idle | dispatched | executed => cases failed
      | returned ok =>
        have ok : ok = false := Option.some.inj failed
        subst ok
        have diagnosed := (Program.step_diagnosed (roomy executing) taken).1 rfl
        obtain ⟨r, last, names⟩ := diagnosed.lastError
        exact ⟨r, last, before, [], t, rfl, run, names⟩
    | starts | stores | ends | enters | handles | serial | regs | disasm | interrupts | leaves
    | sendsByte | endsLine | stops | unpauses | exits => cases failed
  · have same : resultAfter (resultOf before) e = resultOf before := by
      cases moves with
      | runs thread => exact absurd thread executing
      | starts | stores | ends | enters | handles | serial | regs | disasm | interrupts | leaves
      | sendsByte | endsLine | stops | unpauses | exits => rfl
    rw [same] at failed
    obtain ⟨r, blames⟩ := h failed
    exact ⟨r, blames.snoc _ (moves.error_kept executing)⟩

theorem run_blames {state : AvrState} {t : Tui} {trace : List (TuiInput × TuiEvent)}
    (run : Run step Roomy (start state) trace t) (failed : resultOf trace = some false) :
    ∃ r, Blames (start state) trace t r := by
  revert failed
  apply run.traced
    (P := fun trace t => resultOf trace = some false → ∃ r, Blames (start state) trace t r) ?_ nofun
  intro before p i e q first blames roomy taken
  exact step_blames first blames roomy (step_moves taken)

theorem status_failed {t : Tui} {r : ErrorReport} (done : t.emuDone = true)
    (error : t.emuError = true) (last : t.program.machine.error.lastError = some r) :
    t.status = errorStatus r := by
  rw [status, if_pos done, if_pos error, emuGetLastError, last]
  rfl

end Tui

/-- In every run of a session whose dispatches find room on the stack: once the thread is
done the status is that of its result; the process exits with 0 after a clean stop and
with 3 after an error, and never before `executeProgram` returned; and after an error the
status line shows a report that names the program counter that the state before the failing
turn gives. -/
theorem session_tells_the_result {state : AvrState} {t : Tui}
    {trace : List (TuiInput × TuiEvent)}
    (run : Run Tui.step Tui.Roomy (Tui.start state) trace t) :
    (t.emuDone = true → ∃ ok, resultOf trace = some ok ∧
      t.statusDot = if ok then " STOPPED " else " ERROR ") ∧
    (∀ code, t.stage = .exited code → ∃ ok, resultOf trace = some ok ∧
      code = if ok then 0 else 3) ∧
    (t.emuDone = true → resultOf trace = some false →
      ∃ r, t.status = Tui.errorStatus r ∧ Tui.Blames (Tui.start state) trace t r) := by
  have flagged := Tui.run_flagged run
  refine ⟨?_, ?_, ?_⟩
  · intro done
    obtain ⟨-, result⟩ := flagged.done done
    refine ⟨_, result, ?_⟩
    rw [Tui.statusDot, if_pos done]
    cases t.emuError <;> rfl
  · intro code exited
    obtain ⟨ended, value⟩ := Tui.run_exits run code exited
    unfold Tui.Flagged at flagged
    rw [ended] at flagged
    refine ⟨_, flagged.1, ?_⟩
    rw [value]
    cases t.emuError <;> rfl
  · intro done failed
    obtain ⟨-, result⟩ := flagged.done done
    rw [failed] at result
    have error : t.emuError = true := by simpa using result
    obtain ⟨r, blames⟩ := Tui.run_blames run failed
    exact ⟨r, Tui.status_failed done error blames.last, blames⟩

/-- The first instruction, LDS R0, reads an invalid address. -/
def crashing : Tui := .start (Program.firmware [0x9000, 0xFFFF])

/-- The thread runs to its end, Escape ends the loop, and the thread is joined. -/
def crashes : List TuiInput :=
  List.replicate 6 .emulator ++ .key .Escape [] :: .leave :: List.replicate 3 .proceed

/-- Interrupts are off. -/
def Tui.Masked (t : Tui) (_ : TuiInput) : Prop := t.program.machine.state.getFlag .I = false

instance (t : Tui) (i : TuiInput) : Decidable (t.Masked i) := by
  unfold Tui.Masked
  infer_instance

theorem Tui.Masked.roomy {t : Tui} {i : TuiInput} (masked : t.Masked i) : t.Roomy i := by
  cases i with
  | emulator => exact fun _ => stackReady_of_disabled masked _
  | key | render | interrupt | leave | proceed => trivial

theorem crash_exits_with_three : ∃ trace t, Run Tui.step Tui.Roomy crashing trace t ∧
    t.stage = .exited 3 ∧ t.statusDot = " ERROR " ∧
    ∃ r, t.status = Tui.errorStatus r ∧ Tui.Blames crashing trace t r := by
  have h : (feed Tui.step Tui.Masked crashing crashes).map (fun (es, t) =>
      (t.emuDone, t.stage, resultOf (crashes.zip es))) =
        some (true, .exited 3, some false) := by
    decide +kernel
  obtain ⟨⟨es, t⟩, fed, ended⟩ := Option.map_eq_some_iff.mp h
  simp only [Prod.mk.injEq] at ended
  obtain ⟨done, stage, result⟩ := ended
  have run : Run Tui.step Tui.Roomy crashing (crashes.zip es) t :=
    (run_of_feed fed).mono fun _ _ masked => masked.roomy
  obtain ⟨dot, -, shown⟩ := session_tells_the_result run
  obtain ⟨ok, same, dot⟩ := dot done
  rw [result] at same
  cases same
  exact ⟨_, t, run, stage, dot, shown done result⟩

end AvrEmulator
