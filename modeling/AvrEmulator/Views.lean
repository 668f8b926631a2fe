import AvrEmulator.Hosting

/-! What the registers tab shows: one state of the CPU, not much older than the redraw. -/

namespace AvrEmulator

open Transition

namespace Program

/-- The copy is left or made of the state as it then is. -/
theorem step_snapshot {p q : Program} {i : Input} {e : Event} (taken : p.step i = some (e, q)) :
    q.snapshot = p.snapshot ∨ q.snapshot = some q.machine.state := by
  by_cases turning : p.control = .body ∧ ∃ stop pause stdin, i = .loop stop pause stdin
  · obtain ⟨control, stop, pause, stdin, rfl⟩ := turning
    rw [step_body control] at taken
    obtain ⟨polled, -⟩ := p.pollUart_frame stdin
    cases turn_cases taken with
    | dispatched | failed => exact .inl polled
    | executed =>
      rw [advance_snapshot, advance_machine]
      split
      · exact .inr rfl
      · exact .inl polled
  · have outside : p.control ≠ .body ∨ ∀ stop pause stdin, i ≠ .loop stop pause stdin := by
      by_contra both
      simp only [not_or, not_not, not_forall] at both
      exact turning both
    obtain ⟨-, state, -, -, -, snapshot⟩ := step_idle taken outside
    rw [state]
    exact snapshot

end Program

namespace Tui

/-- The CPU was in this state at some point of the run. -/
def Was (ok : Tui → TuiInput → Prop) (first : Tui) (trace : List (TuiInput × TuiEvent))
    (s : AvrState) : Prop :=
  ∃ before later u, trace = before ++ later ∧ Run step ok first before u ∧
    u.program.machine.state = s

section Was

variable {ok : Tui → TuiInput → Prop} {first t : Tui} {trace : List (TuiInput × TuiEvent)}
  {s : AvrState}

theorem Was.now (run : Run step ok first trace t) : Was ok first trace t.program.machine.state :=
  ⟨trace, [], t, (List.append_nil _).symm, run, rfl⟩

theorem Was.snoc (h : Was ok first trace s) (x : TuiInput × TuiEvent) :
    Was ok first (trace ++ [x]) s := by
  obtain ⟨before, later, u, rfl, run, state⟩ := h
  exact ⟨before, later ++ [x], u, List.append_assoc _ _ _, run, state⟩

end Was

/-- The state that a redraw would show. -/
def seen (t : Tui) : AvrState := t.look.displayState

theorem handle_display (t : Tui) (event : UiEvent) (edited : List Byte) :
    (t.handle event edited).displayState = t.displayState ∧
      (t.handle event edited).regs = t.regs ∧
      (t.handle event edited).cachedDisasmLines = t.cachedDisasmLines := by
  unfold handle
  repeat' split
  all_goals exact ⟨rfl, rfl, rfl⟩

theorem renderRegs_display (t : Tui) (due : Bool) :
    (t.renderRegs due).thread = t.thread ∧
      ((t.renderRegs due).displayState = t.displayState ∨
        (t.renderRegs due).displayState = t.seen) := by
  unfold renderRegs
  split
  · exact ⟨rfl, .inr rfl⟩
  · exact ⟨rfl, .inl rfl⟩

theorem renderDisasm_display (t : Tui) (due : Bool) :
    (t.renderDisasm due).thread = t.thread ∧
      ((t.renderDisasm due).displayState = t.displayState ∨
        (t.renderDisasm due).displayState = t.seen) := by
  unfold renderDisasm
  split
  · exact ⟨rfl, .inr rfl⟩
  · exact ⟨rfl, .inl rfl⟩

/-- What can be shown was there. -/
structure Sources (ok : Tui → TuiInput → Prop) (first : Tui)
    (trace : List (TuiInput × TuiEvent)) (t : Tui) : Prop where
  snapshot : ∀ s, t.program.snapshot = some s → Was ok first trace s
  display : Was ok first trace t.displayState

theorem Sources.seen {ok : Tui → TuiInput → Prop} {first t : Tui}
    {trace : List (TuiInput × TuiEvent)} (h : Sources ok first trace t) :
    Was ok first trace t.seen := by
  change Was ok first trace (t.program.snapshot.getD t.displayState)
  cases snapshot : t.program.snapshot with
  | none => exact h.display
  | some s => exact h.snapshot s snapshot

theorem Moves.sources {ok : Tui → TuiInput → Prop} {first t t' : Tui} {i : TuiInput}
    {e : TuiEvent} {trace : List (TuiInput × TuiEvent)} (moves : Moves t i e t')
    (run : Run step ok first (trace ++ [(i, e)]) t') (h : Sources ok first trace t) :
    Sources ok first (trace ++ [(i, e)]) t' := by
  have kept (snapshot : t'.program.snapshot = t.program.snapshot ∨
      t'.program.snapshot = some t'.program.machine.state)
      (display : t'.displayState = t.displayState ∨ t'.displayState = t.seen) :
      Sources ok first (trace ++ [(i, e)]) t' := by
    constructor
    · intro s shown
      rcases snapshot with old | new
      · exact (h.snapshot s (old.symm.trans shown)).snoc _
      · rw [new] at shown
        cases shown
        exact .now run
    · rcases display with old | new
      · exact old ▸ h.display.snoc _
      · exact new ▸ h.seen.snoc _
  cases moves with
  | starts => exact kept (.inr rfl) (.inl rfl)
  | runs _ taken => exact kept (Program.step_snapshot taken) (.inl rfl)
  | handles _ edited =>
    obtain ⟨program, -⟩ := t.handle_frame _ edited
    exact kept (.inl (by rw [program])) (.inl (t.handle_display _ edited).1)
  | regs _ due =>
    obtain ⟨program, -⟩ := t.renderRegs_frame due
    exact kept (.inl (by rw [program])) (t.renderRegs_display due).2
  | disasm _ due =>
    obtain ⟨program, -⟩ := t.renderDisasm_frame due
    exact kept (.inl (by rw [program])) (t.renderDisasm_display due).2
  | stores | ends | enters | serial | interrupts | leaves | sendsByte | endsLine | stops | unpauses
  | exits =>
    exact kept (.inl rfl) (.inl rfl)

theorem run_sources {ok : Tui → TuiInput → Prop} {state : AvrState} {t : Tui}
    {trace : List (TuiInput × TuiEvent)} (run : Run step ok (start state) trace t) :
    Sources ok (start state) trace t := by
  apply run.traced (P := fun trace t => Sources ok (start state) trace t) ?_
    ⟨nofun, .now (.nil _)⟩
  intro before p i e q first sources allowed taken
  exact (step_moves taken).sources (first.snoc allowed taken) sources

/-- The cycle count stays clear of its end. -/
def Early (t : Tui) (_ : TuiInput) : Prop := t.program.machine.state.cycleCount.toNat + 4 < 2 ^ 64

instance (t : Tui) (i : TuiInput) : Decidable (t.Early i) := by
  unfold Early
  infer_instance

/-- Not older than one period of the copies. -/
def Fresh (s : AvrState) (t : Tui) : Prop :=
  s.cycleCount.toNat ≤ t.program.machine.state.cycleCount.toNat ∧
    t.program.machine.state.cycleCount.toNat < s.cycleCount.toNat + 160000

/-- Before the start nothing moved. -/
structure Unmoved (state : AvrState) (t : Tui) : Prop where
  snapshot : t.program.snapshot = none
  cpu : t.program.machine.state = state
  display : t.displayState = state

theorem Unmoved.seen {state : AvrState} {t : Tui} (h : Unmoved state t) : t.seen = state := by
  change t.program.snapshot.getD t.displayState = state
  rw [h.snapshot, h.display]
  rfl

theorem Unmoved.redrawn {state : AvrState} {t t' : Tui} (h : Unmoved state t)
    (program : t'.program = t.program)
    (display : t'.displayState = t.displayState ∨ t'.displayState = t.seen) :
    Unmoved state t' where
  snapshot := by rw [program, h.snapshot]
  cpu := by rw [program, h.cpu]
  display := by
    rcases display with same | seen
    · rw [same, h.display]
    · rw [seen, h.seen]

theorem Moves.unmoved {state : AvrState} {t t' : Tui} {i : TuiInput} {e : TuiEvent}
    (moves : Moves t i e t') (h : t.thread = .starting → Unmoved state t)
    (starting : t'.thread = .starting) : Unmoved state t' := by
  cases moves with
  | starts | stores | ends => cases starting
  | @runs e => cases e <;> cases starting
  | handles _ edited =>
    obtain ⟨thread, -, -, program⟩ := t.handle_thread _ edited
    exact (h (thread.symm.trans starting)).redrawn program (.inl (t.handle_display _ edited).1)
  | regs _ due =>
    obtain ⟨thread, display⟩ := t.renderRegs_display due
    exact (h (thread.symm.trans starting)).redrawn (t.renderRegs_frame due).1 display
  | disasm _ due =>
    obtain ⟨thread, display⟩ := t.renderDisasm_display due
    exact (h (thread.symm.trans starting)).redrawn (t.renderDisasm_frame due).1 display
  | enters | serial | interrupts | leaves | sendsByte | endsLine | stops | unpauses | exits =>
    obtain ⟨snapshot, cpu, display⟩ := h starting
    exact ⟨snapshot, cpu, display⟩

theorem run_unmoved {ok : Tui → TuiInput → Prop} {state : AvrState} {t : Tui}
    {trace : List (TuiInput × TuiEvent)} (run : Run step ok (start state) trace t)
    (starting : t.thread = .starting) : Unmoved state t := by
  apply run.invariant (P := fun t => t.thread = .starting → Unmoved state t) ?_
    (fun _ => ⟨rfl, rfl, rfl⟩) starting
  intro s i e q h _ taken
  exact (step_moves taken).unmoved h

theorem seen_fresh {state : AvrState} {t : Tui} {trace : List (TuiInput × TuiEvent)}
    (run : Run step Early (start state) trace t) : Fresh t.seen t := by
  by_cases starting : t.thread = .starting
  · have unmoved := run_unmoved run starting
    rw [Fresh, unmoved.seen, unmoved.cpu]
    omega
  · have hosted := run_hosted
      (P := fun p => p.machine.state.cycleCount.toNat + 4 < 2 ^ 64) run
    generalize acts trace = acts at hosted
    cases hosted with
    | starting thread => exact absurd thread starting
    | @started p _ _ _ _ run =>
      obtain ⟨w, served, program⟩ :=
        Serviced.exists_run (w := .start p.machine true p.snapshot) run
      obtain ⟨s, shown, fresh⟩ := (Serviced.run_prompt served).snapshot
      have past := fresh.past
      have within := fresh.within
      rw [Serviced.now, program] at past within
      rw [program] at shown
      have seen : t.seen = s := by
        change t.program.snapshot.getD t.displayState = s
        rw [show t.program.snapshot = some s from shown]
        rfl
      rw [Fresh, seen]
      omega

/-! ## What was drawn -/

/-- At `u` a redraw of the tab read the state `s`: one that the CPU had been in, and not long
before. -/
structure Redraw (first : Tui) (trace : List (TuiInput × TuiEvent)) (u : Tui) (s : AvrState) :
    Prop where
  split : ∃ before due later, trace = before ++ (.render due, .idle) :: later ∧
    Run step Early first before u ∧ Was Early first before s
  fresh : Fresh s u

theorem Redraw.snoc {first u : Tui} {trace : List (TuiInput × TuiEvent)} {s : AvrState}
    (h : Redraw first trace u s) (x : TuiInput × TuiEvent) : Redraw first (trace ++ [x]) u s := by
  obtain ⟨before, due, later, rfl, run, was⟩ := h.split
  exact ⟨⟨before, due, later ++ [x], List.append_assoc _ _ _, run, was⟩, h.fresh⟩

theorem Redraw.now {state : AvrState} {u : Tui} {trace : List (TuiInput × TuiEvent)}
    (run : Run step Early (start state) trace u) (due : Bool) :
    Redraw (start state) (trace ++ [(.render due, .idle)]) u u.seen :=
  ⟨⟨trace, due, [], rfl, run, (run_sources run).seen⟩, seen_fresh run⟩

/-- Where the contents of the two tabs come from. -/
structure Drawn (first : Tui) (trace : List (TuiInput × TuiEvent)) (t : Tui) : Prop where
  regs : t.regs = .initial ∨
    ∃ u s, Redraw first trace u s ∧ u.tabIndex = 1 ∧ t.regs = u.regs.take s
  lines : t.cachedDisasmLines = [] ∨
    ∃ u s, Redraw first trace u s ∧ 1 < u.tabIndex ∧ t.cachedDisasmLines = s.disasmLines

theorem Drawn.keep {first t t' : Tui} {trace : List (TuiInput × TuiEvent)}
    (h : Drawn first trace t) (x : TuiInput × TuiEvent) (regs : t'.regs = t.regs)
    (lines : t'.cachedDisasmLines = t.cachedDisasmLines) : Drawn first (trace ++ [x]) t' := by
  constructor
  · rw [regs]
    refine h.regs.imp_right ?_
    rintro ⟨u, s, redraw, rest⟩
    exact ⟨u, s, redraw.snoc x, rest⟩
  · rw [lines]
    refine h.lines.imp_right ?_
    rintro ⟨u, s, redraw, rest⟩
    exact ⟨u, s, redraw.snoc x, rest⟩

theorem Moves.drawn {state : AvrState} {t t' : Tui} {i : TuiInput} {e : TuiEvent}
    {trace : List (TuiInput × TuiEvent)} (moves : Moves t i e t')
    (run : Run step Early (start state) trace t) (h : Drawn (start state) trace t) :
    Drawn (start state) (trace ++ [(i, e)]) t' := by
  cases moves with
  | regs _ due tab =>
    have kept : Drawn (start state) (trace ++ [(.render due, .idle)]) t := h.keep _ rfl rfl
    unfold renderRegs
    split
    · exact ⟨.inr ⟨t, _, .now run due, tab, rfl⟩, kept.lines⟩
    · exact kept
  | disasm _ due tab =>
    have kept : Drawn (start state) (trace ++ [(.render due, .idle)]) t := h.keep _ rfl rfl
    unfold renderDisasm
    split
    · exact ⟨kept.regs, .inr ⟨t, _, .now run due, tab, rfl⟩⟩
    · exact kept
  | handles _ edited =>
    obtain ⟨-, regs, lines⟩ := t.handle_display _ edited
    exact h.keep _ regs lines
  | starts | runs | stores | ends | enters | serial | interrupts | leaves | sendsByte | endsLine
  | stops | unpauses | exits => exact h.keep _ rfl rfl

theorem run_drawn {state : AvrState} {t : Tui} {trace : List (TuiInput × TuiEvent)}
    (run : Run step Early (start state) trace t) : Drawn (start state) trace t := by
  apply run.traced (P := fun trace t => Drawn (start state) trace t) ?_ ⟨.inl rfl, .inl rfl⟩
  intro before p i e q first drawn _ taken
  exact (step_moves taken).drawn first drawn

end Tui

/-- What the registers tab shows was put there by one redraw of it, from one state that the
CPU had been in less than 160000 cycles before: never a mixture of two states. A register is
marked when it differs from the view that this redraw replaced. -/
theorem registers_tab_shows_one_state {state : AvrState} {t : Tui}
    {trace : List (TuiInput × TuiEvent)}
    (run : Run Tui.step Tui.Early (Tui.start state) trace t) (shown : t.regs.snapEver = true) :
    ∃ u s, Tui.Redraw (Tui.start state) trace u s ∧ u.tabIndex = 1 ∧
      t.regs.regSnapshot = s.r ∧ t.regs.snapPc = s.pc ∧ t.regs.snapSp = s.sp ∧
      t.regs.snapSreg = s.sreg ∧ t.regs.snapCycles = s.cycleCount ∧
      ∀ i, t.regs.regChanged i = true ↔ u.regs.snapEver = true ∧ s.r i ≠ u.regs.regSnapshot i := by
  rcases (Tui.run_drawn run).regs with none | ⟨u, s, redraw, tab, taken⟩
  · rw [none] at shown
    cases shown
  · rw [taken]
    refine ⟨u, s, redraw, tab, rfl, rfl, rfl, rfl, rfl, ?_⟩
    intro i
    change (u.regs.snapEver && decide (s.r i ≠ u.regs.regSnapshot i)) = true ↔ _
    rw [Bool.and_eq_true, decide_eq_true_iff]

/-- The registers before the two instructions of the greeting and after them. -/
def looks : List TuiInput :=
  .key .Tab [] :: .render true :: List.replicate 7 .emulator ++
    [.key .Escape [], .emulator, .render true]

theorem greeting_marks_a_register : ∃ trace, ∃ t u : Tui, ∃ s,
    Tui.Redraw greeting trace u s ∧ t.regs.snapPc = s.pc ∧ s.pc = 6 ∧
    t.regs.regChanged 16 = true ∧ s.r 16 ≠ u.regs.regSnapshot 16 := by
  have h : (feed Tui.step Tui.Early greeting looks).map (fun (_, t) =>
      (t.regs.snapEver, t.regs.snapPc, t.regs.regChanged 16)) = some (true, 6, true) := by
    decide +kernel
  obtain ⟨⟨es, t⟩, fed, ended⟩ := Option.map_eq_some_iff.mp h
  simp only [Prod.mk.injEq] at ended
  obtain ⟨shown, pc, marked⟩ := ended
  obtain ⟨u, s, redraw, -, -, same, -, -, -, marks⟩ :=
    registers_tab_shows_one_state (run_of_feed fed) shown
  exact ⟨_, t, u, s, redraw, same, same.symm.trans pc, marked, ((marks 16).mp marked).2⟩

end AvrEmulator
