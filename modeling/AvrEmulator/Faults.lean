import AvrEmulator.Program

/-! Which faults end the program. The flag is looked at after an instruction
only, and cleared before the next one. -/

namespace AvrEmulator

open Checked Transition

/-- Run with the flag clear, the program ends with the flag set. -/
def Signals {α : Type} (x : Emu α) (m : Machine) : Prop :=
  ∃ a m', x.run { m with fault := false } = some (a, m') ∧ m'.fault = true

/-- A fault is signalled in this step: while service pushes a return address, or
while an instruction executes. -/
inductive Program.FaultIn (p : Program) : Input → Prop
  | service {stop pause : Bool} {stdin : Option Byte} (body : p.control = .body)
      (signals : Signals interruptService (p.servicePoint stdin)) :
      FaultIn p (.loop stop pause stdin)
  | instruction {stop pause : Bool} {stdin : Option Byte} {m m' : Machine} {f : Fetched}
      (body : p.control = .body)
      (idle : interruptService.run (p.servicePoint stdin) = some (none, m))
      (fetched : fetch.run m = some (some f, m'))
      (signals : Signals (executeInstruction f.op f.instruction f.extra)
        (m'.setState { m'.state with extraCycles := 0 })) :
      FaultIn p (.loop stop pause stdin)

/-- If this step dispatches an interrupt, there is room for its return address. -/
def Program.StackReady (p : Program) : Input → Prop
  | .loop _ _ stdin => p.control = .body → ∀ vec, (p.servicePoint stdin).dispatches = some vec →
      0x0101 ≤ p.machine.state.sp ∧ p.machine.state.sp ≤ 0x08FF
  | _ => True

/-- Without a dispatch service signals nothing; a dispatch with room for the
return address does not either. -/
theorem service_silent {m : Machine}
    (h : ∀ vec, m.dispatches = some vec → 0x0101 ≤ m.state.sp ∧ m.state.sp ≤ 0x08FF) :
    ¬ Signals interruptService m := by
  rintro ⟨result, m', run, set⟩
  let clear : Machine := { m with fault := false }
  obtain ⟨i, settled⟩ := settled_frame clear
  have same : clear.dispatches = m.dispatches := rfl
  have service := run_interruptService clear
  rw [run, same] at service
  cases hd : m.dispatches with
  | none =>
    rw [hd] at service
    cases service
    rw [settled] at set
    cases set
  | some vec =>
    simp only [hd, run_enterHandler, Option.map_some] at service
    cases service
    have fault : (clear.settled.entered vec).fault =
      (clear.settled.pushedWord clear.settled.state.pc).fault := rfl
    rw [fault, pushedWord_fault, settled] at set
    change (false || !decide (0x0101 ≤ m.state.sp ∧ m.state.sp ≤ 0x08FF)) = true at set
    rw [decide_eq_true (h vec hd)] at set
    cases set

theorem run_execute_signals {f : Fetched} {m : Machine}
    (h : Signals (executeInstruction f.op f.instruction f.extra)
      (m.setState { m.state with extraCycles := 0 })) :
    ∃ m', (execute f).run m = some (.failed, m') := by
  obtain ⟨result, m', run, set⟩ := h
  refine ⟨m', ?_⟩
  have clear : memoryClearFault.run m = some ((), { m with fault := false }) := rfl
  have cycles : (onCpu (setExtraCycles 0)).run { m with fault := false } =
    some ((), { m.setState { m.state with extraCycles := 0 } with fault := false }) := rfl
  have pending : memoryFaultPending.run m' = some (true, m') := by
    rw [← set]
    rfl
  rw [execute, Checked.run_bind_of clear, Checked.run_bind_of cycles, Checked.run_bind_of run]
  cases result with
  | false => rfl
  | true =>
    simp only [Bool.not_true, Bool.false_eq_true, ↓reduceIte]
    rw [Checked.run_bind_of pending]
    rfl

/-- A step that signals a fault is the one that returns `false`. -/
theorem fault_returns_false {p q : Program} {i : Input} {e : Event} (ready : p.StackReady i)
    (fault : p.FaultIn i) (taken : p.step i = some (e, q)) :
    e = .returned false ∧ q.control = .done false := by
  cases fault with
  | service body signals =>
    refine absurd signals (service_silent fun vec hd => ?_)
    rw [p.servicePoint_state]
    exact ready body vec hd
  | @instruction stop pause stdin m m' f body idle fetched signals =>
    rw [Program.step_body body] at taken
    have service := run_interruptService (p.servicePoint stdin)
    rw [idle] at service
    cases hd : (p.servicePoint stdin).dispatches with
    | some vec =>
      simp only [hd, run_enterHandler, Option.map_some] at service
      cases service
    | none =>
      rw [hd] at service
      cases service
      obtain ⟨m'', failed⟩ := run_execute_signals signals
      have run : fetchExecute.run (p.servicePoint stdin).settled = some (.failed, m'') := by
        rw [fetchExecute, Checked.run_bind_of fetched]
        exact failed
      rw [Program.turn_execute hd, run] at taken
      cases taken
      exact ⟨rfl, rfl⟩

theorem unready_signals {m : Machine} {vec : InterruptVector} (hd : m.dispatches = some vec)
    (full : ¬ (0x0101 ≤ m.state.sp ∧ m.state.sp ≤ 0x08FF)) : Signals interruptService m := by
  let clear : Machine := { m with fault := false }
  have same : clear.dispatches = some vec := hd
  have service := run_interruptService clear
  simp only [same, run_enterHandler, Option.map_some] at service
  refine ⟨_, _, service, ?_⟩
  obtain ⟨i, settled⟩ := settled_frame clear
  have fault : (clear.settled.entered vec).fault =
    (clear.settled.pushedWord clear.settled.state.pc).fault := rfl
  rw [fault, pushedWord_fault, settled]
  change (false || !decide (0x0101 ≤ m.state.sp ∧ m.state.sp ≤ 0x08FF)) = true
  rw [decide_eq_false full]
  rfl

/-- Without room the dispatch goes on to the handler all the same. -/
theorem fault_returns_false_iff {p q : Program} {i : Input} {e : Event}
    (taken : p.step i = some (e, q)) : (p.FaultIn i → e = .returned false) ↔ p.StackReady i := by
  refine ⟨fun stops => ?_, fun ready fault => (fault_returns_false ready fault taken).1⟩
  cases i with
  | injectRx => trivial
  | popTx => trivial
  | loop stop pause stdin =>
    intro body vec hd
    by_contra full
    rw [Program.step_body body, Program.turn_dispatch hd] at taken
    cases taken
    have signals : Signals interruptService (p.servicePoint stdin) := by
      apply unready_signals hd
      rwa [p.servicePoint_state]
    cases stops (.service body signals)

/-- In a run whose steps all find room for the return address they push, the
step that signals a fault returns `false`, and nothing executes after it. A step
stops for its fault exactly under that condition. -/
theorem no_fault_is_lost (m : Machine) (fcntlOk : Bool) (snapshot : Option AvrState) :
    (∀ (before later : List (Input × Event)) (i : Input) (e : Event) (p r : Program),
      Run Program.step Program.StackReady (.start m fcntlOk snapshot)
        (before ++ (i, e) :: later) r →
      Run Program.step anything (.start m fcntlOk snapshot) before p → p.FaultIn i →
      e = .returned false ∧ r.control = .done false ∧ ∀ x ∈ later, x.2 = .idle) ∧
    ∀ (p q : Program) (i : Input) (e : Event), p.step i = some (e, q) →
      ((p.FaultIn i → e = .returned false) ↔ p.StackReady i) := by
  refine ⟨?_, fun p q i e taken => fault_returns_false_iff taken⟩
  intro before later i e p r run reached fault
  obtain ⟨p', first, second⟩ := run.split
  obtain rfl := reached.deterministic first
  cases second with
  | cons ready taken rest =>
    obtain ⟨returned, control⟩ := fault_returns_false ready fault taken
    exact ⟨returned, Program.done_is_final rest control⟩

theorem signals_of_run {α : Type} {x : Emu α} {m : Machine}
    (h : ((x.run { m with fault := false }).map fun p => p.2.fault) = some true) : Signals x m := by
  obtain ⟨⟨a, m'⟩, run, set⟩ := Option.map_eq_some_iff.mp h
  exact ⟨a, m', run, set⟩

/-- What the instruction phase of a turn leaves in the flag. -/
def Program.instructionFault (p : Program) : Option (Option InterruptVector × Control × Bool) :=
  (interruptService.run (p.servicePoint none)).bind fun x =>
    (fetch.run x.2).bind fun y => y.1.bind fun f =>
      ((executeInstruction f.op f.instruction f.extra).run
        { y.2.setState { y.2.state with extraCycles := 0 } with fault := false }).map
          fun z => (x.1, p.control, z.2.fault)

theorem faultIn_of_instructionFault {p : Program}
    (h : p.instructionFault = some (none, .body, true)) : p.FaultIn Program.go := by
  obtain ⟨⟨vec, m⟩, idle, h⟩ := Option.bind_eq_some_iff.mp h
  obtain ⟨⟨found, m'⟩, fetched, h⟩ := Option.bind_eq_some_iff.mp h
  obtain ⟨f, rfl, h⟩ := Option.bind_eq_some_iff.mp h
  obtain ⟨⟨a, m''⟩, run, h⟩ := Option.map_eq_some_iff.mp h
  simp only [Prod.mk.injEq] at h
  obtain ⟨rfl, body, set⟩ := h
  exact .instruction body idle fetched ⟨a, m'', run, set⟩

theorem stackReady_of_disabled {p : Program} (h : p.machine.state.getFlag .I = false)
    (i : Input) : p.StackReady i := by
  cases i with
  | injectRx => trivial
  | popTx => trivial
  | loop stop pause stdin =>
    intro _ vec hd
    rw [Program.masked_idle h stdin] at hd
    cases hd

/-- LDS R0 from the invalid address 0xFFFF, as the first instruction. -/
theorem invalid_load_returns_false : ∃ e r,
    Run Program.step Program.StackReady
      (.start (.initial (Program.firmware [0x9000, 0xFFFF])) true none)
      ([(Program.go, .idle), (Program.go, .idle)] ++ (Program.go, e) :: []) r ∧
    e = .returned false ∧ r.control = .done false := by
  have h : ((Program.start (.initial (Program.firmware [0x9000, 0xFFFF])) true none).step
      Program.go).bind (fun (e₁, p₁) => (p₁.step Program.go).bind fun (e₂, p₂) =>
        (p₂.step Program.go).map fun _ => (e₁, e₂, p₁.machine.state.getFlag .I,
          p₂.machine.state.getFlag .I, decide (p₂.instructionFault = some (none, .body, true)))) =
      some (.idle, .idle, false, false, true) := by
    decide +kernel
  obtain ⟨⟨e₁, p₁⟩, first, h⟩ := Option.bind_eq_some_iff.mp h
  obtain ⟨⟨e₂, p₂⟩, second, h⟩ := Option.bind_eq_some_iff.mp h
  obtain ⟨⟨e₃, p₃⟩, third, h⟩ := Option.map_eq_some_iff.mp h
  simp only [Prod.mk.injEq] at h
  obtain ⟨rfl, rfl, off₁, off₂, fault⟩ := h
  have run : Run Program.step Program.StackReady
      (.start (.initial (Program.firmware [0x9000, 0xFFFF])) true none)
      ([(Program.go, .idle), (Program.go, .idle)] ++ (Program.go, e₃) :: []) p₃ :=
    .cons (stackReady_of_disabled rfl _) first <| .cons (stackReady_of_disabled off₁ _) second <|
      .cons (stackReady_of_disabled off₂ _) third <| .nil p₃
  have signals := faultIn_of_instructionFault (of_decide_eq_true fault)
  obtain ⟨returned, control, -⟩ := (no_fault_is_lost _ _ _).1 _ _ _ _ _ _ run
    (.cons trivial first <| .cons trivial second <| .nil p₂) signals
  exact ⟨e₃, p₃, run, returned, control⟩

/-- OUT SPH, R0 leaves SP at 0x00FF. After LDI, STS UCSR0B and SEI the USART
interrupt is dispatched; its faults are forgotten and its handler runs. -/
theorem dispatch_fault_is_lost : ∃ before later p q r,
    Run Program.step anything
      (.start (.initial (Program.firmware [0xBE0E, 0xE200, 0x9300, 0x00C1, 0x9478])) true none)
      before p ∧
    p.FaultIn Program.go ∧ p.step Program.go = some (.dispatched .USART_UDRE, q) ∧
    Run Program.step anything q later r ∧ (Program.go, .executed) ∈ later := by
  have h : ((feed Program.step anything
      (.start (.initial (Program.firmware [0xBE0E, 0xE200, 0x9300, 0x00C1, 0x9478])) true none)
      (Program.turns 4 ++ [Program.go, Program.go])).bind fun (_, p) =>
        (p.step Program.go).bind fun (e, q) =>
          (feed Program.step anything q (Program.turns 1)).map fun (es, _) =>
            ((interruptService.run { p.servicePoint none with fault := false }).map
              fun x => x.2.fault, p.control, e, es)) =
      some (some true, .body, .dispatched .USART_UDRE, [.idle, .idle, .executed]) := by
    decide +kernel
  obtain ⟨⟨es, p⟩, fed, h⟩ := Option.bind_eq_some_iff.mp h
  obtain ⟨⟨e, q⟩, taken, h⟩ := Option.bind_eq_some_iff.mp h
  obtain ⟨⟨es', r⟩, fed', h⟩ := Option.map_eq_some_iff.mp h
  simp only [Prod.mk.injEq] at h
  obtain ⟨fault, body, rfl, rfl⟩ := h
  exact ⟨_, _, p, q, r, run_of_feed fed, .service body (signals_of_run fault), taken,
    run_of_feed fed', by decide⟩

end AvrEmulator
