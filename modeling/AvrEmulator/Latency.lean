import AvrEmulator.Program

/-! When an interrupt is let in. The loop services interrupts before it fetches,
so the instruction that sets I is the last one before the handler. -/

namespace AvrEmulator

open Checked Transition

namespace Machine

/-- The highest-priority pending vector, if its handler is programmed. -/
def due (m : Machine) : Option InterruptVector :=
  if m.interrupts.highestPending = 0 then none
  else (some m.interrupts.highestPending).filter m.programmed

theorem dispatches_due {m : Machine} (bound : m.interrupts.bound = true)
    (enabled : m.state.getFlag .I = true) : m.dispatches = m.due := by
  unfold dispatches due
  rw [candidate, bound, enabled]
  by_cases empty : m.interrupts.highestPending = 0
  · rw [if_pos empty, empty]
    rfl
  · rw [if_neg empty, decide_eq_true empty]
    rfl

theorem enabled_of_dispatches {m : Machine} {vec : InterruptVector}
    (h : m.dispatches = some vec) : m.state.getFlag .I = true := by
  by_contra disabled
  simp [dispatches, candidate, disabled] at h

end Machine

def BoundKept (m m' : Machine) : Prop := m.interrupts.bound = true → m'.interrupts.bound = true

theorem boundKept_frame : EmuFrame BoundKept where
  refl _ h := h
  trans _ _ _ hab hbc h := hbc (hab h)
  cpu _ _ h := h
  uart _ _ h := h
  fault _ _ h := h
  error _ _ h := h

theorem writeDataByte_bound (addr : Word) (value : Byte) :
    Respects BoundKept (writeDataByte addr value) :=
  boundKept_frame.writeDataByte (fun _ _ _ _ _ h => h)
    (fun m io value => m.uart.uartWrite_raises (P := fun i => i.bound = true) io value
      (fun _ h => h) (fun _ h => h))
    addr value

theorem execute_bound (f : Fetched) : Respects BoundKept (execute f) := by
  have h := boundKept_frame
  have instruction : Respects BoundKept (executeInstruction f.op f.instruction f.extra) :=
    h.bind (dispatch_respects h _ _ _ fun _ => writeDataByte_bound) fun _ => h.pure _
  refine h.bind (respects_modify fun _ bound => bound) fun _ => h.bind (h.onCpu _) fun _ =>
    h.bind instruction fun done => ?_
  split
  · exact h.pure _
  apply h.bind (h.bind h.get fun _ => h.pure _)
  intro fault
  split
  · exact h.pure _
  · exact h.bind (respects_modify fun _ bound => bound) fun _ => h.pure _

theorem fetchExecute_bound : Respects BoundKept fetchExecute := by
  have h := boundKept_frame
  apply h.bind h.rules.fetch
  intro found
  cases found with
  | none => exact h.pure _
  | some f => exact execute_bound f

theorem entered_bound (m : Machine) (vec : InterruptVector) : BoundKept m (m.entered vec) := by
  have pushed : BoundKept m (m.pushedWord m.state.pc) :=
    boundKept_frame.rules.pushPc writeDataByte_bound _ _ _ (run_pushPc m)
  exact pushed

theorem raiseIf_bound (raised : Bool) (vec : InterruptVector) (m : Machine) :
    (raiseIf raised vec m).interrupts.bound = m.interrupts.bound := by
  unfold raiseIf
  split <;> rfl

namespace Program

theorem servicePoint_bound (p : Program) (stdin : Option Byte) :
    (p.servicePoint stdin).interrupts.bound = p.machine.interrupts.bound := by
  rw [servicePoint, raiseTimer0, raiseIf_bound, raiseIf_bound, raiseIf_bound]
  unfold pollUart
  split
  · dsimp only [Uart.uartPoll]
    split <;> rfl
  · rfl

theorem settled_bound (m : Machine) : m.settled.interrupts.bound = m.interrupts.bound := by
  unfold Machine.settled
  split <;> rfl

theorem turn_bound {p q : Program} {stdin : Option Byte} {e : Event}
    (bound : p.machine.interrupts.bound = true) (turn : Turn p stdin e q) :
    q.machine.interrupts.bound = true := by
  have settled : (p.servicePoint stdin).settled.interrupts.bound = true := by
    rw [settled_bound, servicePoint_bound, bound]
  cases turn with
  | dispatched hd =>
    change (acknowledge _ _).interrupts.bound = true
    rw [acknowledge_interrupts]
    exact entered_bound _ _ settled
  | executed hd run =>
    rw [advance_machine]
    exact fetchExecute_bound _ _ _ run settled
  | failed hd run => exact fetchExecute_bound _ _ _ run settled

theorem step_bound {p q : Program} {i : Input} {e : Event}
    (bound : p.machine.interrupts.bound = true) (taken : p.step i = some (e, q)) :
    q.machine.interrupts.bound = true := by
  rcases step_cases taken with ⟨stop, pause, stdin, -, -, turn⟩ | ⟨⟨u, hu⟩, -⟩
  · exact turn_bound bound (turn_cases turn)
  · rw [hu]
    exact bound

/-- Steps that report nothing leave the CPU alone. -/
theorem quiet_frame {ok : Program → Input → Prop} {p q : Program} {trace : List (Input × Event)}
    (run : Run step ok p trace q) (quiet : ∀ x ∈ trace, x.2 = .idle) :
    ∃ u, q.machine = { p.machine with uart := u } := by
  induction run with
  | nil => exact ⟨_, rfl⟩
  | cons _ taken _ ih =>
    obtain ⟨idle, rest⟩ := List.forall_mem_cons.mp quiet
    obtain ⟨u, hu⟩ := ih rest
    rcases step_cases taken with ⟨stop, pause, stdin, -, -, turn⟩ | ⟨⟨v, hv⟩, -⟩
    · dsimp only at idle
      rw [idle] at turn
      cases turn_cases turn
    · exact ⟨u, by rw [hu, hv]⟩

/-- A dispatch happens under I and clears it. -/
theorem dispatched_flag {p q : Program} {i : Input} {vec : InterruptVector}
    (taken : p.step i = some (.dispatched vec, q)) :
    p.machine.state.getFlag .I = true ∧ q.machine.state.getFlag .I = false := by
  rcases step_cases taken with ⟨stop, pause, stdin, -, -, turn⟩ | ⟨-, idle | returned⟩
  · cases turn_cases turn with
    | dispatched hd =>
      have enabled := Machine.enabled_of_dispatches hd
      rw [servicePoint_state] at enabled
      refine ⟨enabled, ?_⟩
      change (acknowledge vec _).state.getFlag .I = false
      rw [acknowledge_state]
      exact (AvrState.getFlag_clearFlag _ .I .I).trans (by simp)
  · cases idle
  · cases returned

/-- I goes from clear to set in an instruction, unless that instruction ends the program. -/
theorem flag_set_by {p q : Program} {i : Input} {e : Event} (taken : p.step i = some (e, q))
    (off : ¬ p.machine.state.getFlag .I = true) (on : q.machine.state.getFlag .I = true) :
    e = .executed ∨ q.control = .done false := by
  rcases step_cases taken with ⟨stop, pause, stdin, -, -, turn⟩ | ⟨⟨u, hu⟩, -⟩
  · cases turn_cases turn with
    | dispatched hd => exact absurd (dispatched_flag taken).1 off
    | executed => exact .inl rfl
    | failed => exact .inr rfl
  · rw [hu] at on
    exact absurd on off

end Program

/-! ## The turn after an instruction that leaves I set -/

/-- A turn under I: the interrupt that is due is taken up with `pc` as its return
address, before anything is fetched. With none due, one instruction is executed. -/
inductive Served (s : Machine) (pc : Word) : Event → Machine → Prop
  | handler {vec : InterruptVector} {saved : Machine} (due : s.due = some vec)
      (push : (pushWord pc).run s.settled = some ((), saved)) :
      Served s pc (.dispatched vec) (acknowledge vec (saved.setState
        { saved.state.clearFlag .I with pc := Interrupts.vectorAddr vec }))
  | instruction {m : Machine} (due : s.due = none)
      (run : fetchExecute.run s.settled = some (.executed, m)) : Served s pc .executed m
  | failure {m : Machine} (due : s.due = none)
      (run : fetchExecute.run s.settled = some (.failed, m)) : Served s pc (.returned false) m

theorem turn_served {p q : Program} {stdin : Option Byte} {e : Event}
    (bound : p.machine.interrupts.bound = true) (on : p.machine.state.getFlag .I = true)
    (turn : Program.Turn p stdin e q) :
    Served (p.servicePoint stdin) p.machine.state.pc e q.machine := by
  have due : (p.servicePoint stdin).dispatches = (p.servicePoint stdin).due := by
    apply Machine.dispatches_due
    · rw [Program.servicePoint_bound, bound]
    · rw [Program.servicePoint_state, on]
  cases turn with
  | dispatched hd =>
    have pc : (p.servicePoint stdin).settled.state.pc = p.machine.state.pc := by
      rw [Program.settled_servicePoint_state]
    have push := run_pushWord (p.servicePoint stdin).settled p.machine.state.pc
    have entered := Served.handler (due ▸ hd) push
    rwa [← pc] at entered ⊢
  | executed hd run =>
    rw [Program.advance_machine]
    exact .instruction (due ▸ hd) run
  | failed hd run => exact .failure (due ▸ hd) run

/-- Once an instruction leaves I set, the next turn takes up the interrupt that is
due, with the next instruction as its return address, and executes that
instruction only if none is. A dispatch happens under I only, and between two
dispatches an instruction sets I again. -/
theorem interrupts_are_taken_at_once (m : Machine) (fcntlOk : Bool)
    (snapshot : Option AvrState) :
    (∀ (before idle : List (Input × Event)) (i j : Input) (e : Event) (p q r t : Program),
      Run Program.step anything (.start m fcntlOk snapshot) before p →
      p.step i = some (.executed, q) → q.machine.state.getFlag .I = true →
      Run Program.step anything q idle r → (∀ x ∈ idle, x.2 = .idle) →
      r.step j = some (e, t) →
      e = .idle ∨ e = .returned true ∨ ∃ stop pause stdin, j = .loop stop pause stdin ∧
        (r.servicePoint stdin).state = q.machine.state ∧
        Served (r.servicePoint stdin) q.machine.state.pc e t.machine) ∧
    (∀ (before middle : List (Input × Event)) (i j : Input) (v w : InterruptVector)
      (p q r t : Program),
      Run Program.step anything (.start m fcntlOk snapshot) before p →
      p.step i = some (.dispatched v, q) → Run Program.step anything q middle r →
      r.step j = some (.dispatched w, t) →
      p.machine.state.getFlag .I = true ∧
      ∃ first k last a b, middle = first ++ (k, .executed) :: last ∧
        Run Program.step anything q first a ∧ a.step k = some (.executed, b) ∧
        a.machine.state.getFlag .I = false ∧ b.machine.state.getFlag .I = true) := by
  constructor
  · intro before idle i j e p q r t run executes on waits quiet next
    have bound : q.machine.interrupts.bound = true :=
      Program.step_bound (run.invariant (P := fun p => p.machine.interrupts.bound = true)
        (fun _ _ _ _ bound _ taken => Program.step_bound bound taken) rfl) executes
    obtain ⟨u, hu⟩ := Program.quiet_frame waits quiet
    rcases Program.step_cases next with ⟨stop, pause, stdin, rfl, -, turn⟩ | ⟨-, idle | returned⟩
    · have served := turn_served (by rw [hu]; exact bound) (by rw [hu]; exact on)
        (Program.turn_cases turn)
      have same : (r.servicePoint stdin).state = q.machine.state := by
        rw [Program.servicePoint_state, hu]
      rw [hu] at served
      exact .inr (.inr ⟨stop, pause, stdin, rfl, same, served⟩)
    · exact .inl idle
    · exact .inr (.inl returned)
  · intro before middle i j v w p q r t _ taken between again
    have off := (Program.dispatched_flag taken).2
    have on := (Program.dispatched_flag again).1
    refine ⟨(Program.dispatched_flag taken).1, ?_⟩
    obtain ⟨first, k, e, last, a, b, rfl, reach, sets, clear, set, rest⟩ :=
      between.crossing (P := fun p => p.machine.state.getFlag .I = true) (by simp [off]) on
    rcases Program.flag_set_by sets clear set with rfl | done
    · exact ⟨first, k, last, a, b, rfl, reach, sets, by simpa using clear, set⟩
    · obtain ⟨control, -⟩ := Program.done_is_final rest done
      cases (Program.step_done control again).2

/-- Timer0 is set up to overflow three instructions after SEI, in the middle of the
sequence that moves the stack pointer: IN SREG, CLI, OUT SPH, OUT SREG, OUT SPL. -/
def stackPointerUpdate : List Word :=
  [0xE001, 0x9300, 0x006E, 0xEF1B, 0xBD16, 0xE0D8, 0xEFC0, 0xBD05, 0x9478,
    0xB60F, 0x94F8, 0xBFDE, 0xBE0F, 0xBFCD]

/-- OUT SREG sets I, and the overflow handler is entered before OUT SPL. -/
theorem overflow_splits_stack_pointer_update : ∃ before p q r t,
    Run Program.step anything (.start (.initial (Program.firmware stackPointerUpdate)) true none)
      before p ∧
    p.step Program.go = some (.executed, q) ∧
    p.machine.state.getFlag .I = false ∧ q.machine.state.getFlag .I = true ∧
    q.machine.flashWord q.machine.state.pc.toNat = 0xBFCD ∧
    Run Program.step anything q [(Program.go, .idle), (Program.go, .idle)] r ∧
    r.step Program.go = some (.dispatched .TIMER0_OVF, t) := by
  have h : ((feed Program.step anything
      (.start (.initial (Program.firmware stackPointerUpdate)) true none)
      (Program.turns 11 ++ [Program.go, Program.go])).bind fun (_, p) =>
        (p.step Program.go).bind fun (e, q) =>
          (feed Program.step anything q [Program.go, Program.go]).bind fun (es, r) =>
            (r.step Program.go).map fun (f, _) =>
              (e, es, f, p.machine.state.getFlag .I, q.machine.state.getFlag .I,
                q.machine.flashWord q.machine.state.pc.toNat)) =
      some (.executed, [.idle, .idle], .dispatched .TIMER0_OVF, false, true, 0xBFCD) := by
    decide +kernel
  obtain ⟨⟨_, p⟩, first, h⟩ := Option.bind_eq_some_iff.mp h
  obtain ⟨⟨e, q⟩, sets, h⟩ := Option.bind_eq_some_iff.mp h
  obtain ⟨⟨es, r⟩, waits, h⟩ := Option.bind_eq_some_iff.mp h
  obtain ⟨⟨f, t⟩, next, h⟩ := Option.map_eq_some_iff.mp h
  simp only [Prod.mk.injEq] at h
  obtain ⟨rfl, rfl, rfl, off, on, word⟩ := h
  exact ⟨_, p, q, r, t, run_of_feed first, sets, off, on, word, run_of_feed waits, next⟩

/-- UDRE and TX of the USART are pending at SEI; the first handler is a lone RETI. -/
def twoPending : List Word :=
  [0xE600, 0x9300, 0x00C1, 0x9300, 0x00C6, 0x9478] ++ List.replicate 32 0 ++ [0x9518]

theorem handlers_run_back_to_back :
    (∃ q r t : Program, r.step Program.go = some (.dispatched .USART_TX, t) ∧
      Served (r.servicePoint none) q.machine.state.pc (.dispatched .USART_TX) t.machine) ∧
    ∃ p q : Program, p.step Program.go = some (.dispatched .USART_UDRE, q) ∧
      p.machine.state.getFlag .I = true ∧
      ∃ first k last a b, [.idle, .idle, .executed, .idle, .idle].map (Program.go, ·) =
          first ++ (k, .executed) :: last ∧
        Run Program.step anything q first a ∧ a.step k = some (.executed, b) ∧
        a.machine.state.getFlag .I = false ∧ b.machine.state.getFlag .I = true := by
  constructor
  · have h : ((feed Program.step anything
        (.start (.initial (Program.firmware twoPending)) true none)
        (Program.turns 5 ++ [Program.go, Program.go])).bind fun (_, p) =>
          (p.step Program.go).bind fun (e, q) =>
            (feed Program.step anything q [Program.go, Program.go]).bind fun (es, r) =>
              (r.step Program.go).map fun (f, _) => (e, es, f, q.machine.state.getFlag .I)) =
        some (.executed, [.idle, .idle], .dispatched .USART_TX, true) := by
      decide +kernel
    obtain ⟨⟨_, p⟩, first, h⟩ := Option.bind_eq_some_iff.mp h
    obtain ⟨⟨e, q⟩, sets, h⟩ := Option.bind_eq_some_iff.mp h
    obtain ⟨⟨es, r⟩, waits, h⟩ := Option.bind_eq_some_iff.mp h
    obtain ⟨⟨f, t⟩, next, h⟩ := Option.map_eq_some_iff.mp h
    simp only [Prod.mk.injEq] at h
    obtain ⟨rfl, rfl, rfl, on⟩ := h
    rcases (interrupts_are_taken_at_once _ _ _).1 _ _ _ _ _ _ _ _ _ (run_of_feed first) sets on
      (run_of_feed waits) (by decide) next with idle | returned | ⟨_, _, _, same, -, served⟩
    · cases idle
    · cases returned
    · cases same
      exact ⟨q, r, t, next, served⟩
  · have h : ((feed Program.step anything
        (.start (.initial (Program.firmware twoPending)) true none)
        (Program.turns 4 ++ [Program.go, Program.go])).bind fun (_, p) =>
          (p.step Program.go).bind fun (e, q) =>
            (feed Program.step anything q (List.replicate 5 Program.go)).bind fun (es, r) =>
              (r.step Program.go).map fun (f, _) => (e, es, f)) =
        some (.dispatched .USART_UDRE, [.idle, .idle, .executed, .idle, .idle],
          .dispatched .USART_TX) := by
      decide +kernel
    obtain ⟨⟨_, p⟩, first, h⟩ := Option.bind_eq_some_iff.mp h
    obtain ⟨⟨e, q⟩, enters, h⟩ := Option.bind_eq_some_iff.mp h
    obtain ⟨⟨es, r⟩, between, h⟩ := Option.bind_eq_some_iff.mp h
    obtain ⟨⟨f, t⟩, again, h⟩ := Option.map_eq_some_iff.mp h
    simp only [Prod.mk.injEq] at h
    obtain ⟨rfl, rfl, rfl⟩ := h
    exact ⟨p, q, enters, (interrupts_are_taken_at_once _ _ _).2 _ _ _ _ _ _ _ _ _ _
      (run_of_feed first) enters (run_of_feed between) again⟩

end AvrEmulator
