import AvrEmulator.Library.Transition
import AvrEmulator.Program
import AvrEmulator.Stores
import AvrEmulator.TimerCycles

/-! Timer0 interrupts are held twice: as flags in the timer, where firmware can
take them back, and as latched vectors in the interrupt controller, where it
cannot. -/

namespace AvrEmulator

open Checked Transition

namespace Timer0

instance {P : Source → Prop} [DecidablePred P] : Decidable (∀ src, P src) :=
  decidable_of_iff (P .overflow ∧ P .compA ∧ P .compB)
    ⟨fun ⟨o, a, b⟩ src => by cases src <;> assumption, fun h => ⟨h _, h _, h _⟩⟩

theorem isPending_iff (t : Timer0) (src : Source) : t.isPending src = true ↔
    t.timsk0.getLsbD src.bit = true ∧ t.tifr0.getLsbD src.bit = true := by
  rw [isPending, Bool.and_eq_true]
  simp only [enabled, flagged, decide_eq_true_eq]
  rw [Bits.and_one_shl_ne_zero _ src.bit_lt, Bits.and_one_shl_ne_zero _ src.bit_lt]

theorem drain_isPending {div : Word} {mode : Byte} {top : Word} {src : Source}
    (htop : top.toNat < 256) (fuel : Nat) {t : Timer0} (h : t.isPending src = true) :
    (drain div mode top fuel t).isPending src = true := by
  induction fuel generalizing t with
  | zero => exact h
  | succ fuel ih =>
    unfold drain
    split
    · have tick := tickOnce_spec div mode top t htop
      apply ih
      rw [isPending_iff] at h ⊢
      rw [tick.setup.timsk0, tick.tifr0, h.2]
      exact ⟨h.1, rfl⟩
    · exact h

/-- Ticking takes no flag back. -/
theorem timer0Tick_isPending {src : Source} {t : Timer0} (cycles : Word)
    (h : t.isPending src = true) : (t.timer0Tick cycles).isPending src = true := by
  unfold timer0Tick
  dsimp only
  split
  · exact h
  · exact drain_isPending (top_lt _) _ h

theorem ack_isPending {src other : Source} {t : Timer0} (ne : src ≠ other)
    (h : t.isPending src = true) : (t.ack other).isPending src = true := by
  have bits : src.bit ≠ other.bit := by
    cases src <;> cases other <;> first | decide | exact absurd rfl ne
  have clear : (~~~((1 : Byte) <<< other.bit)).getLsbD src.bit = true := by
    rw [BitVec.getLsbD_not, Bits.getLsbD_one_shl]
    simp [src.bit_lt, bits]
  rw [isPending_iff] at h ⊢
  exact ⟨h.1, by rw [ack, BitVec.getLsbD_and, h.2, clear]; rfl⟩

end Timer0

theorem vector_bound (src : Timer0.Source) : src.vector.toNat ≤ 32 := by cases src <;> decide

theorem sameBit_vector (a b : Timer0.Source) :
    Interrupts.sameBit a.vector b.vector = decide (a = b) := by
  cases a <;> cases b <;> decide

/-- Every latched timer vector is still enabled and flagged in the timer. -/
def Latched (m : Machine) : Prop :=
  ∀ src : Timer0.Source, m.interrupts.isPending src.vector = true → m.timer0.isPending src = true

theorem Latched.same {m m' : Machine} (h : Latched m) (same : SameTimer m m') : Latched m' := by
  intro src pending
  rw [same.pending] at pending
  rw [same.timer]
  exact h src pending

/-- The loop raises a timer vector exactly where the timer shows it. -/
theorem raiseIf_latched {m : Machine} (h : Latched m) (src : Timer0.Source) :
    Latched (raiseIf (m.timer0.isPending src) src.vector m) := by
  unfold raiseIf
  split
  next raised =>
    intro other pending
    rw [Interrupts.isPending_raise _ (vector_bound other), sameBit_vector, Bool.or_eq_true,
      decide_eq_true_eq] at pending
    rcases pending with old | rfl
    · exact h other old
    · exact raised
  next => exact h

theorem raiseTimer0_latched {m : Machine} (h : Latched m) : Latched (raiseTimer0 m) :=
  raiseIf_latched (raiseIf_latched (raiseIf_latched h .overflow) .compA) .compB

theorem pollUart_same (p : Program) (stdin : Option Byte) :
    SameTimer p.machine (p.pollUart stdin).machine := by
  have rx (i : Interrupts) (src : Timer0.Source) :
      (i.interruptRaise .USART_RX).isPending src.vector = i.isPending src.vector := by
    rw [Interrupts.isPending_raise _ (vector_bound src)]
    cases src <;> exact Bool.or_false _
  unfold Program.pollUart
  split
  · refine ⟨rfl, ?_⟩
    intro src
    dsimp only [Uart.uartPoll]
    split
    · exact rx _ src
    · rfl
  · exact ⟨rfl, fun _ => rfl⟩

theorem servicePoint_latched {p : Program} (h : Latched p.machine) (stdin : Option Byte) :
    Latched (p.servicePoint stdin) :=
  raiseTimer0_latched (h.same (pollUart_same p stdin))

theorem settled_latched {m : Machine} (h : Latched m) : Latched m.settled := by
  intro src pending
  rw [settled_timer0]
  unfold Machine.settled at pending
  split at pending
  · exact h src pending
  · rw [Interrupts.isPending_drop _ (vector_bound src), Bool.and_eq_true] at pending
    exact h src pending.1

/-- The dispatched vector is pending up to the dispatch and not after it. -/
theorem dispatches_pending {m : Machine} {src : Timer0.Source}
    (h : m.dispatches = some src.vector) :
    m.interrupts.isPending src.vector = true ∧
      m.settled.interrupts.isPending src.vector = false := by
  have candidate := candidate_of_dispatches h
  constructor
  · exact candidate_pending candidate
  · rw [Machine.settled, candidate]
    dsimp only
    rw [Interrupts.isPending_drop _ (vector_bound src), sameBit_vector]
    simp

/-- Acknowledging a vector takes no other source's flag. -/
theorem acknowledge_isPending {vec : InterruptVector} {m : Machine} {src : Timer0.Source}
    (other : src.vector ≠ vec) (h : m.timer0.isPending src = true) :
    (acknowledge vec m).timer0.isPending src = true := by
  have apart (a : Timer0.Source) (ha : vec = a.vector) : src ≠ a := by
    rintro rfl
    exact other ha.symm
  unfold acknowledge
  split
  next hv => exact Timer0.ack_isPending (apart .overflow hv) h
  split
  next hv => exact Timer0.ack_isPending (apart .compA hv) h
  split
  next hv => exact Timer0.ack_isPending (apart .compB hv) h
  next => exact h

/-- The machine an instruction starts on. -/
def Machine.readied (m : Machine) : Machine :=
  { m.setState { m.state with extraCycles := 0 } with fault := false }

namespace Program

/-- What this turn is about to store: a return address, or what its instruction stores. -/
def turnStores (p : Program) (stdin : Option Byte) : List (Word × Byte) :=
  match (p.servicePoint stdin).dispatches with
  | some _ => pushStores p.machine.state.sp (wordBytes p.machine.state.pc)
  | none =>
    match fetch.run (p.servicePoint stdin).settled with
    | some (some f, m) => m.readied.stores f.op f.instruction f.extra
    | _ => []

/-- The stores of this step clear neither the enable bit nor the flag of a timer
source whose vector is latched. -/
def SparesLatched (p : Program) : Input → Prop
  | .loop _ _ stdin => p.control = .body → ∀ src : Timer0.Source,
      (p.servicePoint stdin).settled.interrupts.isPending src.vector = true →
      p.machine.timer0.isPending src = true →
      ((p.turnStores stdin).foldl Timer0.stored p.machine.timer0).isPending src = true
  | _ => True

instance (p : Program) (i : Input) : Decidable (p.SparesLatched i) := by
  cases i <;> unfold SparesLatched <;> infer_instance

end Program

/-- Executing sends the timer through the instruction's stores and then ticks it. -/
theorem execute_timer {f : Fetched} {m m' : Machine} {outcome : Outcome}
    (h : (execute f).run m = some (outcome, m')) :
    ∃ m₁, TimerStores (m.readied.stores f.op f.instruction f.extra) m m₁ ∧
      m'.interrupts = m₁.interrupts ∧
      (m'.timer0 = m₁.timer0 ∨ ∃ cycles, m'.timer0 = m₁.timer0.timer0Tick cycles) := by
  obtain ⟨⟨⟩, m₀, clear, h⟩ := bind_inv h
  obtain ⟨⟨⟩, m₁, cycles, h⟩ := bind_inv h
  obtain ⟨done, m₂, run, h⟩ := bind_inv h
  cases clear
  cases cycles
  obtain ⟨⟨⟩, m₂', run, result⟩ := bind_inv run
  cases result
  have stores := timer_walk.dispatch f.op f.instruction f.extra run
  obtain ⟨pending, m₃, flag, h⟩ := bind_inv h
  cases flag
  refine ⟨m₂, ⟨stores.timer, stores.pending⟩, ?_⟩
  split at h
  · cases h
    exact ⟨rfl, .inl rfl⟩
  · cases h
    exact ⟨rfl, .inr ⟨_, rfl⟩⟩

/-! ## Every step keeps the two copies in line -/

theorem TimerStores.latched {stores : List (Word × Byte)} {m m' : Machine}
    (h : TimerStores stores m m') (old : Latched m)
    (spared : ∀ src : Timer0.Source, m.interrupts.isPending src.vector = true →
      m.timer0.isPending src = true → (stores.foldl Timer0.stored m.timer0).isPending src = true) :
    Latched m' := by
  intro src pending
  rw [h.pending] at pending
  rw [h.timer]
  exact spared src pending (old src pending)

theorem execute_latched {f : Fetched} {m m' : Machine} {outcome : Outcome} (old : Latched m)
    (spared : ∀ src : Timer0.Source, m.interrupts.isPending src.vector = true →
      m.timer0.isPending src = true →
      ((m.readied.stores f.op f.instruction f.extra).foldl Timer0.stored m.timer0).isPending src =
        true)
    (run : (execute f).run m = some (outcome, m')) : Latched m' := by
  obtain ⟨m₁, stores, same, ticked⟩ := execute_timer run
  have latched := stores.latched old spared
  intro src pending
  rw [same] at pending
  rcases ticked with idle | ⟨cycles, tick⟩
  · rw [idle]
    exact latched src pending
  · rw [tick]
    exact Timer0.timer0Tick_isPending cycles (latched src pending)

namespace Program

theorem turn_latched {p q : Program} {stdin : Option Byte} {e : Event} (old : Latched p.machine)
    (spared : ∀ src : Timer0.Source,
      (p.servicePoint stdin).settled.interrupts.isPending src.vector = true →
      p.machine.timer0.isPending src = true →
      ((p.turnStores stdin).foldl Timer0.stored p.machine.timer0).isPending src = true)
    (turn : Turn p stdin e q) : Latched q.machine := by
  have settled := settled_latched (servicePoint_latched old stdin)
  have timer : (p.servicePoint stdin).settled.timer0 = p.machine.timer0 :=
    (settled_timer0 _).trans (p.servicePoint_timer0 stdin)
  rw [← timer] at spared
  have ran {outcome : Outcome} {m : Machine} (hd : (p.servicePoint stdin).dispatches = none)
      (run : fetchExecute.run (p.servicePoint stdin).settled = some (outcome, m)) : Latched m := by
    obtain ⟨found, m₀, fetched, run⟩ := bind_inv run
    have same := sameTimer_frame.rules.fetch _ _ _ fetched
    cases found with
    | none =>
      cases run
      exact settled.same same
    | some f =>
      have stores : p.turnStores stdin = m₀.readied.stores f.op f.instruction f.extra := by
        simp only [turnStores, hd, fetched]
      refine execute_latched (settled.same same) (fun src pending set => ?_) run
      rw [same.pending] at pending
      rw [same.timer] at set ⊢
      exact stores ▸ spared src pending set
  cases turn with
  | dispatched hd =>
    have state := p.settled_servicePoint_state stdin
    have stores : p.turnStores stdin = pushStores (p.servicePoint stdin).settled.state.sp
        (wordBytes (p.servicePoint stdin).settled.state.pc) := by rw [turnStores, hd, state]
    have entered := timer_walk.entered (p.servicePoint stdin).settled ‹InterruptVector›
    have latched := entered.latched settled (stores ▸ spared)
    intro src pending
    rw [acknowledge_interrupts] at pending
    refine acknowledge_isPending ?_ (latched src pending)
    rintro rfl
    rw [entered.pending, (dispatches_pending hd).2] at pending
    cases pending
  | executed hd run =>
    rw [advance_machine]
    exact ran hd run
  | failed hd run => exact ran hd run

theorem step_latched {p q : Program} {i : Input} {e : Event} (old : Latched p.machine)
    (spared : p.SparesLatched i) (taken : p.step i = some (e, q)) : Latched q.machine := by
  rcases step_cases taken with ⟨stop, pause, stdin, rfl, body, turn⟩ | ⟨⟨u, hu⟩, -⟩
  · exact turn_latched old (spared body) (turn_cases turn)
  · rw [hu]
    exact old.same (sameTimer_frame.uart _ u)

theorem start_latched (m : Machine) (fcntlOk : Bool) (snapshot : Option AvrState) :
    Latched (start m fcntlOk snapshot).machine := by
  intro src pending
  change (m.interrupts.interruptSetState.interruptReset).isPending src.vector = true at pending
  rw [Interrupts.isPending_reset] at pending
  cases pending

/-- A step that dispatches is a turn whose service point dispatches. -/
theorem dispatches_of_step {p q : Program} {stop pause : Bool} {stdin : Option Byte}
    {vec : InterruptVector}
    (taken : p.step (.loop stop pause stdin) = some (.dispatched vec, q)) :
    (p.servicePoint stdin).dispatches = some vec := by
  rcases step_cases taken with ⟨stop', pause', stdin', same, -, turn⟩ | ⟨-, idle | returned⟩
  · cases same
    cases turn_cases turn with
    | dispatched hd => exact hd
  · cases idle
  · cases returned

end Program

/-- In a run whose stores spare the latched sources, a timer vector is dispatched
only while its source is enabled and flagged. -/
theorem no_spurious_timer_interrupt (m : Machine) (fcntlOk : Bool) (snapshot : Option AvrState)
    (trace : List (Input × Event)) (p q : Program) (stop pause : Bool) (stdin : Option Byte)
    (src : Timer0.Source)
    (run : Run Program.step Program.SparesLatched (.start m fcntlOk snapshot) trace p)
    (taken : p.step (.loop stop pause stdin) = some (.dispatched src.vector, q)) :
    (p.servicePoint stdin).timer0.enabled src = true ∧
      (p.servicePoint stdin).timer0.flagged src = true := by
  have latched : Latched p.machine :=
    run.invariant (fun _ _ _ _ old spared taken => Program.step_latched old spared taken)
      (Program.start_latched m fcntlOk snapshot)
  have pending := (dispatches_pending (Program.dispatches_of_step taken)).1
  have both := servicePoint_latched latched stdin src pending
  rwa [Timer0.isPending, Bool.and_eq_true] at both

/-- LDI and STS TIMSK0 enable compare match A, LDI and OUT TCCR0B start the timer,
SEI lets its interrupt in. -/
theorem compare_match_is_dispatched_flagged : ∃ trace p q,
    Run Program.step Program.SparesLatched (.start
      (.initial (Program.firmware [0xE002, 0x9300, 0x006E, 0xE011, 0xBD15, 0x9478])) true none)
      trace p ∧
    p.step Program.go = some (.dispatched (Timer0.Source.vector .compA), q) ∧
    (p.servicePoint none).timer0.enabled .compA = true ∧
    (p.servicePoint none).timer0.flagged .compA = true := by
  have h : ((feed Program.step Program.SparesLatched (.start
      (.initial (Program.firmware [0xE002, 0x9300, 0x006E, 0xE011, 0xBD15, 0x9478])) true none)
      (Program.turns 5 ++ [Program.go, Program.go])).bind fun (_, p) =>
        (p.step Program.go).map Prod.fst) =
      some (.dispatched (Timer0.Source.vector .compA)) := by
    decide +kernel
  obtain ⟨⟨es, p⟩, fed, h⟩ := Option.bind_eq_some_iff.mp h
  obtain ⟨⟨e, q⟩, taken, rfl⟩ := Option.map_eq_some_iff.mp h
  have run := run_of_feed fed
  exact ⟨_, p, q, run, taken,
    no_spurious_timer_interrupt _ _ _ _ _ _ _ _ _ .compA run taken⟩

/-- The same program, with OUT TIFR0 clearing the flag before SEI: the handler is
entered all the same. -/
theorem cleared_flag_is_dispatched : ∃ trace p q,
    Run Program.step anything (.start (.initial
      (Program.firmware [0xE002, 0x9300, 0x006E, 0xE011, 0xBD15, 0xBB05, 0x9478])) true none)
      trace p ∧
    p.step Program.go = some (.dispatched (Timer0.Source.vector .compA), q) ∧
    (p.servicePoint none).timer0.flagged .compA = false := by
  have h : ((feed Program.step anything (.start (.initial
      (Program.firmware [0xE002, 0x9300, 0x006E, 0xE011, 0xBD15, 0xBB05, 0x9478])) true none)
      (Program.turns 6 ++ [Program.go, Program.go])).bind fun (_, p) =>
        (p.step Program.go).map fun x => (x.1, (p.servicePoint none).timer0.flagged .compA)) =
      some (.dispatched (Timer0.Source.vector .compA), false) := by
    decide +kernel
  obtain ⟨⟨es, p⟩, fed, h⟩ := Option.bind_eq_some_iff.mp h
  obtain ⟨⟨e, q⟩, taken, h⟩ := Option.map_eq_some_iff.mp h
  simp only [Prod.mk.injEq] at h
  obtain ⟨rfl, clear⟩ := h
  exact ⟨_, p, q, run_of_feed fed, taken, clear⟩

end AvrEmulator
