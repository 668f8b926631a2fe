import AvrEmulator.Clock
import AvrEmulator.TimerInterrupts

/-! Timer0 against the CPU's clock. The loop ticks the timer by what it charges the CPU, so
over a whole run the counter is a function of the cycle count. -/

namespace AvrEmulator

open Checked Transition

namespace Timer0

/-- `t` is `t₀` after so many CPU cycles, as far as the counter goes. Flags and the
interrupt enables are left out. -/
structure Counting (t₀ : Timer0) (cycles : Nat) (t : Timer0) : Prop where
  tccr0a : t.tccr0a = t₀.tccr0a
  tccr0b : t.tccr0b = t₀.tccr0b
  ocr0a : t.ocr0a = t₀.ocr0a
  acc : t.prescalerAcc.toNat = (t₀.prescalerAcc.toNat + cycles) % t₀.prescalerDivider.toNat
  tcnt0 : t.tcnt0.toNat = (t₀.tcnt0.toNat +
    (t₀.prescalerAcc.toNat + cycles) / t₀.prescalerDivider.toNat) % (t₀.top.toNat + 1)

/-- A running timer between two ticks: the count is not past the top and the accumulator
holds less than one tick. -/
structure Settled (t : Timer0) : Prop where
  running : t.prescalerDivider ≠ 0
  count : t.tcnt0.toNat ≤ t.top.toNat
  acc : t.prescalerAcc.toNat < t.prescalerDivider.toNat

instance (t : Timer0) : Decidable t.Settled :=
  decidable_of_iff (t.prescalerDivider ≠ 0 ∧ t.tcnt0.toNat ≤ t.top.toNat ∧
    t.prescalerAcc.toNat < t.prescalerDivider.toNat)
    ⟨fun ⟨r, c, a⟩ => ⟨r, c, a⟩, fun ⟨r, c, a⟩ => ⟨r, c, a⟩⟩

namespace Counting

variable {t₀ t t' : Timer0} {cycles : Nat}

theorem divider (h : Counting t₀ cycles t) : t.prescalerDivider = t₀.prescalerDivider := by
  simp only [prescalerDivider, h.tccr0b]

theorem wgm (h : Counting t₀ cycles t) : t.wgm = t₀.wgm := by
  simp only [Timer0.wgm, h.tccr0a, h.tccr0b]

theorem top (h : Counting t₀ cycles t) : t.top = t₀.top := by
  simp only [Timer0.top, h.wgm, h.ocr0a]

theorem start (settled : t.Settled) : Counting t 0 t where
  tccr0a := rfl
  tccr0b := rfl
  ocr0a := rfl
  acc := (Nat.mod_eq_of_lt settled.acc).symm
  tcnt0 := by
    rw [Nat.add_zero, Nat.div_eq_of_lt settled.acc, Nat.add_zero]
    exact (Nat.mod_eq_of_lt (Nat.lt_succ_of_le settled.count)).symm

theorem settled (h : Counting t₀ cycles t) (running : t₀.prescalerDivider ≠ 0) : t.Settled where
  running := by rwa [h.divider]
  count := by
    rw [h.top, h.tcnt0]
    exact Nat.le_of_lt_succ (Nat.mod_lt _ (Nat.succ_pos _))
  acc := by
    rw [h.divider, h.acc]
    apply Nat.mod_lt
    bv_omega

/-- What changes neither the counter nor its setup. -/
theorem same (h : Counting t₀ cycles t) (tccr0a : t'.tccr0a = t.tccr0a)
    (tccr0b : t'.tccr0b = t.tccr0b) (ocr0a : t'.ocr0a = t.ocr0a)
    (acc : t'.prescalerAcc = t.prescalerAcc) (tcnt0 : t'.tcnt0 = t.tcnt0) :
    Counting t₀ cycles t' where
  tccr0a := tccr0a.trans h.tccr0a
  tccr0b := tccr0b.trans h.tccr0b
  ocr0a := ocr0a.trans h.ocr0a
  acc := by rw [acc, h.acc]
  tcnt0 := by rw [tcnt0, h.tcnt0]

/-- Two stretches one after the other. -/
theorem trans {later : Nat} (h : Counting t₀ cycles t) (rest : Counting t later t')
    (running : t₀.prescalerDivider ≠ 0) : Counting t₀ (cycles + later) t' := by
  have pos : 0 < t₀.prescalerDivider.toNat := by bv_omega
  have acc := rest.acc
  have tcnt0 := rest.tcnt0
  have whole := Nat.div_add_mod (t₀.prescalerAcc.toNat + cycles) t₀.prescalerDivider.toNat
  rw [h.divider, h.acc] at acc
  rw [h.divider, h.top, h.acc, h.tcnt0, Nat.mod_add_mod] at tcnt0
  -- The ticks of both stretches are those of their sum.
  have total : t₀.prescalerAcc.toNat + (cycles + later) = t₀.prescalerDivider.toNat *
      ((t₀.prescalerAcc.toNat + cycles) / t₀.prescalerDivider.toNat) +
        ((t₀.prescalerAcc.toNat + cycles) % t₀.prescalerDivider.toNat + later) := by
    omega
  constructor
  case tccr0a => exact rest.tccr0a.trans h.tccr0a
  case tccr0b => exact rest.tccr0b.trans h.tccr0b
  case ocr0a => exact rest.ocr0a.trans h.ocr0a
  case acc => rw [acc, total, Nat.mul_add_mod]
  case tcnt0 => rw [tcnt0, total, Nat.mul_add_div pos, Nat.add_assoc]

theorem of_advanced (h : Advanced t₀ cycles t) : Counting t₀ cycles t :=
  ⟨h.ticked.setup.tccr0a, h.ticked.setup.tccr0b, h.ticked.setup.ocr0a, h.acc, h.ticked.tcnt0⟩

end Counting

theorem divider_le (t : Timer0) : t.prescalerDivider.toNat ≤ 1024 := by
  unfold prescalerDivider
  split <;> decide

/-- The loop's ticks are short. -/
theorem counting_tick {t : Timer0} {n : Nat} (settled : t.Settled) (short : n ≤ 4) :
    Counting t n (t.timer0Tick (BitVec.ofNat 16 n)) := by
  have most := t.divider_le
  have cycles : (BitVec.ofNat 16 n).toNat = n := by
    rw [BitVec.toNat_ofNat]
    omega
  have advanced := tick_advanced settled.running (start_advanced settled.count settled.acc)
    (c := BitVec.ofNat 16 n) (by omega)
  rw [cycles, Nat.zero_add] at advanced
  exact Counting.of_advanced advanced

/-- A store to this address reaches the counter, its top or its clock. TCCR0A, TCCR0B,
TCNT0 and OCR0A are at I/O addresses 0x24 to 0x27. -/
def HitsCounter (addr : Word) : Prop :=
  0x20 ≤ addr ∧ 0x24 ≤ timerIo addr ∧ timerIo addr ≤ 0x27

instance (addr : Word) : Decidable (HitsCounter addr) := by unfold HitsCounter; infer_instance

theorem write_elsewhere {t t' : Timer0} {io value : Byte} (miss : ¬ (0x24 ≤ io ∧ io ≤ 0x27))
    (write : t.timer0Write io value = some t') :
    t'.tccr0a = t.tccr0a ∧ t'.tccr0b = t.tccr0b ∧ t'.ocr0a = t.ocr0a ∧
      t'.prescalerAcc = t.prescalerAcc ∧ t'.tcnt0 = t.tcnt0 := by
  unfold timer0Write at write
  split at write
  case h_1 | h_2 | h_3 | h_4 => exact absurd (by decide) miss
  case h_8 => cases write
  all_goals
    cases write
    exact ⟨rfl, rfl, rfl, rfl, rfl⟩

theorem Counting.stored {t₀ t : Timer0} {cycles : Nat} (h : Counting t₀ cycles t)
    {store : Word × Byte} (miss : ¬ HitsCounter store.1) :
    Counting t₀ cycles (t.stored store) := by
  unfold Timer0.stored
  split
  · exact h
  next inside =>
    cases write : t.timer0Write (timerIo store.1) store.2 with
    | none => exact h
    | some t' =>
      have low : 0x20 ≤ store.1 := by
        simp only [not_or] at inside
        bv_omega
      obtain ⟨tccr0a, tccr0b, ocr0a, acc, tcnt0⟩ :=
        write_elsewhere (fun hit => miss ⟨low, hit⟩) write
      exact h.same tccr0a tccr0b ocr0a acc tcnt0

theorem Counting.stores {t₀ t : Timer0} {cycles : Nat} (h : Counting t₀ cycles t)
    {stores : List (Word × Byte)} (miss : ∀ s ∈ stores, ¬ HitsCounter s.1) :
    Counting t₀ cycles (stores.foldl Timer0.stored t) := by
  induction stores generalizing t with
  | nil => exact h
  | cons s stores ih =>
    apply ih (h.stored (miss s List.mem_cons_self))
    intro s' later
    exact miss s' (List.mem_cons_of_mem _ later)

end Timer0

theorem acknowledge_counting {t₀ : Timer0} {cycles : Nat} {m : Machine}
    (h : t₀.Counting cycles m.timer0) (vec : InterruptVector) :
    t₀.Counting cycles (acknowledge vec m).timer0 := by
  unfold acknowledge
  repeat' split
  all_goals first | exact h | exact h.same rfl rfl rfl rfl rfl

namespace Program

/-- This turn stores to none of the registers behind the counter. -/
def SparesCounter (p : Program) : Input → Prop
  | .loop _ _ stdin =>
    p.control = .body → ∀ s ∈ p.turnStores stdin, ¬ Timer0.HitsCounter s.1
  | _ => True

instance (p : Program) : ∀ i, Decidable (p.SparesCounter i)
  | .loop _ _ stdin =>
    have : Decidable (∀ s ∈ p.turnStores stdin, ¬ Timer0.HitsCounter s.1) :=
      List.decidableBAll _ _
    inferInstanceAs (Decidable (p.control = .body → _))
  | .injectRx _ | .popTx => .isTrue trivial

end Program

/-- The stores of an instruction come first, then its cycles, the same for both clocks. -/
theorem fetchExecute_timer {m m' : Machine} (run : fetchExecute.run m = some (.executed, m')) :
    ∃ f m₀ n, fetch.run m = some (some f, m₀) ∧ 1 ≤ n ∧ n ≤ 4 ∧ m.state.ClockAt m'.state n ∧
      m'.timer0 = ((m₀.readied.stores f.op f.instruction f.extra).foldl Timer0.stored
        m.timer0).timer0Tick (BitVec.ofNat 16 n) := by
  obtain ⟨found, m₀, fetched, run⟩ := bind_inv run
  cases found with
  | none => cases run
  | some f =>
    have same := sameTimer_frame.rules.fetch _ _ _ fetched
    have kept := congrArg (fun m => m.state.cycleCount) (fetch_unfetched _ _ _ fetched)
    have member := List.mem_of_find?_eq_some (Machine.nextOpcode_some (fetch_some fetched).1).2
    obtain ⟨n, m₁, costs, done, state, ticked⟩ := execute_clock run
    obtain ⟨least, most⟩ := costs_bounds member costs
    refine ⟨f, m₀, n, fetched, least, most, ?_, ?_⟩
    · rw [AvrState.ClockAt, state]
      exact congrArg (· + BitVec.ofNat 64 n) kept
    · have stores := (timer_walk.dispatch _ _ _ done).timer
      rw [ticked, stores, ← same.timer]
      rfl

/-- A failing instruction has its stores, if any, and no cycles. -/
theorem fetchExecute_failed_timer {m m' : Machine}
    (run : fetchExecute.run m = some (.failed, m')) :
    (m'.timer0 = m.timer0 ∨ ∃ f m₀, fetch.run m = some (some f, m₀) ∧
      m'.timer0 = (m₀.readied.stores f.op f.instruction f.extra).foldl Timer0.stored m.timer0) := by
  obtain ⟨found, m₀, fetched, run⟩ := bind_inv run
  have same := sameTimer_frame.rules.fetch _ _ _ fetched
  cases found with
  | none =>
    cases run
    exact .inl same.timer
  | some f =>
    obtain ⟨m₁, done, ⟨-, -, rfl⟩ | ⟨executed, -⟩⟩ := execute_inv run
    · right
      refine ⟨f, m₀, fetched, ?_⟩
      rw [(timer_walk.dispatch _ _ _ done).timer, ← same.timer]
      rfl
    · cases executed

namespace Program

/-- What a step adds to both clocks. -/
structure Lockstep (p q : Program) (n : Nat) : Prop where
  cpu : p.machine.state.ClockAt q.machine.state n
  timer : p.machine.timer0.Counting n q.machine.timer0

theorem turn_lockstep {p q : Program} {stdin : Option Byte} {e : Event}
    (settled : p.machine.timer0.Settled)
    (spared : ∀ s ∈ p.turnStores stdin, ¬ Timer0.HitsCounter s.1) (turn : Turn p stdin e q) :
    ∃ n, e.executes ≤ n ∧ n ≤ 4 * e.executes ∧ Lockstep p q n := by
  have state := p.settled_servicePoint_state stdin
  have timer : (p.servicePoint stdin).settled.timer0 = p.machine.timer0 :=
    (settled_timer0 _).trans (p.servicePoint_timer0 stdin)
  have fetches {f : Fetched} {m₀ : Machine} (hd : (p.servicePoint stdin).dispatches = none)
      (fetched : fetch.run (p.servicePoint stdin).settled = some (some f, m₀)) :
      p.turnStores stdin = m₀.readied.stores f.op f.instruction f.extra := by
    simp only [turnStores, hd, fetched]
  have start := Timer0.Counting.start settled
  cases turn with
  | @dispatched vec hd =>
    refine ⟨0, Nat.le_refl _, Nat.le_refl _, ?_, ?_⟩
    · rw [AvrState.ClockAt, BitVec.add_zero, acknowledge_state, entered_clock, state]
    · apply acknowledge_counting
      rw [(timer_walk.entered _ vec).timer, timer, state]
      apply start.stores
      have stores : p.turnStores stdin =
          pushStores p.machine.state.sp (wordBytes p.machine.state.pc) := by rw [turnStores, hd]
      rwa [← stores]
  | executed hd run =>
    obtain ⟨f, m₀, n, fetched, least, most, clock, ticked⟩ := fetchExecute_timer run
    rw [state] at clock
    rw [timer, ← fetches hd fetched] at ticked
    refine ⟨n, least, most, ?_, ?_⟩
    · rw [advance_machine]
      exact clock
    · rw [advance_machine]
      have stored := start.stores spared
      have later := Timer0.counting_tick (stored.settled settled.running) most
      have both := stored.trans later settled.running
      rw [Nat.zero_add] at both
      rw [ticked]
      exact both
  | failed hd run =>
    refine ⟨0, Nat.le_refl _, Nat.le_refl _, ?_, ?_⟩
    · rw [AvrState.ClockAt, BitVec.add_zero, ← state]
      exact fetchExecute_failed_clock run
    · rcases fetchExecute_failed_timer run with same | ⟨f, m₀, fetched, stored⟩
      · rw [same, timer]
        exact start
      · rw [timer, ← fetches hd fetched] at stored
        rw [stored]
        exact start.stores spared

theorem step_lockstep {p q : Program} {i : Input} {e : Event}
    (settled : p.machine.timer0.Settled) (spared : p.SparesCounter i)
    (taken : p.step i = some (e, q)) :
    ∃ n, e.executes ≤ n ∧ n ≤ 4 * e.executes ∧ Lockstep p q n := by
  rcases step_cases taken with ⟨stop, pause, stdin, rfl, body, turn⟩ | ⟨⟨u, same⟩, other⟩
  · exact turn_lockstep settled (spared body) (turn_cases turn)
  · have still : e.executes = 0 := by rcases other with rfl | rfl <;> rfl
    refine ⟨0, by omega, by omega, ?_, ?_⟩
    · rw [AvrState.ClockAt, same, BitVec.add_zero]
    · rw [same]
      exact Timer0.Counting.start settled

end Program

/-- Whatever interrupts are dispatched and acknowledged, while no store reaches the counter
or its setup: so many executed instructions take between one and four cycles each, and TCNT0
and the prescaler are where those cycles bring them from the start of the run. -/
theorem timer_follows_the_cycle_count {p q : Program} {trace : List (Input × Event)}
    (settled : p.machine.timer0.Settled)
    (run : Run Program.step Program.SparesCounter p trace q) :
    ∃ elapsed, executions trace ≤ elapsed ∧ elapsed ≤ 4 * executions trace ∧
      q.machine.state.cycleCount = p.machine.state.cycleCount + BitVec.ofNat 64 elapsed ∧
      q.machine.timer0.prescalerAcc.toNat =
        (p.machine.timer0.prescalerAcc.toNat + elapsed) %
          p.machine.timer0.prescalerDivider.toNat ∧
      q.machine.timer0.tcnt0.toNat = (p.machine.timer0.tcnt0.toNat +
        (p.machine.timer0.prescalerAcc.toNat + elapsed) /
          p.machine.timer0.prescalerDivider.toNat) % (p.machine.timer0.top.toNat + 1) := by
  have all : ∃ elapsed, executions trace ≤ elapsed ∧ elapsed ≤ 4 * executions trace ∧
      p.Lockstep q elapsed := by
    induction run with
    | nil s =>
      refine ⟨0, Nat.le_refl _, Nat.le_refl _, ?_, Timer0.Counting.start settled⟩
      rw [AvrState.ClockAt, BitVec.add_zero]
    | @cons p r q i e trace spared taken _ ih =>
      obtain ⟨n, one, four, first⟩ := Program.step_lockstep settled spared taken
      obtain ⟨elapsed, least, most, rest⟩ := ih (first.timer.settled settled.running)
      have count : executions ((i, e) :: trace) = e.executes + executions trace := rfl
      refine ⟨n + elapsed, by omega, by omega, ?_, first.timer.trans rest.timer settled.running⟩
      rw [AvrState.ClockAt, rest.cpu, first.cpu, BitVec.add_assoc, BitVec.ofNat_add]
  obtain ⟨elapsed, least, most, lockstep⟩ := all
  exact ⟨elapsed, least, most, lockstep.cpu, lockstep.timer.acc, lockstep.timer.tcnt0⟩

/-- RJMP to itself, with the timer at an eighth of the clock. -/
def idling : Program :=
  let p := Program.start (.initial (Program.firmware [0xCFFF])) true none
  { p with machine := { p.machine with timer0 := { timer0Reset with tccr0b := 2 } } }

/-- Six turns take twelve cycles, one tick and a half. -/
theorem idling_counts : ∃ trace q, Run Program.step Program.SparesCounter idling trace q ∧
    executions trace = 6 ∧ q.machine.state.cycleCount = 12 ∧
    q.machine.timer0.tcnt0.toNat = 1 ∧ q.machine.timer0.prescalerAcc.toNat = 4 := by
  have shown : ((feed Program.step Program.SparesCounter idling (Program.turns 6)).map fun x =>
      (executions ((Program.turns 6).zip x.1), x.2.machine.state.cycleCount)) = some (6, 12) := by
    decide +kernel
  obtain ⟨⟨es, q⟩, fed, seen⟩ := Option.map_eq_some_iff.mp shown
  obtain ⟨count, cycles⟩ := Prod.mk.inj seen
  have run := run_of_feed fed
  obtain ⟨elapsed, least, most, clock, acc, tcnt0⟩ :=
    timer_follows_the_cycle_count (by decide +kernel) run
  have reset : idling.machine.state.cycleCount = 0 ∧ idling.machine.timer0.tcnt0 = 0 ∧
      idling.machine.timer0.prescalerAcc = 0 ∧
      idling.machine.timer0.prescalerDivider = 8 ∧ idling.machine.timer0.top = 255 := by
    decide +kernel
  obtain ⟨zero, start, empty, eighth, top⟩ := reset
  have twelve : elapsed = 12 := by
    rw [count] at least most
    have spent : (12 : BitVec 64) = 0 + BitVec.ofNat 64 elapsed := by
      rw [← zero, ← clock]
      exact cycles.symm
    bv_omega
  rw [empty, eighth, twelve] at acc
  rw [start, empty, eighth, top, twelve] at tcnt0
  exact ⟨_, q, run, count, cycles, tcnt0, acc⟩

end AvrEmulator
