import AvrEmulator.Library.Commuting
import AvrEmulator.UartLatency

/-! Changes of the UART's buffers that no turn notices. -/

namespace AvrEmulator

open Checked Transition

/-- Reads and stores at the UART do not notice this change of it. -/
structure UartBlind (G : Uart → Uart) : Prop where
  read : ∀ u io, (G u).uartRead io = ((u.uartRead io).1, G (u.uartRead io).2)
  write : ∀ u i io value,
    (G u).uartWrite i io value = (G (u.uartWrite i io value).1, (u.uartWrite i io value).2)

def Machine.onUart (G : Uart → Uart) (m : Machine) : Machine := { m with uart := G m.uart }

def Program.onUart (G : Uart → Uart) (p : Program) : Program :=
  { p with machine := p.machine.onUart G }

namespace UartBlind

variable {G : Uart → Uart}

theorem change {g : Machine → Machine} (same : ∀ m : Machine, g (m.onUart G) = (g m).onUart G) :
    Commutes (Machine.onUart G) (modify g : Emu Unit) := .modify same

theorem onCpu {α : Type} (x : Cpu α) : Commutes (Machine.onUart G) (AvrEmulator.onCpu x) :=
  Commutes.zoom (F := Machine.onUart G) (fun _ => rfl) (fun _ _ => rfl) x

variable (h : UartBlind G)
include h

theorem walk : EmuWalk (fun _ _ => True) fun _ x => Commutes (Machine.onUart G) x where
  cpu := CpuRules.all.walk
  pure := .pure
  bind := .bind
  read same rest := .read (fun m => same _ m rfl rfl) rest
  onCpu _ := onCpu _
  callUartRead io := by
    intro m
    have reads (m : Machine) : (AvrEmulator.callUartRead io).run m =
        some ((m.uart.uartRead io).1, { m with uart := (m.uart.uartRead io).2 }) := rfl
    rw [reads, reads, Machine.onUart, h.read]
    rfl
  faultDataAddr _ _ := change fun _ => rfl
  faultStack _ := change fun _ => rfl
  faultLpm _ := .bind (change fun _ => rfl) fun _ => change fun _ => rfl

theorem callUartWrite (io value : Byte) :
    Commutes (Machine.onUart G) (AvrEmulator.callUartWrite io value) := by
  intro m
  have writes (m : Machine) : (AvrEmulator.callUartWrite io value).run m =
      some ((), { m with
        uart := (m.uart.uartWrite m.interrupts io value).1
        interrupts := (m.uart.uartWrite m.interrupts io value).2 }) := rfl
  rw [writes, writes]
  change some ((), { m with
    uart := ((G m.uart).uartWrite m.interrupts io value).1
    interrupts := ((G m.uart).uartWrite m.interrupts io value).2 }) = _
  rw [h.write]
  rfl

theorem writeDataByte (addr : Word) (value : Byte) :
    Commutes (Machine.onUart G) (AvrEmulator.writeDataByte addr value) := by
  intro m
  rw [AvrEmulator.writeDataByte, run_get_bind, run_get_bind]
  by_cases register : addr < 0x20
  · rw [if_pos register, if_pos register]
    exact onCpu _ m
  rw [if_neg register, if_neg register]
  by_cases spl : addr = 0x5D
  · rw [if_pos spl, if_pos spl]
    exact h.walk.setSp _ m
  rw [if_neg spl, if_neg spl]
  by_cases sph : addr = 0x5E
  · rw [if_pos sph, if_pos sph]
    exact h.walk.setSp _ m
  rw [if_neg sph, if_neg sph]
  by_cases sreg : addr = 0x5F
  · rw [if_pos sreg, if_pos sreg]
    rfl
  rw [if_neg sreg, if_neg sreg]
  dsimp only [Machine.onUart]
  cases m.timer0.timer0Write ((addr - 0x20).setWidth 8) value with
  | some timer0 => rfl
  | none =>
    dsimp only
    split
    · exact h.callUartWrite _ _ m
    split
    · exact h.callUartWrite _ _ m
    split
    · exact h.walk.faultDataAddr _ _ m
    · exact onCpu _ m

omit h in
theorem skipNextInstruction (context : String) :
    Commutes (Machine.onUart G) (AvrEmulator.skipNextInstruction context) := by
  have reported (g : Machine → ErrorState) (same : ∀ m : Machine, g (m.onUart G) = g m) :
      Commutes (Machine.onUart G) (do
        modify fun m => { m with error := g m }
        memorySignalFault : Emu Unit) := by
    apply Commutes.bind
    · apply change
      intro m
      rw [same]
      rfl
    · exact fun _ => change fun _ => rfl
  apply Commutes.read (F := Machine.onUart G) fun _ => rfl
  intro m
  dsimp only
  split
  · exact reported _ fun _ => rfl
  · apply (onCpu _).bind
    intro nextInstr
    split
    · exact reported _ fun _ => rfl
    · exact onCpu _

theorem dispatch (row : Opcode) (instr secondWord : Word) :
    Commutes (Machine.onUart G) (AvrEmulator.dispatch row instr secondWord) := by
  apply dispatch_walk h.walk
  · exact fun _ => h.writeDataByte
  · exact fun _ => skipNextInstruction
  · exact fun _ => trivial
  · exact fun _ => trivial

omit h in
theorem fetchSecond (row : Opcode) (instruction : Word) :
    Commutes (Machine.onUart G) (AvrEmulator.fetchSecond row instruction) := by
  apply Commutes.read (F := Machine.onUart G) fun _ => rfl
  intro m
  dsimp only
  split
  · exact .bind (change fun _ => rfl) fun _ => .pure _
  · exact (onCpu _).bind fun _ => (onCpu _).bind fun _ => .pure _

omit h in
theorem fetch : Commutes (Machine.onUart G) AvrEmulator.fetch := by
  apply Commutes.read (F := Machine.onUart G) fun _ => rfl
  intro m
  dsimp only
  split
  · exact .bind (change fun _ => rfl) fun _ => .pure _
  refine .bind (change fun _ => rfl) fun _ => (onCpu _).bind fun instruction =>
    .bind (change fun _ => rfl) fun _ => (onCpu _).bind fun _ => ?_
  split
  · exact .bind (change fun _ => rfl) fun _ => .pure _
  split
  · exact fetchSecond _ _
  · exact .pure _

theorem execute (f : Fetched) : Commutes (Machine.onUart G) (AvrEmulator.execute f) := by
  refine .bind (change fun _ => rfl) fun _ => (onCpu _).bind fun _ =>
    .bind ((h.dispatch _ _ _).bind fun _ => .pure _) fun done => ?_
  split
  · exact .pure _
  have pending : Commutes (Machine.onUart G) memoryFaultPending :=
    Commutes.read (F := Machine.onUart G) (fun _ => rfl) fun _ => .pure _
  apply pending.bind
  intro fault
  split
  · exact .pure _
  · exact .bind (change fun _ => rfl) fun _ => .pure _

theorem fetchExecute : Commutes (Machine.onUart G) AvrEmulator.fetchExecute := by
  apply fetch.bind
  intro found
  cases found with
  | none => exact .pure _
  | some f => exact h.execute f

theorem interruptService : Commutes (Machine.onUart G) AvrEmulator.interruptService := by
  have drop (vec : InterruptVector) : Commutes (Machine.onUart G) (dropPending vec) :=
    change fun _ => rfl
  have enter (vec : InterruptVector) : Commutes (Machine.onUart G) (enterHandler vec) :=
    (h.walk.pushPc h.writeDataByte).bind fun _ => (onCpu _).bind fun _ => onCpu _
  apply Commutes.read (F := Machine.onUart G) fun _ => rfl
  intro m
  split
  · exact .pure _
  split
  · exact .pure _
  split
  · exact .pure _
  unfold takeUp
  dsimp only
  split
  · exact (drop _).bind fun _ => .pure _
  apply (onCpu _).bind
  intro word
  split
  · exact (drop _).bind fun _ => .pure _
  · exact (drop _).bind fun _ => (enter _).bind fun _ => .pure _

theorem loopBody : Commutes (Machine.onUart G) AvrEmulator.loopBody := by
  have one (raised : Bool) (vec : InterruptVector) (m : Machine) :
      raiseIf raised vec (m.onUart G) = (raiseIf raised vec m).onUart G := by
    cases raised <;> rfl
  have raised : ∀ m : Machine, raiseTimer0 (m.onUart G) = (raiseTimer0 m).onUart G := by
    intro m
    unfold raiseTimer0
    dsimp only
    rw [one, one, one]
    rfl
  have acknowledged (vec : InterruptVector) : ∀ m : Machine,
      acknowledge vec (m.onUart G) = (acknowledge vec m).onUart G := by
    intro m
    unfold acknowledge
    repeat' split
    all_goals rfl
  refine .bind (change raised) fun _ => h.interruptService.bind fun serviced => ?_
  cases serviced with
  | some vec => exact (change (acknowledged vec)).bind fun _ => .pure _
  | none => exact h.fetchExecute

omit h in
theorem advance (p : Program) :
    (p.onUart G).snapshotIfDue.syncIfDue = p.snapshotIfDue.syncIfDue.onUart G := by
  have snapshot : (p.onUart G).snapshotIfDue = p.snapshotIfDue.onUart G := by
    rw [Program.snapshotIfDue, Program.snapshotIfDue, apply_ite (Program.onUart G)]
    exact if_congr Iff.rfl rfl rfl
  rw [snapshot, Program.syncIfDue, Program.syncIfDue, apply_ite (Program.onUart G)]
  exact if_congr Iff.rfl rfl rfl

/-- A turn whose poll does not notice the change either. -/
theorem turn {p : Program} {stdin : Option Byte}
    (poll : (p.onUart G).pollUart stdin = (p.pollUart stdin).onUart G) :
    (p.onUart G).turn stdin = (p.turn stdin).map fun (e, q) => (e, q.onUart G) := by
  rw [Program.turn, Program.turn, poll]
  change ((AvrEmulator.loopBody.run ((p.pollUart stdin).machine.onUart G)).map _) = _
  rw [h.loopBody, Option.map_map, Option.map_map]
  congr 1
  funext x
  obtain ⟨outcome, m⟩ := x
  cases outcome with
  | dispatched | failed => rfl
  | executed =>
    exact congrArg (Prod.mk Event.executed) (advance (G := G)
      { p.pollUart stdin with machine := m, control := .head })

end UartBlind

/-- With other contents of the two buffers. -/
def Uart.mapBuffers (tx rx : List Byte → List Byte) (u : Uart) : Uart :=
  { u with txBuffer := tx u.txBuffer, rxQueue := rx u.rxQueue }

/-- Only a store reaches the transmit buffer, at its end, and nothing the receive queue. -/
theorem mapBuffers_blind {tx : List Byte → List Byte} (rx : List Byte → List Byte)
    (append : ∀ sent byte, tx (sent ++ [byte]) = tx sent ++ [byte]) :
    UartBlind (Uart.mapBuffers tx rx) where
  read u io := by
    have consumed : (u.mapBuffers tx rx).consumeByte =
        (u.consumeByte.1, u.consumeByte.2.mapBuffers tx rx) := by
      obtain ⟨_, ready, _, tuiMode, _, _, hwReady, _, _, _, _, _⟩ := u
      cases tuiMode <;> cases ready <;> cases hwReady <;> rfl
    unfold Uart.uartRead
    split <;> first | exact consumed | rfl
  write u i io value := by
    have control : (u.mapBuffers tx rx).writeControl i value =
        ((u.writeControl i value).1.mapBuffers tx rx, (u.writeControl i value).2) := by
      unfold Uart.writeControl
      dsimp only
      split <;> rfl
    have transmitted : (u.mapBuffers tx rx).transmit i value =
        ((u.transmit i value).1.mapBuffers tx rx, (u.transmit i value).2) := by
      cases tui : u.tuiMode <;> simp [Uart.transmit, Uart.mapBuffers, tui, append]
    unfold Uart.uartWrite
    split <;> first | exact control | exact transmitted | rfl

/-- A poll takes the same byte from both queues, or none. -/
def Uart.Polled (rx : List Byte → List Byte) (u : Uart) : Prop :=
  u.tuiMode = true → u.rxHwReady = false →
    (u.rxQueue = [] ∧ rx [] = []) ∨ ∃ byte rest, u.rxQueue = byte :: rest ∧
      rx (byte :: rest) = byte :: rx rest

theorem latch_mapBuffers (tx : List Byte → List Byte) {rx : List Byte → List Byte} {u : Uart}
    (polled : u.Polled rx) (stdin : Option Byte) : (u.mapBuffers tx rx).latch stdin =
      ((u.latch stdin).1, (u.latch stdin).2.mapBuffers tx rx) := by
  obtain ⟨_, ready, _, tuiMode, _, queue, hwReady, _, _, _, _, _⟩ := u
  cases tuiMode with
  | false => cases ready <;> cases stdin <;> rfl
  | true =>
    cases hwReady with
    | true => rfl
    | false =>
      rcases polled rfl rfl with ⟨empty, same⟩ | ⟨byte, rest, front, same⟩
      · have empty : queue = [] := empty
        subst empty
        simp [Uart.latch, Uart.mapBuffers, same]
      · have front : queue = byte :: rest := front
        subst front
        simp [Uart.latch, Uart.mapBuffers, same]

theorem pollUart_due {p : Program} {stdin : Option Byte}
    (due : p.nextUartPollCycle ≤ p.machine.state.cycleCount) :
    p.pollUart stdin = { p with
      machine := { p.machine with
        uart := (p.machine.uart.uartPoll p.machine.interrupts stdin).1
        interrupts := (p.machine.uart.uartPoll p.machine.interrupts stdin).2 }
      nextUartPollCycle := p.machine.state.cycleCount + 1024 } := if_pos due

theorem pollUart_mapBuffers (tx : List Byte → List Byte) {rx : List Byte → List Byte}
    {p : Program} (polled : p.nextUartPollCycle ≤ p.machine.state.cycleCount →
      p.machine.uart.Polled rx) (stdin : Option Byte) :
    (p.onUart (Uart.mapBuffers tx rx)).pollUart stdin =
      (p.pollUart stdin).onUart (Uart.mapBuffers tx rx) := by
  by_cases due : p.nextUartPollCycle ≤ p.machine.state.cycleCount
  · have same : (p.machine.uart.mapBuffers tx rx).uartPoll p.machine.interrupts stdin =
        ((p.machine.uart.uartPoll p.machine.interrupts stdin).1.mapBuffers tx rx,
          (p.machine.uart.uartPoll p.machine.interrupts stdin).2) := by
      have latched := latch_mapBuffers tx (polled due) stdin
      apply Prod.ext
      · rw [Uart.uartPoll_fst, Uart.uartPoll_fst, latched]
      · unfold Uart.uartPoll
        rw [latched]
        dsimp only [Uart.mapBuffers]
        split <;> rfl
    rw [pollUart_due due, pollUart_due (p := p.onUart (Uart.mapBuffers tx rx)) due]
    dsimp only [Program.onUart, Machine.onUart]
    rw [same]
  · rw [Program.pollUart, Program.pollUart, if_neg due]
    exact if_neg due

/-! ## Bytes that wait -/

namespace Program

/-- As the host injects a byte. -/
def injected (p : Program) (byte : Byte) : Program := p.onUart (Uart.mapBuffers id (· ++ [byte]))

theorem step_injectRx (p : Program) (byte : Byte) :
    p.step (.injectRx byte) = some (.idle, p.injected byte) := rfl

/-- This step polls, and nothing is there. -/
def Hungry (p : Program) (i : Input) : Prop :=
  p.Polls i ∧ p.machine.uart.tuiMode = true ∧ p.machine.uart.uartHasRxPending = false

instance (p : Program) (i : Input) : Decidable (p.Hungry i) := by
  unfold Hungry
  infer_instance

/-- A step that would not take up a byte at once, and injects none. -/
def Calm (p : Program) : Input → Prop
  | .injectRx _ => False
  | i => ¬ p.Hungry i

instance (p : Program) : ∀ i, Decidable (p.Calm i)
  | .loop _ _ _ | .popTx => inferInstanceAs (Decidable (¬ _))
  | .injectRx _ => inferInstanceAs (Decidable False)

theorem polled_of_pending {u : Uart} (byte : Byte)
    (pending : u.tuiMode = true → u.uartHasRxPending = true) : u.Polled (· ++ [byte]) := by
  intro tui clear
  cases queue : u.rxQueue with
  | nil =>
    have none : u.uartHasRxPending = false := by rw [Uart.uartHasRxPending, clear, queue]; rfl
    rw [pending tui] at none
    cases none
  | cons front rest => exact .inr ⟨front, rest, rfl, rfl⟩

/-- Before the step or after it: the same event and the same state. -/
theorem step_injected {p : Program} {i : Input} (calm : p.Calm i) (byte : Byte) :
    (p.injected byte).step i = (p.step i).map fun (e, q) => (e, q.injected byte) := by
  have blind : UartBlind (Uart.mapBuffers id (· ++ [byte])) :=
    mapBuffers_blind _ fun _ _ => rfl
  cases i with
  | injectRx other => exact calm.elim
  | popTx => rfl
  | loop stop pause stdin =>
    have same : (p.injected byte).control = p.control := rfl
    cases control : p.control with
    | body =>
      rw [step_body control, step_body (same.trans control)]
      apply blind.turn
      apply pollUart_mapBuffers
      intro due
      apply polled_of_pending
      intro tui
      by_contra none
      exact calm ⟨⟨control, due⟩, tui, Bool.eq_false_iff.mpr none⟩
    | done ok =>
      rw [step, step, same, control]
      rfl
    | head =>
      rw [step, step, same, control]
      cases stop <;> rfl
    | paused =>
      rw [step, step, same, control]
      cases stop <;> cases pause <;> rfl

theorem latch_last {u : Uart} {byte : Byte} (tui : u.tuiMode = true) (clear : u.rxHwReady = false)
    (queue : u.rxQueue = [byte]) (stdin : Option Byte) : (u.latch stdin).2.rxQueue = [] := by
  unfold Uart.latch
  rw [if_pos tui, clear, queue]

/-- A poll that finds nothing else takes the byte up. -/
theorem hungry_notices {p q r : Program} {i : Input} {e f : Event} {byte : Byte}
    (hungry : p.Hungry i) (first : (p.injected byte).step i = some (e, q))
    (second : p.step i = some (f, r)) : q ≠ r.injected byte := by
  obtain ⟨polls, tui, none⟩ := hungry
  cases i with
  | injectRx | popTx => exact polls.elim
  | loop stop pause stdin =>
    obtain ⟨control, due⟩ := polls
    rw [step_body control] at second
    rw [step_body (p := p.injected byte) control] at first
    rw [Uart.uartHasRxPending, Bool.or_eq_false_iff, Bool.not_eq_false', List.isEmpty_iff] at none
    obtain ⟨clear, empty⟩ := none
    have kept : q.machine.uart.rxQueue = [] := by
      have queue : (p.injected byte).machine.uart.rxQueue = [byte] :=
        congrArg (· ++ [byte]) empty
      rw [(ReceiverKept.frame.turn first).rxQueue, pollUart_due (p := p.injected byte) due]
      dsimp only
      rw [Uart.uartPoll_fst]
      exact latch_last (u := (p.injected byte).machine.uart) tui clear queue stdin
    intro same
    rw [same] at kept
    exact List.append_ne_nil_of_right_ne_nil _ (by simp) kept

end Program

/-- A byte typed before some steps or after them makes no difference, as long as none of
them polls an empty receiver. A step that does so notices. -/
theorem typed_byte_waits_for_a_poll {p q : Program} {trace : List (Input × Event)} (byte : Byte)
    (run : Run Program.step Program.Calm p trace q) :
    (∃ r, Run Program.step anything p ((.injectRx byte, .idle) :: trace) r ∧
      Run Program.step anything p (trace ++ [(.injectRx byte, .idle)]) r) ∧
    ∀ i e f r r', q.Hungry i → (q.injected byte).step i = some (e, r) →
      q.step i = some (f, r') → r ≠ r'.injected byte := by
  refine ⟨⟨q.injected byte, ?_, ?_⟩, fun _ _ _ _ _ => Program.hungry_notices⟩
  · refine .cons trivial (p.step_injectRx byte) ?_
    induction run with
    | nil p => exact .nil _
    | cons calm taken _ ih =>
      refine .cons trivial ?_ ih
      rw [Program.step_injected calm, taken]
      rfl
  · exact (run.mono fun _ _ _ => trivial).snoc trivial (q.step_injectRx byte)

/-- The deaf loop, past its first poll. -/
def polled : Program := { Program.start deaf true none with nextUartPollCycle := 1024 }

theorem polled_loop_waits : ∃ trace q r, executions trace = 3 ∧
    Run Program.step anything polled ((.injectRx 0x41, .idle) :: trace) r ∧
    Run Program.step anything polled (trace ++ [(.injectRx 0x41, .idle)]) r ∧
    Run Program.step Program.Calm polled trace q := by
  have h : (feed Program.step Program.Calm polled (Program.turns 3)).map (fun (es, _) =>
      executions ((Program.turns 3).zip es)) = some 3 := by
    decide +kernel
  obtain ⟨⟨es, q⟩, fed, count⟩ := Option.map_eq_some_iff.mp h
  have run := run_of_feed fed
  obtain ⟨⟨r, first, last⟩, -⟩ := typed_byte_waits_for_a_poll 0x41 run
  exact ⟨_, q, r, count, first, last, run⟩

end AvrEmulator
