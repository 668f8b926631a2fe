import AvrEmulator.Skips

/-! Two runs in one process. What an earlier run leaves behind, and which of it the
next run can see. -/

namespace AvrEmulator

open Checked Transition

/-- UARTs that differ in bytes nobody reads, after logs of their own. -/
def Uart.Alike (log log' : List Byte) (u v : Uart) : Prop :=
  ∃ initialized hwByte buffer out,
    v = { u with
      initialized := initialized
      rxHwByte := hwByte
      rxBuffer := buffer
      stdout := log' ++ out } ∧
    u.stdout = log ++ out ∧ (u.rxHwReady = true → hwByte = u.rxHwByte) ∧
    (u.stdinReady = true → buffer = u.rxBuffer)

/-- Machines that the loop does not tell apart. The fault flag matters only while an
instruction is executed. -/
structure Machine.Alike (executing : Bool) (log log' : List Byte) (m n : Machine) : Prop where
  state : m.state = n.state
  timer0 : m.timer0 = n.timer0
  interrupts : m.interrupts = n.interrupts
  uart : m.uart.Alike log log' n.uart
  fault : executing = true → m.fault = n.fault

namespace Uart

variable {log log' : List Byte} {u v : Uart}

theorem Alike.consumeByte (h : u.Alike log log' v) :
    u.consumeByte.1 = v.consumeByte.1 ∧ u.consumeByte.2.Alike log log' v.consumeByte.2 := by
  obtain ⟨initialized, hwByte, buffer, out, rfl, same, hw, std⟩ := h
  unfold Uart.consumeByte
  dsimp only
  split
  · split
    next ready =>
      exact ⟨(hw ready).symm, _, _, _, out, rfl, same, (fun h => by cases h), std⟩
    next => exact ⟨rfl, _, _, _, out, rfl, same, hw, std⟩
  · split
    next ready =>
      exact ⟨(std ready).symm, _, _, _, out, rfl, same, hw, (fun h => by cases h)⟩
    next => exact ⟨rfl, _, _, _, out, rfl, same, hw, std⟩

theorem Alike.uartRead (h : u.Alike log log' v) (io : Byte) :
    (u.uartRead io).1 = (v.uartRead io).1 ∧
      (u.uartRead io).2.Alike log log' (v.uartRead io).2 := by
  have consumed := h.consumeByte
  have kept := h
  obtain ⟨initialized, hwByte, buffer, out, rfl, -⟩ := h
  unfold Uart.uartRead
  split <;> first | exact consumed | exact ⟨rfl, kept⟩

theorem Alike.transmit (h : u.Alike log log' v) (i : Interrupts) (value : Byte) :
    (u.transmit i value).2 = (v.transmit i value).2 ∧
      (u.transmit i value).1.Alike log log' (v.transmit i value).1 := by
  obtain ⟨initialized, hwByte, buffer, out, rfl, same, hw, std⟩ := h
  unfold Uart.transmit
  dsimp only
  cases u.tuiMode with
  | true => exact ⟨rfl, _, _, _, out, rfl, same, hw, std⟩
  | false =>
    exact ⟨rfl, initialized, hwByte, buffer, out ++ [value], by simp, by simp [same], hw, std⟩

theorem Alike.writeControl (h : u.Alike log log' v) (i : Interrupts) (value : Byte) :
    (u.writeControl i value).2 = (v.writeControl i value).2 ∧
      (u.writeControl i value).1.Alike log log' (v.writeControl i value).1 := by
  obtain ⟨initialized, hwByte, buffer, out, rfl, same, hw, std⟩ := h
  unfold Uart.writeControl
  dsimp only
  split <;> exact ⟨rfl, _, _, _, out, rfl, same, hw, std⟩

theorem Alike.uartWrite (h : u.Alike log log' v) (i : Interrupts) (io value : Byte) :
    (u.uartWrite i io value).2 = (v.uartWrite i io value).2 ∧
      (u.uartWrite i io value).1.Alike log log' (v.uartWrite i io value).1 := by
  have sent := h.transmit i value
  have control := h.writeControl i value
  have kept := h
  obtain ⟨initialized, hwByte, buffer, out, rfl, same, hw, std⟩ := h
  unfold Uart.uartWrite
  split <;> first
    | exact sent
    | exact control
    | exact ⟨rfl, kept⟩
    | exact ⟨rfl, _, _, _, out, rfl, same, hw, std⟩

theorem Alike.latch (h : u.Alike log log' v) (stdin : Option Byte) :
    (u.latch stdin).1 = (v.latch stdin).1 ∧ (u.latch stdin).2.Alike log log' (v.latch stdin).2 := by
  have kept := h
  obtain ⟨initialized, hwByte, buffer, out, rfl, same, hw, std⟩ := h
  unfold Uart.latch
  dsimp only
  split
  · split
    · exact ⟨rfl, _, _, _, out, rfl, same, fun _ => rfl, std⟩
    · exact ⟨rfl, kept⟩
  · split
    · exact ⟨rfl, _, _, _, out, rfl, same, hw, fun _ => rfl⟩
    · exact ⟨rfl, kept⟩

theorem Alike.injectRx (h : u.Alike log log' v) (byte : Byte) :
    (u.uartInjectRx byte).Alike log log' (v.uartInjectRx byte) := by
  obtain ⟨initialized, hwByte, buffer, out, rfl, same, hw, std⟩ := h
  exact ⟨_, _, _, out, rfl, same, hw, std⟩

theorem Alike.popTx (h : u.Alike log log' v) :
    u.uartPopTx.1 = v.uartPopTx.1 ∧ u.uartPopTx.2.Alike log log' v.uartPopTx.2 := by
  obtain ⟨initialized, hwByte, buffer, out, rfl, same, hw, std⟩ := h
  exact ⟨rfl, _, _, _, out, rfl, same, hw, std⟩

theorem Alike.ucsrb (h : u.Alike log log' v) : u.ucsrb = v.ucsrb := by
  obtain ⟨initialized, hwByte, buffer, out, rfl, -⟩ := h
  rfl

theorem Alike.uartPoll (h : u.Alike log log' v) (i : Interrupts) (stdin : Option Byte) :
    (u.uartPoll i stdin).2 = (v.uartPoll i stdin).2 ∧
      (u.uartPoll i stdin).1.Alike log log' (v.uartPoll i stdin).1 := by
  obtain ⟨ready, latched⟩ := h.latch stdin
  unfold Uart.uartPoll
  dsimp only
  rw [← ready, ← latched.ucsrb]
  split <;> exact ⟨rfl, latched⟩

end Uart

namespace Machine.Alike

variable {executing : Bool} {log log' : List Byte} {m n : Machine}

theorem setState (h : m.Alike executing log log' n) (s : AvrState) :
    (m.setState s).Alike executing log log' (n.setState s) :=
  { h with state := rfl }

theorem setError (h : m.Alike executing log log' n) (e e' : ErrorState) :
    ({ m with error := e } : Machine).Alike executing log log' { n with error := e' } :=
  { h with }

theorem signal (h : m.Alike executing log log' n) (e e' : ErrorState) :
    ({ m with fault := true, error := e } : Machine).Alike executing log log'
      { n with fault := true, error := e' } :=
  { h with fault := fun _ => rfl }

theorem raiseIf (h : m.Alike executing log log' n) (pending : Timer0 → Bool)
    (vec : InterruptVector) :
    (AvrEmulator.raiseIf (pending m.timer0) vec m).Alike executing log log'
      (AvrEmulator.raiseIf (pending n.timer0) vec n) := by
  rw [h.timer0]
  cases pending n.timer0 with
  | false => exact h
  | true => exact { h with interrupts := congrArg (·.interruptRaise vec) h.interrupts }

theorem raiseTimer0 (h : m.Alike executing log log' n) :
    (AvrEmulator.raiseTimer0 m).Alike executing log log' (AvrEmulator.raiseTimer0 n) :=
  ((h.raiseIf Timer0.timer0OverflowPending .TIMER0_OVF).raiseIf
    Timer0.timer0CompAPending .TIMER0_COMPA).raiseIf Timer0.timer0CompBPending .TIMER0_COMPB

theorem acknowledge (h : m.Alike executing log log' n) (vec : InterruptVector) :
    (AvrEmulator.acknowledge vec m).Alike executing log log' (AvrEmulator.acknowledge vec n) := by
  unfold AvrEmulator.acknowledge
  split
  · exact { h with timer0 := congrArg Timer0.timer0AckOverflow h.timer0 }
  split
  · exact { h with timer0 := congrArg Timer0.timer0AckCompA h.timer0 }
  split
  · exact { h with timer0 := congrArg Timer0.timer0AckCompB h.timer0 }
  · exact h

end Machine.Alike

section Programs

variable {executing : Bool} {log log' : List Byte}

theorem callUartRead_simulates (io : Byte) :
    Simulates (Machine.Alike executing log log') (callUartRead io) := by
  intro m n value m' h run
  have reads (m : Machine) : (callUartRead io).run m =
      some ((m.uart.uartRead io).1, { m with uart := (m.uart.uartRead io).2 }) := rfl
  obtain ⟨same, uart⟩ := h.uart.uartRead io
  rw [reads, Option.some.injEq, Prod.mk.injEq] at run
  obtain ⟨rfl, rfl⟩ := run
  exact ⟨{ n with uart := (n.uart.uartRead io).2 }, by rw [reads, same], { h with uart := uart }⟩

theorem callUartWrite_simulates (io value : Byte) :
    Simulates (Machine.Alike executing log log') (callUartWrite io value) := by
  refine .modify fun m n h => ?_
  obtain ⟨raised, uart⟩ := h.uart.uartWrite m.interrupts io value
  rw [h.interrupts] at raised uart
  refine { h with interrupts := ?_, uart := ?_ }
  · rw [h.interrupts]
    exact raised
  · rw [h.interrupts]
    exact uart

theorem onCpu_simulates {α : Type} (x : Cpu α) :
    Simulates (Machine.Alike executing log log') (onCpu x) :=
  .zoom (fun _ _ h => h.state) (fun _ _ s h => h.setState s) x

theorem alike_rules :
    EmuRules (fun _ _ => True) fun _ x => Simulates (Machine.Alike executing log log') x where
  cpu := .all
  pure := .pure
  bind := .bind
  read same rest := .read (fun m n h => same m n h.state h.timer0) rest
  onCpu _ := onCpu_simulates _
  callUartRead := callUartRead_simulates
  report _ := .modify fun _ _ h => h.setError _ _
  signal _ := .modify fun _ _ h => h.signal _ _

theorem writeDataByte_simulates (addr : Word) (value : Byte) :
    Simulates (Machine.Alike executing log log') (writeDataByte addr value) := by
  intro m n u m' h run
  have rules : EmuRules _ fun _ x => Simulates (Machine.Alike executing log log') x := alike_rules
  rw [writeDataByte, run_get_bind] at run ⊢
  rw [← h.state, ← h.timer0]
  by_cases register : addr < 0x20
  · rw [if_pos register] at run ⊢
    exact onCpu_simulates _ m n u m' h run
  rw [if_neg register] at run ⊢
  by_cases spl : addr = 0x5D
  · rw [if_pos spl] at run ⊢
    exact rules.setSp _ m n u m' h run
  rw [if_neg spl] at run ⊢
  by_cases sph : addr = 0x5E
  · rw [if_pos sph] at run ⊢
    exact rules.setSp _ m n u m' h run
  rw [if_neg sph] at run ⊢
  by_cases sreg : addr = 0x5F
  · rw [if_pos sreg] at run ⊢
    cases run
    exact ⟨_, rfl, h.setState _⟩
  rw [if_neg sreg] at run ⊢
  cases answered : m.timer0.timer0Write ((addr - 0x20).setWidth 8) value with
  | some timer0 =>
    rw [answered] at run
    cases run
    exact ⟨_, rfl, rfl, rfl, h.interrupts, h.uart, h.fault⟩
  | none =>
    rw [answered] at run
    dsimp only at run ⊢
    by_cases extended : addr ≥ 0xC0 ∧ addr ≤ 0xC6
    · rw [if_pos extended] at run ⊢
      exact callUartWrite_simulates _ _ m n u m' h run
    rw [if_neg extended] at run ⊢
    by_cases legacy : addr ≥ 0x29 ∧ addr ≤ 0x2D
    · rw [if_pos legacy] at run ⊢
      exact callUartWrite_simulates _ _ m n u m' h run
    rw [if_neg legacy] at run ⊢
    by_cases outside : (!dataAddrOk addr) = true
    · rw [if_pos outside] at run ⊢
      exact rules.signal _ m n u m' h run
    · rw [if_neg outside] at run ⊢
      exact onCpu_simulates _ m n u m' h run

theorem dropPending_simulates (vec : InterruptVector) :
    Simulates (Machine.Alike executing log log') (dropPending vec) :=
  .modify fun _ _ h => { h with interrupts := congrArg (·.drop vec) h.interrupts }

theorem takeUp_simulates (vec : InterruptVector) :
    Simulates (Machine.Alike executing log log') (takeUp vec) := by
  have enter : Simulates (Machine.Alike executing log log') (enterHandler vec) :=
    (alike_rules.pushPc writeDataByte_simulates).bind fun _ =>
      (onCpu_simulates _).bind fun _ => onCpu_simulates _
  unfold takeUp
  dsimp only
  split
  · exact (dropPending_simulates vec).bind fun _ => .pure _
  apply (onCpu_simulates _).bind
  intro word
  split
  · exact (dropPending_simulates vec).bind fun _ => .pure _
  · exact (dropPending_simulates vec).bind fun _ => enter.bind fun _ => .pure _

theorem interruptService_simulates :
    Simulates (Machine.Alike executing log log') interruptService := by
  refine .read (fun m n h => by simp only [h.state, h.interrupts]) fun m => ?_
  split
  · exact .pure _
  split
  · exact .pure _
  split
  · exact .pure _
  · exact takeUp_simulates _

theorem advanceTiming_simulates (op : Opcode) :
    Simulates (Machine.Alike executing log log') (advanceTiming op) :=
  .modify fun m n h => { h with
    state := by rw [h.state]
    timer0 := by rw [h.state, h.timer0] }

theorem executed_simulates (f : Fetched) : Simulates (Machine.Alike true log log') (do
    onCpu (setExtraCycles 0)
    if !(← executeInstruction f.op f.instruction f.extra) then return .failed
    if ← memoryFaultPending then return .failed
    advanceTiming f.op
    return .executed : Emu Outcome) := by
  have instruction : Simulates (Machine.Alike true log log')
      (executeInstruction f.op f.instruction f.extra) :=
    (dispatch_rules alike_rules _ _ _ (fun _ => writeDataByte_simulates) fun _ =>
      trivial).bind fun _ => .pure _
  have pending : Simulates (Machine.Alike true log log') memoryFaultPending :=
    .read (fun m n h => by rw [h.fault rfl]) fun _ => .pure _
  refine (onCpu_simulates _).bind fun _ => instruction.bind fun result => ?_
  split
  · exact .pure _
  apply pending.bind
  intro fault
  split
  · exact .pure _
  · exact (advanceTiming_simulates _).bind fun _ => .pure _

/-- Clearing the fault flag is the first thing an instruction does. -/
theorem execute_simulates (f : Fetched) :
    Simulates (Machine.Alike false log log') (execute f) := by
  intro m n outcome m' h run
  have clear (m : Machine) : memoryClearFault.run m = some ((), { m with fault := false }) := rfl
  rw [execute, run_bind_of (clear m)] at run
  obtain ⟨n', run', same⟩ := executed_simulates f { m with fault := false }
    { n with fault := false } _ _
    { h with fault := fun _ => rfl } run
  refine ⟨n', by rw [execute, run_bind_of (clear n), run'], { same with fault := fun h => ?_ }⟩
  cases h

theorem loopBody_simulates : Simulates (Machine.Alike false log log') loopBody := by
  refine .bind (.modify fun m n h => h.raiseTimer0) fun _ =>
    interruptService_simulates.bind fun serviced => ?_
  cases serviced with
  | some vec => exact .bind (.modify fun m n h => h.acknowledge vec) fun _ => .pure _
  | none =>
    apply alike_rules.fetch.bind
    intro found
    cases found with
    | none => exact .pure _
    | some f => exact execute_simulates f

end Programs

structure Program.Alike (log log' : List Byte) (p q : Program) : Prop where
  machine : p.machine.Alike false log log' q.machine
  control : p.control = q.control
  poll : p.nextUartPollCycle = q.nextUartPollCycle

namespace Program.Alike

variable {log log' : List Byte} {p q : Program}

theorem pollUart (h : p.Alike log log' q) (stdin : Option Byte) :
    (p.pollUart stdin).Alike log log' (q.pollUart stdin) := by
  obtain ⟨raised, uart⟩ := h.machine.uart.uartPoll p.machine.interrupts stdin
  unfold Program.pollUart
  rw [← h.machine.state, ← h.poll]
  split
  · refine ⟨?_, h.control, rfl⟩
    rw [← h.machine.interrupts]
    exact { h.machine with interrupts := raised, uart := uart }
  · exact h

theorem after (h : p.Alike log log' q) {m n : Machine} (machine : m.Alike false log log' n)
    (outcome : Outcome) : (p.after m outcome).1 = (q.after n outcome).1 ∧
      (p.after m outcome).2.Alike log log' (q.after n outcome).2 := by
  cases outcome with
  | dispatched vec => exact ⟨rfl, machine, rfl, h.poll⟩
  | failed => exact ⟨rfl, machine, rfl, h.poll⟩
  | executed =>
    refine ⟨rfl, ?_, ?_, ?_⟩
    · change Machine.Alike false log log' (Program.machine (Program.syncIfDue _))
        (Program.machine (Program.syncIfDue _))
      rw [Program.advance_machine, Program.advance_machine]
      exact machine
    · change Program.control (Program.syncIfDue _) = Program.control (Program.syncIfDue _)
      rw [Program.advance_control, Program.advance_control]
    · change Program.nextUartPollCycle (Program.syncIfDue _) =
        Program.nextUartPollCycle (Program.syncIfDue _)
      rw [Program.advance_poll, Program.advance_poll]
      exact h.poll

theorem turn (h : p.Alike log log' q) {stdin : Option Byte} {e : Event} {p' : Program}
    (taken : p.turn stdin = some (e, p')) :
    ∃ q', q.turn stdin = some (e, q') ∧ p'.Alike log log' q' := by
  obtain ⟨⟨outcome, m⟩, run, result⟩ := Option.map_eq_some_iff.mp taken
  obtain ⟨n, run', machine⟩ := loopBody_simulates _ _ _ _ (h.pollUart stdin).machine run
  obtain ⟨event, alike⟩ := (h.pollUart stdin).after machine outcome
  have same : (p.pollUart stdin).after m outcome = (e, p') := result
  rw [same] at event alike
  subst event
  exact ⟨_, by rw [Program.turn, run']; rfl, alike⟩

theorem step (h : p.Alike log log' q) {i : Input} {e : Event} {p' : Program}
    (taken : p.step i = some (e, p')) :
    ∃ q', q.step i = some (e, q') ∧ p'.Alike log log' q' := by
  cases i with
  | injectRx byte =>
    cases taken
    exact ⟨_, rfl, { h with machine := { h.machine with uart := h.machine.uart.injectRx byte } }⟩
  | popTx =>
    cases taken
    exact ⟨_, rfl, { h with machine := { h.machine with uart := h.machine.uart.popTx.2 } }⟩
  | loop stop pause stdin =>
    rw [Program.step] at taken ⊢
    rw [← h.control]
    cases control : p.control with
    | head =>
      rw [control] at taken
      cases stop <;> cases taken <;> exact ⟨_, rfl, h.machine, rfl, h.poll⟩
    | paused =>
      rw [control] at taken
      dsimp only at taken ⊢
      split at taken
      next waits =>
        cases taken
        exact ⟨q, if_pos waits, h⟩
      next goes =>
        cases taken
        exact ⟨_, if_neg goes, h.machine, rfl, h.poll⟩
    | body =>
      rw [control] at taken
      exact h.turn taken
    | done result =>
      rw [control] at taken
      cases taken

end Program.Alike

/-! ## What an earlier run leaves behind -/

/-- No byte waits in the UART. -/
structure Uart.Drained (u : Uart) : Prop where
  tx : u.txBuffer = []
  queue : u.rxQueue = []
  latch : u.rxHwReady = false
  stdin : u.stdinReady = false

/-- The registers that no initialisation resets. -/
structure Uart.SameRegisters (u v : Uart) : Prop where
  ucsrb : u.ucsrb = v.ucsrb
  ucsrc : u.ucsrc = v.ucsrc
  ubrrl : u.ubrrl = v.ubrrl

/-- Whatever a run from `a` does, the run from `b` on the same inputs does: the same
events, CPU state, bytes for the host and bytes put on stdout. -/
def Follows (a b : Machine) : Prop :=
  ∀ fcntlOk fcntlOk' snapshot snapshot' trace p,
    Run Program.step anything (Program.start a fcntlOk snapshot) trace p →
    ∃ q out, Run Program.step anything (Program.start b fcntlOk' snapshot') trace q ∧
      q.machine.state = p.machine.state ∧
      q.machine.uart.txBuffer = p.machine.uart.txBuffer ∧
      p.machine.uart.stdout = a.uart.stdout ++ out ∧ q.machine.uart.stdout = b.uart.stdout ++ out

/-- With the same CPU state the two processes go through the same run. -/
def NoLeak (a b : Machine) : Prop := Follows a b ∧ Follows b a

theorem Uart.Drained.alike {u v : Uart} (drained : u.Drained) (drained' : v.Drained)
    (mode : u.tuiMode = v.tuiMode) (same : u.SameRegisters v) : u.Alike u.stdout v.stdout v := by
  refine ⟨v.initialized, v.rxHwByte, v.rxBuffer, [], ?_, (List.append_nil _).symm, ?_, ?_⟩
  · rw [drained.tx.trans drained'.tx.symm, drained.queue.trans drained'.queue.symm,
      drained.latch.trans drained'.latch.symm, drained.stdin.trans drained'.stdin.symm, mode,
      same.ucsrb, same.ucsrc, same.ubrrl, List.append_nil]
  · rw [drained.latch]
    intro ready
    cases ready
  · rw [drained.stdin]
    intro ready
    cases ready

theorem uartInit_frame (u : Uart) (fcntlOk : Bool) :
    ∃ initialized, (u.uartInit fcntlOk).2 = { u with initialized := initialized } := by
  unfold Uart.uartInit
  split
  · exact ⟨u.initialized, rfl⟩
  split
  · exact ⟨u.initialized, rfl⟩
  split
  · exact ⟨true, rfl⟩
  · exact ⟨u.initialized, rfl⟩

/-- The initialisation makes everything else alike. -/
theorem start_alike {a b : Machine} {log log' : List Byte} (state : a.state = b.state)
    (uart : a.uart.Alike log log' b.uart) (fcntlOk fcntlOk' : Bool)
    (snapshot snapshot' : Option AvrState) :
    (Program.start a fcntlOk snapshot).Alike log log' (Program.start b fcntlOk' snapshot') := by
  obtain ⟨init, ready⟩ := uartInit_frame a.uart fcntlOk
  obtain ⟨init', ready'⟩ := uartInit_frame b.uart fcntlOk'
  obtain ⟨_, hwByte, buffer, out, same, log, hw, std⟩ := uart
  refine ⟨⟨state, rfl, rfl, ?_, fun h => by cases h⟩, rfl, rfl⟩
  change (a.uart.uartInit fcntlOk).2.Alike _ _ (b.uart.uartInit fcntlOk').2
  rw [ready, ready', same]
  exact ⟨_, _, _, out, rfl, log, hw, std⟩

theorem follows_of_alike {a b : Machine} (state : a.state = b.state)
    (uart : a.uart.Alike a.uart.stdout b.uart.stdout b.uart) : Follows a b := by
  intro fcntlOk fcntlOk' snapshot snapshot' trace p run
  obtain ⟨q, run', alike⟩ := run.simulated (S := Program.Alike a.uart.stdout b.uart.stdout)
    (start_alike state uart fcntlOk fcntlOk' snapshot snapshot')
    fun _ _ _ _ _ alike taken => alike.step taken
  obtain ⟨_, _, _, out, same, log, -⟩ := alike.machine.uart
  refine ⟨q, out, run', alike.machine.state.symm, ?_, log, ?_⟩ <;> rw [same]

theorem noLeak_of_same {a b : Machine} (mode : a.uart.tuiMode = b.uart.tuiMode)
    (drained : a.uart.Drained) (drained' : b.uart.Drained) (same : a.uart.SameRegisters b.uart)
    (s : AvrState) : NoLeak (a.setState s) (b.setState s) :=
  ⟨follows_of_alike rfl (drained.alike drained' mode same),
    follows_of_alike rfl (drained'.alike drained mode.symm
      ⟨same.ucsrb.symm, same.ucsrc.symm, same.ubrrl.symm⟩)⟩

/-! ## What the next run can see -/

inductive UartRegister where
  | ubrrl
  | ucsrb
  | ucsrc

def Uart.register (u : Uart) : UartRegister → Byte
  | .ubrrl => u.ubrrl
  | .ucsrb => u.ucsrb
  | .ucsrc => u.ucsrc

/-- IN R0 from the register. -/
def readsRegister : UartRegister → Word
  | .ubrrl => 0xB009
  | .ucsrb => 0xB00A
  | .ucsrc => 0xB00D

/-- Polling and raising keep the registers. -/
theorem servicePoint_register (p : Program) (stdin : Option Byte) (k : UartRegister) :
    (p.servicePoint stdin).uart.register k = p.machine.uart.register k := by
  have latch (u : Uart) : (u.latch stdin).2.register k = u.register k := by
    unfold Uart.latch
    split <;> split <;> cases k <;> rfl
  have poll : (p.pollUart stdin).machine.uart.register k = p.machine.uart.register k := by
    unfold Program.pollUart Uart.uartPoll
    split
    · dsimp only
      split <;> exact latch _
    · rfl
  obtain ⟨i, raised⟩ := raiseTimer0_frame (p.pollUart stdin).machine
  rw [Program.servicePoint, raised]
  exact poll

theorem execute_reads (m : Machine) (k : UartRegister) :
    ∃ m', (execute ⟨⟨0xF800, 0xB000, .IN, AvrFmt.Rd_IO, 1, 1, "IN"⟩, readsRegister k, 0⟩).run m =
      some (.executed, m') ∧ m'.state.reg 0 = m.uart.register k := by
  cases k <;> exact ⟨_, rfl, rfl⟩

theorem fetch_reads {m : Machine} {k : UartRegister}
    (state : m.state = Program.firmware [readsRegister k]) :
    fetch.run m = some (some ⟨⟨0xF800, 0xB000, .IN, AvrFmt.Rd_IO, 1, 1, "IN"⟩, readsRegister k, 0⟩,
      m.fetchedWord) := by
  have pc : m.state.pc = 0 := by rw [state]; rfl
  have word : m.flashWord m.state.pc.toNat = readsRegister k := by
    rw [pc, Machine.flashWord, state]
    cases k <;> decide +kernel
  have found : decodeInstruction (readsRegister k) =
      some ⟨0xF800, 0xB000, .IN, AvrFmt.Rd_IO, 1, 1, "IN"⟩ := by
    cases k <;> decide
  have inside : m.state.pc.toNat + 1 < avrFlashSize := by rw [pc]; decide
  rw [run_fetch_inside inside, word, found]
  rfl

/-- Where three steps lead that read a register. -/
theorem observed (m : Machine) (k : UartRegister) (fcntlOk : Bool) (snapshot : Option AvrState) :
    ∃ p, Run Program.step anything
      (Program.start (m.setState (Program.firmware [readsRegister k])) fcntlOk snapshot)
      [(Program.go, .idle), (Program.go, .idle), (Program.go, .executed)] p ∧
      p.machine.state.reg 0 = m.uart.register k := by
  generalize hp : ({ Program.start (m.setState (Program.firmware [readsRegister k])) fcntlOk
    snapshot with control := .body } : Program) = p
  have state : p.machine.state = Program.firmware [readsRegister k] := by rw [← hp]; rfl
  have register : p.machine.uart.register k = m.uart.register k := by
    obtain ⟨init, ready⟩ := uartInit_frame m.uart fcntlOk
    rw [← hp]
    change (m.uart.uartInit fcntlOk).2.register k = _
    rw [ready]
    cases k <;> rfl
  have disabled : (p.servicePoint none).candidate = none := by
    have clear : (Program.firmware [readsRegister k]).getFlag .I = false := by cases k <;> decide
    rw [Machine.candidate, Program.servicePoint_state, state, clear, Bool.and_false]
    rfl
  have idle : (p.servicePoint none).dispatches = none := by
    rw [Machine.dispatches, disabled]
    rfl
  have settled : (p.servicePoint none).settled = p.servicePoint none := by
    rw [Machine.settled, disabled]
  have fetched := fetch_reads (m := p.servicePoint none)
    ((p.servicePoint_state none).trans state)
  obtain ⟨m', run, seen⟩ := execute_reads (p.servicePoint none).fetchedWord k
  have turn : p.turn none = some ((p.pollUart none).after m' .executed) := by
    rw [Program.turn_execute idle, settled, fetchExecute, run_bind_of fetched, run]
    rfl
  have taken : p.step Program.go = some ((p.pollUart none).after m' .executed) := by
    rw [← turn, ← hp]
    rfl
  have machine : ((p.pollUart none).after m' .executed).2.machine = m' :=
    Program.advance_machine _
  have last : ((p.pollUart none).after m' .executed).2.machine.state.reg 0 =
      m.uart.register k := by
    rw [machine, seen, ← register, ← servicePoint_register p none k]
    rfl
  subst hp
  exact ⟨_, .cons trivial rfl (.cons trivial rfl (.cons trivial taken (.nil _))), last⟩

theorem same_of_follows {a b : Machine}
    (follows : ∀ s, Follows (a.setState s) (b.setState s)) : a.uart.SameRegisters b.uart := by
  have same (k : UartRegister) : a.uart.register k = b.uart.register k := by
    obtain ⟨p, run, seen⟩ := observed a k true none
    obtain ⟨p', run', seen'⟩ := observed b k true none
    obtain ⟨q, -, rerun, state, -⟩ := follows _ true true none none _ _ run
    rw [run'.deterministic rerun, state, seen] at seen'
    exact seen'
  exact ⟨same .ucsrb, same .ucsrc, same .ubrrl⟩

/-- With the UART drained, a run goes the same way whatever ran before exactly when that
left the three UART registers the same. -/
theorem runs_do_not_leak_iff {a b : Machine} (mode : a.uart.tuiMode = b.uart.tuiMode)
    (drained : a.uart.Drained) (drained' : b.uart.Drained) :
    (∀ s, NoLeak (a.setState s) (b.setState s)) ↔ a.uart.SameRegisters b.uart :=
  ⟨fun apart => same_of_follows fun s => (apart s).1,
    fun same s => noLeak_of_same mode drained drained' same s⟩

/-- A process that was left with a running timer, a pending vector and a fault. -/
def leftRunning : Machine :=
  { Machine.initial .zero with
    timer0 := { timer0Reset with tccr0b := 1, tcnt0 := 0x80, tifr0 := 1 }
    interrupts := ⟨true, Interrupts.mask .TIMER0_OVF⟩
    fault := true }

theorem timer_does_not_leak : NoLeak (Machine.initial .zero) leftRunning :=
  (runs_do_not_leak_iff (a := .initial .zero) (b := leftRunning) rfl ⟨rfl, rfl, rfl, rfl⟩
    ⟨rfl, rfl, rfl, rfl⟩).mpr ⟨rfl, rfl, rfl⟩ .zero

/-- LDI R16, 0x80; OUT UCSRB, R16. -/
def enablesReceive : Machine := .initial (Program.firmware [0xE800, 0xB90A])

/-- An earlier program enables the receive interrupt and is stopped. The next one reads
its UCSRB. -/
theorem ucsrb_leaks : ∃ trace p, Run Program.step anything
      (Program.start enablesReceive true none) trace p ∧
    p.control = .done true ∧ p.machine.uart.Drained ∧
    p.machine.uart.tuiMode = (Machine.initial .zero).uart.tuiMode ∧
    ∃ s, ¬ NoLeak ((Machine.initial .zero).setState s) (p.machine.setState s) := by
  have fed : (feed Program.step anything (Program.start enablesReceive true none)
      (Program.turns 2 ++ [.loop true false none])).map (fun x => (x.2.control,
        x.2.machine.uart)) = some (.done true,
        { Uart.initial with initialized := true, ucsrb := 0x80 }) := by decide +kernel
  obtain ⟨⟨es, p⟩, fed, shown⟩ := Option.map_eq_some_iff.mp fed
  obtain ⟨control, uart⟩ := Prod.mk.inj shown
  dsimp only at control uart
  refine ⟨_, p, run_of_feed fed, control, ?_, ?_, ?_⟩
  · rw [uart]
    exact ⟨rfl, rfl, rfl, rfl⟩
  · rw [uart]
    rfl
  · by_contra apart
    simp only [not_exists, not_not] at apart
    have same := (same_of_follows fun s => (apart s).1).ucsrb
    rw [uart] at same
    cases same

end AvrEmulator
