import AvrEmulator.Library.Transition
import AvrEmulator.Service
import AvrEmulator.Executor.Frame

/-! The main loop (`executeProgram`) as a transition system. The emulator
thread stops at the loop head, in the pause wait and before the loop body; the
host acts in between. -/

namespace AvrEmulator

structure Fetched where
  op : Opcode
  instruction : Word
  extra : Word

def setFaultPc (pc : Word) : Emu Unit :=
  modify fun m => { m with error := m.error.emuSetFaultPc pc }

def setFaultInstr (instruction : Word) : Emu Unit :=
  modify fun m => { m with error := m.error.emuSetFaultInstr instruction }

def reportUnknown (instrPc instruction : Word) : Emu Unit :=
  let message := "unknown opcode (not in decoder table)"
  modify fun m => { m with error := m.error.emuErrorPcInstr instrPc instruction message }

/-- The second word of a 32-bit instruction. -/
def fetchSecond (op : Opcode) (instruction : Word) : Emu (Option Fetched) := do
  let pc := (← get).state.pc
  if pc.toNat + 1 ≥ avrFlashSize then
    reportPc "32-bit instruction extends past end of flash"
    return none
  let extra ← onCpu (fetchWord pc.toNat)
  onCpu (addPc 2)
  return some ⟨op, instruction, extra⟩

/-- Fetch and decode. `none` ends the program with a report. -/
def fetch : Emu (Option Fetched) := do
  let instrPc := (← get).state.pc
  if instrPc.toNat + 1 ≥ avrFlashSize then
    reportPc "program counter out of flash bounds"
    return none
  setFaultPc instrPc
  let instruction ← onCpu (fetchWord instrPc.toNat)
  setFaultInstr instruction
  onCpu (addPc 2)
  match decodeInstruction instruction with
  | none =>
    reportUnknown instrPc instruction
    return none
  | some op =>
    if op.words = 2 then fetchSecond op instruction
    else return some ⟨op, instruction, 0⟩

/-- `total_cycles` is 16 bits wide. -/
def advanceTiming (op : Opcode) : Emu Unit :=
  modify fun m =>
    let totalCycles : Word := op.cyclesMin.setWidth 16 + m.state.extraCycles.setWidth 16
    { m with
      state := { m.state with cycleCount := m.state.cycleCount + totalCycles.setWidth 64 }
      timer0 := m.timer0.timer0Tick totalCycles }

inductive Outcome where
  | dispatched (vec : InterruptVector)
  | executed
  | failed
  deriving DecidableEq, Repr

def execute (f : Fetched) : Emu Outcome := do
  memoryClearFault
  onCpu (setExtraCycles 0)
  if !(← executeInstruction f.op f.instruction f.extra) then return .failed
  if ← memoryFaultPending then return .failed
  advanceTiming f.op
  return .executed

def fetchExecute : Emu Outcome := do
  match ← fetch with
  | none => return .failed
  | some f => execute f

/-- One turn of the loop after the UART poll. A dispatch starts the next turn. -/
def loopBody : Emu Outcome := do
  modify raiseTimer0
  match ← interruptService with
  | some serviced =>
    modify (acknowledge serviced)
    return .dispatched serviced
  | none => fetchExecute

/-! ## The loop -/

inductive Control where
  | head
  | paused
  | body
  | done (result : Bool)
  deriving DecidableEq, Repr

structure Program where
  machine : Machine
  control : Control
  nextSnapshotCycle : BitVec 64
  nextUartPollCycle : BitVec 64
  nextWallSyncCycle : BitVec 64
  /-- `g_snapshot`, `none` while it is not ready. -/
  snapshot : Option AvrState
  /-- The last wall-clock offset waited for, in microseconds. -/
  wallTarget : BitVec 64

/-- What moves the system: the emulator thread takes its next step, seeing these
stop and pause flags and this non-blocking read of stdin, or the host acts. -/
inductive Input where
  | loop (stop pause : Bool) (stdin : Option Byte)
  | injectRx (byte : Byte)
  | popTx
  deriving DecidableEq, Repr

inductive Event where
  | idle
  | dispatched (vec : InterruptVector)
  | executed
  | returned (result : Bool)
  deriving DecidableEq, Repr

namespace Program

def publishSnapshot (p : Program) : Program := { p with snapshot := some p.machine.state }

/-- `executeProgram` up to its loop, entered with the statics as they are. -/
def start (m : Machine) (fcntlOk : Bool) (snapshot : Option AvrState) : Program :=
  publishSnapshot {
    machine := { m with
      uart := (m.uart.uartInit fcntlOk).2
      timer0 := timer0Reset
      interrupts := m.interrupts.interruptSetState.interruptReset }
    control := .head
    nextSnapshotCycle := 160000
    nextUartPollCycle := 0
    nextWallSyncCycle := 16000
    snapshot := snapshot
    wallTarget := 0 }

def pollUart (p : Program) (stdin : Option Byte) : Program :=
  if p.machine.state.cycleCount ≥ p.nextUartPollCycle then
    let (uart, interrupts) := p.machine.uart.uartPoll p.machine.interrupts stdin
    { p with
      machine := { p.machine with uart := uart, interrupts := interrupts }
      nextUartPollCycle := p.machine.state.cycleCount + 1024 }
  else p

def snapshotIfDue (p : Program) : Program :=
  if p.machine.state.cycleCount ≥ p.nextSnapshotCycle then
    { p.publishSnapshot with nextSnapshotCycle := p.machine.state.cycleCount + 160000 }
  else p

/-- The sleep itself changes nothing. -/
def syncIfDue (p : Program) : Program :=
  if p.machine.state.cycleCount ≥ p.nextWallSyncCycle then
    { p with
      wallTarget := p.machine.state.cycleCount * 1000000 / 16000000
      nextWallSyncCycle := p.machine.state.cycleCount + 16000 }
  else p

/-- Where the loop goes after a body that left this machine. -/
def after (p : Program) (m : Machine) : Outcome → Event × Program
  | .dispatched vec => (.dispatched vec, { p with machine := m, control := .head })
  | .executed =>
    (.executed, { p with machine := m, control := .head }.snapshotIfDue.syncIfDue)
  | .failed => (.returned false, { p with machine := m, control := .done false })

def turn (p : Program) (stdin : Option Byte) : Option (Event × Program) :=
  (loopBody.run (p.pollUart stdin).machine).map fun (outcome, m) =>
    (p.pollUart stdin).after m outcome

/-- One step. `none` after the return and where an access would be undefined. -/
def step (p : Program) : Input → Option (Event × Program)
  | .loop stop pause stdin =>
    match p.control with
    | .head =>
      if stop then some (.returned true, { p.publishSnapshot with control := .done true })
      else some (.idle, { p with control := .paused })
    | .paused =>
      if pause && !stop then some (.idle, p)
      else some (.idle, { p with control := .body })
    | .body => p.turn stdin
    | .done _ => none
  | .injectRx byte =>
    some (.idle, { p with machine := { p.machine with uart := p.machine.uart.uartInjectRx byte } })
  | .popTx =>
    some (.idle, { p with machine := { p.machine with uart := p.machine.uart.uartPopTx.2 } })

/-- A reset CPU with these words at the bottom of an otherwise empty flash. -/
def firmware (words : List Word) : AvrState :=
  { clearState .zero with
    flash := fun i =>
      let word := words.getD (i.val / 2) 0
      if i.val % 2 = 0 then word.setWidth 8 else (word >>> 8).setWidth 8 }

/-- An undisturbed step of the emulator thread. -/
def go : Input := .loop false false none

/-- So many turns of the loop from its head. -/
def turns (n : Nat) : List Input := List.replicate (3 * n) go

/-- The machine that `interruptService` is called on in a turn. -/
def servicePoint (p : Program) (stdin : Option Byte) : Machine :=
  raiseTimer0 (p.pollUart stdin).machine

/-- Polling and raising touch the UART and the pending set. -/
theorem servicePoint_frame (p : Program) (stdin : Option Byte) :
    ∃ u i, p.servicePoint stdin = { p.machine with uart := u, interrupts := i } := by
  obtain ⟨i, hi⟩ := raiseTimer0_frame (p.pollUart stdin).machine
  rw [servicePoint, hi]
  unfold pollUart
  split <;> exact ⟨_, _, rfl⟩

theorem servicePoint_state (p : Program) (stdin : Option Byte) :
    (p.servicePoint stdin).state = p.machine.state := by
  obtain ⟨u, i, hi⟩ := p.servicePoint_frame stdin
  rw [hi]

/-- The machine that fetches in a turn. -/
theorem settled_servicePoint_state (p : Program) (stdin : Option Byte) :
    (p.servicePoint stdin).settled.state = p.machine.state :=
  (settled_state _).trans (p.servicePoint_state stdin)

/-- With interrupts off no turn dispatches. -/
theorem masked_idle {p : Program} (masked : p.machine.state.getFlag .I = false)
    (stdin : Option Byte) : (p.servicePoint stdin).dispatches = none := by
  have off : (p.servicePoint stdin).state.getFlag .I = false := by
    rw [servicePoint_state]
    exact masked
  simp [Machine.dispatches, Machine.candidate, off]

theorem servicePoint_timer0 (p : Program) (stdin : Option Byte) :
    (p.servicePoint stdin).timer0 = p.machine.timer0 := by
  obtain ⟨u, i, hi⟩ := p.servicePoint_frame stdin
  rw [hi]

end Program

namespace EmuRules

variable {C : (α : Type) → Cpu α → Prop} {P : (α : Type) → Emu α → Prop}

theorem fetchSecond (h : EmuRules C P) (op : Opcode) (instruction : Word) :
    P (Option Fetched) (AvrEmulator.fetchSecond op instruction) := by
  apply h.read (fun m n same _ => by simp only [same])
  intro m
  dsimp only
  split
  · exact h.bind (h.report _) fun _ => h.pure _
  next inside =>
    exact h.bind (h.onCpu (h.cpu.fetchWord (Nat.not_le.mp inside))) fun _ =>
      h.bind (h.onCpu (h.cpu.addPc _)) fun _ => h.pure _

theorem fetch (h : EmuRules C P) : P (Option Fetched) AvrEmulator.fetch := by
  apply h.read (fun m n same _ => by simp only [same])
  intro m
  dsimp only
  split
  · exact h.bind (h.report _) fun _ => h.pure _
  next inside =>
    refine h.bind (h.report _) fun _ =>
      h.bind (h.onCpu (h.cpu.fetchWord (Nat.not_le.mp inside))) fun instruction =>
        h.bind (h.report _) fun _ => h.bind (h.onCpu (h.cpu.addPc _)) fun _ => ?_
    split
    · exact h.bind (h.report _) fun _ => h.pure _
    split
    · exact h.fetchSecond _ _
    · exact h.pure _

end EmuRules

/-! ## What a turn does -/

theorem run_loopBody (m : Machine) :
    loopBody.run m =
      match (raiseTimer0 m).dispatches with
      | some vec => some (.dispatched vec, acknowledge vec ((raiseTimer0 m).settled.entered vec))
      | none => fetchExecute.run (raiseTimer0 m).settled := by
  have raise : (modify raiseTimer0 : Emu Unit).run m = some ((), raiseTimer0 m) := rfl
  have service := run_interruptService (raiseTimer0 m)
  rw [loopBody, Checked.run_bind_of raise]
  cases hd : (raiseTimer0 m).dispatches with
  | some vec =>
    simp only [hd, run_enterHandler, Option.map_some] at service
    rw [Checked.run_bind_of service]
    rfl
  | none =>
    simp only [hd] at service
    rw [Checked.run_bind_of service]

namespace Program

theorem step_body {p : Program} (body : p.control = .body) (stop pause : Bool)
    (stdin : Option Byte) : p.step (.loop stop pause stdin) = p.turn stdin := by
  rw [step, body]

/-- A turn that dispatches executes nothing and goes back to the loop head. -/
theorem turn_dispatch {p : Program} {stdin : Option Byte} {vec : InterruptVector}
    (h : (p.servicePoint stdin).dispatches = some vec) :
    p.turn stdin = some (.dispatched vec, { p.pollUart stdin with
      machine := acknowledge vec ((p.servicePoint stdin).settled.entered vec)
      control := .head }) := by
  have run := run_loopBody (p.pollUart stdin).machine
  change (p.servicePoint stdin).dispatches = _ at h
  rw [servicePoint] at h
  rw [h] at run
  rw [turn, run]
  rfl

/-- A turn that does not dispatch fetches and executes. -/
theorem turn_execute {p : Program} {stdin : Option Byte}
    (h : (p.servicePoint stdin).dispatches = none) :
    p.turn stdin = (fetchExecute.run (p.servicePoint stdin).settled).map fun (outcome, m) =>
      (p.pollUart stdin).after m outcome := by
  have run := run_loopBody (p.pollUart stdin).machine
  rw [servicePoint] at h
  rw [h] at run
  rw [turn, run]
  rfl

/-- Outside a turn the loop moves on and may publish. -/
structure MovesOn (p q : Program) (e : Event) : Prop where
  machine : q.machine = p.machine
  nextSnapshotCycle : q.nextSnapshotCycle = p.nextSnapshotCycle
  nextUartPollCycle : q.nextUartPollCycle = p.nextUartPollCycle
  nextWallSyncCycle : q.nextWallSyncCycle = p.nextWallSyncCycle
  snapshot : q.snapshot = p.snapshot ∨ q.snapshot = some p.machine.state
  idle : e = .idle ∨ e = .returned true

theorem MovesOn.quiet {p q : Program} {e : Event} (moved : p.MovesOn q e) : e ≠ .executed := by
  rintro rfl
  rcases moved.idle with idle | idle <;> cases idle

/-- A step of the loop is a turn, or leaves the machine alone. -/
theorem loop_cases {p q : Program} {stop pause : Bool} {stdin : Option Byte} {e : Event}
    (taken : p.step (.loop stop pause stdin) = some (e, q)) :
    p.control = .body ∧ p.turn stdin = some (e, q) ∨ p.control ≠ .body ∧ p.MovesOn q e := by
  cases control : p.control with
  | body =>
    rw [step_body control] at taken
    exact .inl ⟨rfl, taken⟩
  | done =>
    rw [step, control] at taken
    cases taken
  | head =>
    rw [step, control] at taken
    refine .inr ⟨by simp, ?_⟩
    cases stop <;> cases taken
    · exact ⟨rfl, rfl, rfl, rfl, .inl rfl, .inl rfl⟩
    · exact ⟨rfl, rfl, rfl, rfl, .inr rfl, .inr rfl⟩
  | paused =>
    rw [step, control] at taken
    refine .inr ⟨by simp, ?_⟩
    dsimp only at taken
    split at taken <;> cases taken
    · exact ⟨rfl, rfl, rfl, rfl, .inl rfl, .inl rfl⟩
    · exact ⟨rfl, rfl, rfl, rfl, .inl rfl, .inl rfl⟩

/-- Outside a turn nothing but the UART's buffers and the loop's own variables change. -/
theorem step_cases {p q : Program} {i : Input} {e : Event} (taken : p.step i = some (e, q)) :
    (∃ stop pause stdin, i = .loop stop pause stdin ∧ p.control = .body ∧
      p.turn stdin = some (e, q)) ∨
    (∃ u, q.machine = { p.machine with uart := u }) ∧ (e = .idle ∨ e = .returned true) := by
  cases i with
  | injectRx byte =>
    cases taken
    exact .inr ⟨⟨_, rfl⟩, .inl rfl⟩
  | popTx =>
    cases taken
    exact .inr ⟨⟨_, rfl⟩, .inl rfl⟩
  | loop stop pause stdin =>
    rcases loop_cases taken with ⟨body, turn⟩ | ⟨-, moved⟩
    · exact .inl ⟨stop, pause, stdin, rfl, body, turn⟩
    · exact .inr ⟨⟨p.machine.uart, moved.machine⟩, moved.idle⟩

end Program

/-- Past service, a turn executes one instruction or ends the program. -/
theorem fetchExecute_outcome {m m' : Machine} {outcome : Outcome}
    (run : fetchExecute.run m = some (outcome, m')) : outcome = .executed ∨ outcome = .failed := by
  obtain ⟨found, m₀, -, run⟩ := Checked.bind_inv run
  cases found with
  | none =>
    cases run
    exact .inr rfl
  | some f =>
    obtain ⟨⟨⟩, _, -, run⟩ := Checked.bind_inv run
    obtain ⟨⟨⟩, _, -, run⟩ := Checked.bind_inv run
    obtain ⟨done, _, -, run⟩ := Checked.bind_inv run
    split at run
    · cases run
      exact .inr rfl
    obtain ⟨pending, _, -, run⟩ := Checked.bind_inv run
    split at run
    · cases run
      exact .inr rfl
    · cases run
      exact .inl rfl

namespace Program

/-- A turn dispatches, executes or fails. -/
inductive Turn (p : Program) (stdin : Option Byte) : Event → Program → Prop
  | dispatched {vec : InterruptVector} (h : (p.servicePoint stdin).dispatches = some vec) :
      Turn p stdin (.dispatched vec) { p.pollUart stdin with
        machine := acknowledge vec ((p.servicePoint stdin).settled.entered vec)
        control := .head }
  | executed {m : Machine} (h : (p.servicePoint stdin).dispatches = none)
      (run : fetchExecute.run (p.servicePoint stdin).settled = some (.executed, m)) :
      Turn p stdin .executed
        { p.pollUart stdin with machine := m, control := .head }.snapshotIfDue.syncIfDue
  | failed {m : Machine} (h : (p.servicePoint stdin).dispatches = none)
      (run : fetchExecute.run (p.servicePoint stdin).settled = some (.failed, m)) :
      Turn p stdin (.returned false)
        { p.pollUart stdin with machine := m, control := .done false }

theorem turn_cases {p q : Program} {stdin : Option Byte} {e : Event}
    (taken : p.turn stdin = some (e, q)) : Turn p stdin e q := by
  cases hd : (p.servicePoint stdin).dispatches with
  | some vec =>
    rw [turn_dispatch hd] at taken
    cases taken
    exact .dispatched hd
  | none =>
    rw [turn_execute hd] at taken
    obtain ⟨⟨outcome, m⟩, run, result⟩ := Option.map_eq_some_iff.mp taken
    rcases fetchExecute_outcome run with rfl | rfl
    · cases result
      exact .executed hd run
    · cases result
      exact .failed hd run

theorem advance_machine (p : Program) : p.snapshotIfDue.syncIfDue.machine = p.machine := by
  unfold syncIfDue snapshotIfDue
  split <;> split <;> rfl

theorem advance_control (p : Program) : p.snapshotIfDue.syncIfDue.control = p.control := by
  unfold syncIfDue snapshotIfDue
  split <;> split <;> rfl

theorem advance_poll (p : Program) :
    p.snapshotIfDue.syncIfDue.nextUartPollCycle = p.nextUartPollCycle := by
  unfold syncIfDue snapshotIfDue
  split <;> split <;> rfl

theorem step_done {p q : Program} {i : Input} {e : Event} {result : Bool}
    (done : p.control = .done result) (taken : p.step i = some (e, q)) :
    q.control = .done result ∧ e = .idle := by
  cases i with
  | loop =>
    rw [step, done] at taken
    cases taken
  | injectRx =>
    cases taken
    exact ⟨done, rfl⟩
  | popTx =>
    cases taken
    exact ⟨done, rfl⟩

/-- After the return nothing but the host moves. -/
theorem done_is_final {ok : Program → Input → Prop} {p q : Program}
    {trace : List (Input × Event)} {result : Bool} (run : Transition.Run step ok p trace q)
    (done : p.control = .done result) :
    q.control = .done result ∧ ∀ x ∈ trace, x.2 = .idle := by
  induction run with
  | nil => exact ⟨done, by simp⟩
  | cons _ taken _ ih =>
    obtain ⟨control, idle⟩ := step_done done taken
    obtain ⟨last, quiet⟩ := ih control
    exact ⟨last, List.forall_mem_cons.mpr ⟨idle, quiet⟩⟩

end Program

end AvrEmulator
