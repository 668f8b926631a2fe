import AvrEmulator.ArithmeticFlags
import AvrEmulator.Clock
import AvrEmulator.Disassembly
import AvrEmulator.Library.Stretch
import AvrEmulator.MultiByte

/-! Routines of the firmware. With interrupts off, what an instruction that only uses
registers, SRAM and flash makes of the CPU does not depend on the peripherals, and so
neither on the host. -/

namespace AvrEmulator

open Checked Transition

/-- With interrupts off, and whatever the peripherals hold, the next instruction turns the
CPU from one state into another. -/
structure Executes (s s' : AvrState) : Prop where
  masked : s.getFlag .I = false
  run : ∀ m : Machine, m.state = s → ∃ m', fetchExecute.run m = some (.executed, m') ∧ m'.state = s'

theorem executes_functional (s a b : AvrState) (one : Executes s a) (other : Executes s b) :
    a = b := by
  obtain ⟨m, run, rfl⟩ := one.run (.initial s) rfl
  obtain ⟨m', run', rfl⟩ := other.run (.initial s) rfl
  rw [run] at run'
  cases run'
  rfl

theorem ViewEffect.onCpu {x : Cpu Unit} {s s' : AvrState} (run : x.run s = some ((), s')) :
    ViewEffect Machine.state (AvrEmulator.onCpu x) s s' := by
  rintro n rfl
  exact ⟨_, run_onCpu run, rfl, rfl⟩

/-- These words are in flash from a byte address on. -/
def AvrState.CodeAt (s : AvrState) (a : Word) (ws : List Word) : Prop :=
  ∀ i (h : i < ws.length), a.toNat + 2 * i + 1 < avrFlashSize ∧
    s.flashWord (a.toNat + 2 * i) = ws[i]

instance (s : AvrState) (a : Word) (ws : List Word) : Decidable (s.CodeAt a ws) := by
  unfold AvrState.CodeAt
  infer_instance

theorem AvrState.CodeAt.same {s s' : AvrState} {a : Word} {ws : List Word} (code : s.CodeAt a ws)
    (flash : s'.flash = s.flash) : s'.CodeAt a ws := by
  intro i h
  rw [AvrState.flashWord, flash]
  exact code i h

/-- The word of the code that the program counter is at. -/
theorem AvrState.CodeAt.here {s : AvrState} {a : Word} {ws : List Word} {i : Nat} {w : Word}
    (code : s.CodeAt a ws) (here : ws[i]? = some w) (pc : s.pc = a + BitVec.ofNat 16 (2 * i)) :
    s.pc.toNat = a.toNat + 2 * i ∧ s.pc.toNat + 1 < avrFlashSize ∧
      s.flashWord s.pc.toNat = w := by
  obtain ⟨inside, rfl⟩ := List.getElem?_eq_some_iff.mp here
  obtain ⟨room, word⟩ := code i inside
  have room : a.toNat + 2 * i + 1 < 32768 := room
  have address : s.pc.toNat = a.toNat + 2 * i := by
    rw [pc, BitVec.toNat_add, BitVec.toNat_ofNat]
    omega
  rw [← address] at room word
  exact ⟨address, room, word⟩

/-- The state in which an executor of a one-word instruction starts. -/
def AvrState.begun (s : AvrState) : AvrState := { s with pc := s.pc + 2, extraCycles := 0 }

/-- The state once the loop has charged an instruction of so many cycles. -/
def AvrState.charged (s : AvrState) (cycles : Nat) : AvrState :=
  { s with cycleCount := s.cycleCount + BitVec.ofNat 64 (cycles + s.extraCycles.toNat) }

/-- A one-word instruction at some place of the code. -/
theorem executes_at {s s' : AvrState} {a : Word} {ws : List Word} {i : Nat} {w : Word}
    {row : Opcode} (masked : s.getFlag .I = false) (code : s.CodeAt a ws)
    (here : ws[i]? = some w) (pc : s.pc = a + BitVec.ofNat 16 (2 * i))
    (found : decodeInstruction w = some row) (short : row.words ≠ 2)
    (effect : ViewEffect Machine.state (dispatch row w 0) s.begun s') :
    Executes s (s'.charged row.cyclesMin.toNat) := by
  obtain ⟨-, room, rfl⟩ := code.here here pc
  refine ⟨masked, ?_⟩
  rintro m rfl
  have began (error : ErrorState) : (m.begun row error).state = m.state.begun := by
    rw [Machine.begun, if_neg short]
    rfl
  obtain ⟨n, m', state, timed, run⟩ :=
    run_whole room found (fun long => absurd long short) (if_neg short) began effect
  refine ⟨m', run, ?_⟩
  cases timed
  change ({ n.state with cycleCount := n.state.cycleCount +
    (row.cyclesMin.setWidth 16 + n.state.extraCycles.setWidth 16 : Word).setWidth 64 } :
      AvrState) = s'.charged row.cyclesMin.toNat
  rw [(total_cycles _ _).2, state]
  rfl

/-- Beside SRAM, these registers, the clock, the program counter and the arithmetic flags
the CPU is as it was. -/
structure Spares (registers : List Nat) (s s' : AvrState) : Prop where
  reg : ∀ i, i ∉ registers → s'.reg i = s.reg i
  flags : ∀ b ∈ [SregBit.T, .I], s'.getFlag b = s.getFlag b
  sp : s'.sp = s.sp
  flash : s'.flash = s.flash
  eeprom : s'.eeprom = s.eeprom

namespace Spares

variable {registers : List Nat} {a b c : AvrState}

/-- Nothing but the clock and the program counter. -/
theorem same (r : b.r = a.r) (sreg : b.sreg = a.sreg) (sp : b.sp = a.sp)
    (flash : b.flash = a.flash) (eeprom : b.eeprom = a.eeprom) : Spares registers a b where
  reg i _ := by rw [AvrState.reg, r, AvrState.reg]
  flags f _ := by rw [AvrState.getFlag, sreg, AvrState.getFlag]
  sp := sp
  flash := flash
  eeprom := eeprom

theorem refl (a : AvrState) : Spares registers a a := same rfl rfl rfl rfl rfl

theorem trans (first : Spares registers a b) (rest : Spares registers b c) :
    Spares registers a c where
  reg i other := (rest.reg i other).trans (first.reg i other)
  flags f kept := (rest.flags f kept).trans (first.flags f kept)
  sp := rest.sp.trans first.sp
  flash := rest.flash.trans first.flash
  eeprom := rest.eeprom.trans first.eeprom

theorem pointer (h : Spares registers a b) {i : Nat} (low : i ∉ registers)
    (high : i + 1 ∉ registers) : b.pointer i = a.pointer i := by
  rw [AvrState.pointer, h.reg i low, h.reg (i + 1) high, AvrState.pointer]

theorem weaken {more : List Nat} (h : Spares registers a b) (subset : registers ⊆ more) :
    Spares more a b where
  reg i other := h.reg i fun member => other (subset member)
  flags := h.flags
  sp := h.sp
  flash := h.flash
  eeprom := h.eeprom

/-- The loop's part of an instruction around what its executor does. -/
theorem around {cycles : Nat} (h : Spares registers a.begun b) :
    Spares registers a (b.charged cycles) := by
  have begun : Spares registers a a.begun := same rfl rfl rfl rfl rfl
  have charged : Spares registers b (b.charged cycles) := same rfl rfl rfl rfl rfl
  exact begun.trans (h.trans charged)

theorem of_contract {op : Arithmetic} {w : Word}
    (contract : ArithmeticContract op [.ADC, .SBC, .SBCI, .CPC] w a b)
    (written : (op.written w a).map Prod.fst ⊆ registers) : Spares registers a b where
  reg i other := contract.others i fun member => other (written member)
  flags f member := by
    rw [contract.flags f]
    rcases List.mem_cons.mp member with rfl | member
    · rfl
    · rw [List.mem_singleton.mp member]
      rfl
  sp := by rw [contract.frame]
  flash := by rw [contract.frame]
  eeprom := by rw [contract.frame]

end Spares

/-! ## Effects -/

section Effects

variable {row : Opcode} {w : Word} {s : AvrState}

theorem arithmetic_effect (row : Opcode) {op : Arithmetic} (hop : arithmetic row.op = some op)
    (w : Word) (s : AvrState) : ∃ s', ViewEffect Machine.state (dispatch row w 0) s s' ∧
      ArithmeticContract op [.ADC, .SBC, .SBCI, .CPC] w s s' := by
  rw [op.dispatch_eq hop]
  cases h : op.isWord with
  | true => exact ⟨_, .onCpu (op.run_program_word h w s), op.contract_afterWord h w s⟩
  | false => exact ⟨_, .onCpu (op.run_program h w s), op.contract_after h w s⟩

/-- The row that all branches on a clear flag decode to. -/
def brbc : Opcode := ⟨0xFC00, 0xF400, .BRBC, .k7, 1, 1, "BRBC"⟩

theorem branch_registers (s : AvrState) (k : Byte) :
    ((s.begun.branch k).charged 1).r = s.r := rfl

theorem branch_charged (s : AvrState) (k : Byte) :
    ((s.begun.branch k).charged 1).cycleCount = s.cycleCount + BitVec.ofNat 64 2 := rfl

/-- A branch that is taken. -/
theorem branch_spares (s : AvrState) (k : Byte) :
    Spares [] s ((s.begun.branch k).charged 1) ∧ ((s.begun.branch k).charged 1).sram = s.sram ∧
      ((s.begun.branch k).charged 1).pc = s.pc + 2 + k.signExtend 16 * 2 :=
  ⟨.same rfl rfl rfl rfl rfl, rfl, rfl⟩

/-- BRNE branches where Z is clear. -/
theorem brne_effect (w : Word) (bit : w.extractLsb' 0 3 = 1) (s : AvrState) :
    ViewEffect Machine.state (dispatch brbc w 0) s
      (if s.getFlag .Z then s else s.branch (decodeK7 w).k) := by
  have flag : sregBit s.sreg (decodeK7 w).s.toNat = s.getFlag .Z := by
    rw [decodeK7_s, bit]
    rfl
  change ViewEffect Machine.state (onCpu (executeBRBC (decodeK7 w))) s _
  apply ViewEffect.onCpu
  rw [executeBRBC, run_branchIf, flag]
  cases s.getFlag .Z <;> rfl

/-- BRNE takes a cycle, and one more where it branches. -/
theorem executes_brne {s : AvrState} {a : Word} {ws : List Word} {i : Nat} {w : Word}
    (masked : s.getFlag .I = false) (code : s.CodeAt a ws) (here : ws[i]? = some w)
    (pc : s.pc = a + BitVec.ofNat 16 (2 * i)) (found : decodeInstruction w = some brbc)
    (bit : w.extractLsb' 0 3 = 1) :
    Executes s
      ((if s.getFlag .Z then s.begun else s.begun.branch (decodeK7 w).k).charged 1) := by
  have executes :=
    executes_at masked code here pc found (by decide) (brne_effect w bit s.begun)
  have flag : s.begun.getFlag .Z = s.getFlag .Z := rfl
  have one : brbc.cyclesMin.toNat = 1 := rfl
  rw [flag, one] at executes
  exact executes

theorem rjmp_effect (op : row.op = .RJMP) :
    ViewEffect Machine.state (dispatch row w 0) s { s with pc := s.pc + (decodeK02 w).k * 2 } := by
  have same : dispatch row w 0 = onCpu (executeRJMP (decodeK02 w)) := by simp only [dispatch, op]
  rw [same]
  exact .onCpu rfl

theorem lpm_effect (op : row.op = .LPM) (fmt : row.fmt ≠ .NONE)
    (inside : (s.pointer 30).toNat < avrFlashSize) :
    ViewEffect Machine.state (dispatch row w 0) s
      (s.loadedLpm (w.extractLsb' 4 5).toNat ((w &&& 1).setWidth 8)) := by
  rintro n rfl
  have dest : (decodeRd w).d.toNat < 32 := by rw [decodeRd_d]; omega
  have same : dispatch row w 0 = executeLPM (decodeRd w) ((w &&& 1).setWidth 8) := by
    simp only [dispatch, op, fmt, if_false]
  have run := run_executeLPM ((w &&& 1).setWidth 8) dest inside
  rw [← same, decodeRd_d] at run
  exact ⟨_, run, rfl, rfl⟩

end Effects

/-- SRAM after a store there: where Timer0 answers, the byte goes to the timer. -/
def AvrState.stored (s : AvrState) (a : Word) (v : Byte) : AvrState :=
  if Shadowed a then s else { s with sram := s.sram.poke a.toNat v }

def AvrState.withPointer (s : AvrState) (i : Nat) (p : Word) : AvrState :=
  (s.setReg i ((p &&& 0xFF).setWidth 8)).setReg (i + 1) ((p >>> 8).setWidth 8)

theorem writeDataByte_effect {a : Word} (low : 0x0100 ≤ a) (high : a ≤ 0x08FF) (v : Byte)
    (s : AvrState) : ViewEffect Machine.state (writeDataByte a v) s (s.stored a v) := by
  rintro n rfl
  have answers := n.timer0.timer0Write_isSome (timerIo a) v
  have shadowed : Shadowed a ↔ Timer0.answers (timerIo a) = true :=
    ⟨fun h => h.2.2, fun h => ⟨low, high, h⟩⟩
  rw [writeDataByte_routed n v (sram_routed low), AvrState.stored]
  cases write : n.timer0.timer0Write (timerIo a) v with
  | some timer0 =>
    rw [write] at answers
    rw [if_pos (shadowed.mpr answers.symm)]
    exact ⟨_, rfl, rfl, rfl⟩
  | none =>
    rw [write] at answers
    have free : ¬ Shadowed a := by
      rw [shadowed, ← answers]
      exact Bool.false_ne_true
    rw [if_neg free]
    dsimp only
    rw [if_pos high]
    exact ⟨_, rfl, rfl, rfl⟩

theorem decodeLdSt_register (w : Word) :
    (decodeLdSt w).d.toNat = (w.extractLsb' 4 5).toNat := decodeRd_d w

/-- ST X+, the register being read before the pointer moves. -/
theorem st_x_effect {row : Opcode} {w : Word} {s : AvrState} (op : row.op = .ST_X)
    (mode : (decodeLdSt w).mode = 1) (low : 0x0100 ≤ s.pointer 26) (high : s.pointer 26 ≤ 0x08FF) :
    ViewEffect Machine.state (dispatch row w 0) s
      ((s.stored (s.pointer 26) (s.reg (w.extractLsb' 4 5).toNat)).withPointer 26
        (s.pointer 26 + 1)) := by
  rintro n rfl
  have dest : (decodeLdSt w).d.toNat < 32 := by rw [decodeLdSt_register]; omega
  have same : dispatch row w 0 = storeIndirect 26 (decodeLdSt w) := by
    simp only [dispatch, op, executeST_X]
  have enter : (onCpu (enterIndirect 26 (decodeLdSt w).mode)).run n =
      some (n.state.pointer 26, n) := by
    apply run_onCpu (s := n.state)
    rw [mode, enterIndirect, run_bind_of (run_readRegWord (by decide))]
    rfl
  have value : (onCpu (regAt (decodeLdSt w).d.toNat)).run n =
      some (n.state.reg (w.extractLsb' 4 5).toNat, n) := by
    rw [run_onCpu (run_regAt dest), decodeLdSt_register]
    rfl
  obtain ⟨n', write, fault, state⟩ := writeDataByte_effect low high
    (n.state.reg (w.extractLsb' 4 5).toNat) n.state n rfl
  have leave : (onCpu (leaveIndirect 26 (decodeLdSt w).mode (n.state.pointer 26))).run n' =
      some ((), n'.setState (n'.state.withPointer 26 (n.state.pointer 26 + 1))) := by
    apply run_onCpu
    rw [mode, leaveIndirect, if_pos rfl, writeRegWord, run_bind_of (run_setRegAt _ (by decide)),
      run_setRegAt _ (by decide)]
    rfl
  have run : (dispatch row w 0).run n =
      some ((), n'.setState (n'.state.withPointer 26 (n.state.pointer 26 + 1))) := by
    rw [same, storeIndirect, run_bind_of enter, run_bind_of value, run_bind_of write, leave]
  exact ⟨_, run, fault, congrArg (fun s => s.withPointer 26 (n.state.pointer 26 + 1)) state⟩

/-- An instruction was executed. -/
def Event.isExecuted : Event → Bool
  | .executed => true
  | _ => false

/-- The host acted, or stopped the program. -/
def Event.isQuiet : Event → Bool
  | .idle | .returned true => true
  | _ => false

theorem marks_executed (trace : List (Input × Event)) :
    marks Event.isExecuted trace = executions trace := by
  induction trace with
  | nil => rfl
  | cons x trace ih =>
    obtain ⟨i, e⟩ := x
    have sum : executions ((i, e) :: trace) = e.executes + executions trace := rfl
    rw [sum, ← ih, marks, List.countP_cons, Nat.add_comm]
    cases e <;> rfl

namespace Program

def cpu (p : Program) : AvrState := p.machine.state

/-- The host cannot change what the code does. -/
theorem code_views : Views step anything cpu Executes Event.isExecuted Event.isQuiet where
  moves := by
    intro p i e q b _ taken executes
    rcases step_cases taken with ⟨stop, pause, stdin, rfl, -, turn⟩ | ⟨⟨u, same⟩, other⟩
    · have idle := masked_idle executes.masked stdin
      obtain ⟨m, run, rfl⟩ := executes.run _ (p.settled_servicePoint_state stdin)
      cases turn_cases turn with
      | dispatched dispatches =>
        rw [idle] at dispatches
        cases dispatches
      | executed _ run' =>
        rw [run] at run'
        cases run'
        exact .inl ⟨rfl, congrArg Machine.state (advance_machine _)⟩
      | failed _ run' =>
        rw [run] at run'
        cases run'
    · have state : q.cpu = p.cpu := by
        rw [cpu, same]
        rfl
      rcases other with rfl | rfl <;> exact .inr ⟨rfl, rfl, state⟩

/-- An undisturbed emulator thread executes the instruction. -/
theorem follow_code (p : Program) (b : AvrState) (control : p.control = .head)
    (executes : Executes p.cpu b) : ∃ trace q, Run step anything p trace q ∧ q.control = .head ∧
      q.cpu = b ∧ marks Event.isExecuted trace = 1 := by
  let u : Program := { p with control := .body }
  have first : p.step go = some (.idle, { p with control := .paused }) := by
    rw [go, step, control]
    rfl
  have second : Program.step { p with control := .paused } go = some (.idle, u) := rfl
  have idle : (u.servicePoint none).dispatches = none :=
    masked_idle (p := u) executes.masked none
  obtain ⟨m, run, rfl⟩ := executes.run _ (u.settled_servicePoint_state none)
  let q := { u.pollUart none with machine := m, control := .head }.snapshotIfDue.syncIfDue
  have third : u.step go = some (.executed, q) := by
    rw [go, step_body rfl, turn_execute idle, run]
    rfl
  exact ⟨_, q, .cons trivial first (.cons trivial second (.cons trivial third (.nil q))),
    advance_control _, congrArg Machine.state (advance_machine _), rfl⟩

/-- Whatever the host does, the program executes so many instructions before anything but a
host's action happens, and is then at its goal. An emulator thread at the head of its loop
can be run until it is. -/
structure Passes (p : Program) (n : Nat) (during goal : AvrState → Prop) : Prop where
  always : ∀ trace q, Run step anything p trace q →
    (executions trace < n ∧ Calm Event.isExecuted Event.isQuiet trace ∧ during q.cpu) ∨
    ∃ before later u, trace = before ++ later ∧ Run step anything p before u ∧
      Run step anything u later q ∧ Calm Event.isExecuted Event.isQuiet before ∧
      executions before = n ∧ goal u.cpu
  ends : p.control = .head → ∃ trace u, Run step anything p trace u ∧ u.control = .head ∧
    executions trace = n ∧ goal u.cpu

theorem passes {p : Program} {n : Nat} {b : AvrState} {during goal : AvrState → Prop}
    (steps : Steps Executes n p.cpu b) (reached : goal b)
    (inside : ∀ k s, k < n → Steps Executes k p.cpu s → during s) :
    p.Passes n during goal where
  always := by
    intro trace q run
    rcases run.along code_views steps with ⟨calm, k, total, sofar, -⟩ |
      ⟨before, later, u, split, first, rest, calm, total, rfl⟩
    · rw [marks_executed] at total sofar
      have early : executions trace < n := by omega
      exact .inl ⟨early, calm, inside _ _ early sofar⟩
    · rw [marks_executed] at total
      exact .inr ⟨before, later, u, split, first, rest, calm, total, reached⟩
  ends := by
    intro control
    obtain ⟨trace, u, run, ready, rfl, total⟩ :=
      steps.realised Event.isExecuted follow_code control rfl
    rw [marks_executed] at total
    exact ⟨trace, u, run, ready, total, reached⟩

end Program

end AvrEmulator
