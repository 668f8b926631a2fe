import AvrEmulator.ArrayBounds
import AvrEmulator.Faults
import AvrEmulator.Fetch

/-! Accesses above the data space. Timer0 is asked before the bounds are checked,
and it sees the low byte of the re-based address only. -/

namespace AvrEmulator

open Checked

/-- The access signals a fault and changes nothing but the flag and the report. -/
structure Refuses {α : Type} (x : Emu α) (m : Machine) : Prop where
  signals : Signals x m
  frame : ∀ a m', x.run m = some (a, m') → ∃ error, m' = { m with fault := true, error := error }

/-- The machine after a refused data-space access. -/
def Machine.dataFault (m : Machine) (addr : Word) (access : String) : Machine :=
  { m with
    fault := true
    error := m.error.emuErrorPcAddr m.error.faultPc addr access "invalid data-space access" }

theorem outside_routed {a : Word} (h : 0x08FF < a) : Routed a :=
  ⟨⟨by bv_omega, by bv_omega, by bv_omega, by bv_omega⟩, by bv_omega, by bv_omega⟩

theorem readDataByte_outside {a : Word} (m : Machine) (h : 0x08FF < a) :
    (readDataByte a).run m = match m.timer0.timer0Read (timerIo a) with
      | some value => some (value, m)
      | none => some (0, m.dataFault a "read") := by
  rw [readDataByte_routed m (outside_routed h), if_neg (BitVec.not_le.mpr h)]
  rfl

theorem writeDataByte_outside {a : Word} (m : Machine) (v : Byte) (h : 0x08FF < a) :
    (writeDataByte a v).run m = match m.timer0.timer0Write (timerIo a) v with
      | some timer0 => some ((), { m with timer0 := timer0 })
      | none => some ((), m.dataFault a "write") := by
  rw [writeDataByte_routed m v (outside_routed h), if_neg (BitVec.not_le.mpr h)]
  rfl

/-- Outside the data space a read faults unless Timer0 answers it. -/
theorem readDataByte_fault {a : Word} {m m' : Machine} {value : Byte} (h : 0x08FF < a)
    (run : (readDataByte a).run m = some (value, m')) :
    m'.fault = (m.fault || !Timer0.answers (timerIo a)) := by
  have answered := m.timer0.timer0Read_isSome (timerIo a)
  rw [readDataByte_outside m h] at run
  cases read : m.timer0.timer0Read (timerIo a) with
  | some v =>
    rw [read] at run answered
    cases run
    simp [← answered]
  | none =>
    rw [read] at run answered
    cases run
    simp [← answered, Machine.dataFault]

theorem writeDataByte_fault {a : Word} {m m' : Machine} {v : Byte} (h : 0x08FF < a)
    (run : (writeDataByte a v).run m = some ((), m')) :
    m'.fault = (m.fault || !Timer0.answers (timerIo a)) := by
  have answered := m.timer0.timer0Write_isSome (timerIo a) v
  rw [writeDataByte_outside m v h] at run
  cases written : m.timer0.timer0Write (timerIo a) v with
  | some t =>
    rw [written] at run answered
    cases run
    simp [← answered]
  | none =>
    rw [written] at run answered
    cases run
    simp [← answered, Machine.dataFault]

/-- An access that faults unless it is answered is refused unless it is answered. -/
theorem refuses_iff {α : Type} {x : Emu α} {answered : Bool} (m : Machine) (defined : Defined x)
    (fault : ∀ {m m' : Machine} {a : α}, x.run m = some (a, m') →
      m'.fault = (m.fault || !answered))
    (frame : answered = false → ∀ a m', x.run m = some (a, m') →
      ∃ error, m' = { m with fault := true, error := error }) :
    Refuses x m ↔ answered = false := by
  constructor
  · rintro ⟨⟨a, m', run, set⟩, -⟩
    rw [fault run] at set
    simpa using set
  · intro silent
    obtain ⟨a, m', run⟩ := defined.run { m with fault := false }
    refine ⟨⟨a, m', run, ?_⟩, frame silent⟩
    rw [fault run, silent]
    rfl

theorem refuses_read_iff {a : Word} (m : Machine) (h : 0x08FF < a) :
    Refuses (readDataByte a) m ↔ Timer0.answers (timerIo a) = false := by
  apply refuses_iff m (emu_defined.readDataByte a) (readDataByte_fault h)
  intro silent v m' run
  have none : m.timer0.timer0Read (timerIo a) = none := by
    rw [← Option.not_isSome_iff_eq_none, Timer0.timer0Read_isSome, silent]
    exact Bool.false_ne_true
  rw [readDataByte_outside m h, none] at run
  cases run
  exact ⟨_, rfl⟩

theorem refuses_write_iff {a : Word} (m : Machine) (v : Byte) (h : 0x08FF < a) :
    Refuses (writeDataByte a v) m ↔ Timer0.answers (timerIo a) = false := by
  apply refuses_iff m (writeDataByte_defined a v) (writeDataByte_fault h)
  intro silent _ m' run
  have none : m.timer0.timer0Write (timerIo a) v = none := by
    rw [← Option.not_isSome_iff_eq_none, Timer0.timer0Write_isSome, silent]
    exact Bool.false_ne_true
  rw [writeDataByte_outside m v h, none] at run
  cases run
  exact ⟨_, rfl⟩

/-- The 16-bit pointer in a register pair. -/
def AvrState.pointer (s : AvrState) (pair : Nat) : Word := s.reg (pair + 1) ++ s.reg pair

/-- X, Y or Z, decremented before the access in mode 2. -/
def indirectAddress (s : AvrState) (pair : Nat) (ops : OpsLdSt) : Word :=
  if ops.mode = 2 then s.pointer pair - 1 else s.pointer pair

/-- Y or Z plus a displacement. -/
def displacedAddress (s : AvrState) (pair : Nat) (ops : OpsLdd) : Word :=
  s.pointer pair + ops.q.setWidth 16

/-- The address that a load or store accesses, `none` for any other instruction. -/
def effectiveAddress (s : AvrState) (op : Opcode) (instr secondWord : Word) : Option Word :=
  match op.op with
  | .LD_X | .ST_X => some (indirectAddress s 26 (decodeLdSt instr))
  | .LD_Y | .ST_Y =>
    if op.fmt = .LDD_family then some (displacedAddress s 28 (decodeLdd instr))
    else some (indirectAddress s 28 (decodeLdSt instr))
  | .LD_Z | .ST_Z =>
    if op.fmt = .LDD_family then some (displacedAddress s 30 (decodeLdd instr))
    else some (indirectAddress s 30 (decodeLdSt instr))
  | .LDS | .STS => some (decodeLdsSts instr secondWord).addr
  | _ => none

theorem run_readRegWord {s : AvrState} {pair : Byte} (h : pair.toNat + 1 < 32) :
    (readRegWord pair).run s = some (s.pointer pair.toNat, s) := by
  rw [readRegWord, Checked.run_bind_of (run_regAt (Nat.lt_of_succ_lt h)),
    Checked.run_bind_of (run_regAt h), AvrState.pointer, ← join_bytes, BitVec.or_comm]
  rfl

theorem enterIndirect_pointer {s s' : AvrState} {pair : Byte} {ops : OpsLdSt} {a : Word}
    (h : pair.toNat + 1 < 32) (run : (enterIndirect pair ops.mode).run s = some (a, s')) :
    a = indirectAddress s pair.toNat ops := by
  rw [enterIndirect, Checked.run_bind_of (run_readRegWord h)] at run
  unfold indirectAddress
  split at run
  next pre =>
    obtain ⟨⟨⟩, s₁, -, run⟩ := bind_inv run
    cases run
    rw [if_pos pre]
  next plain =>
    cases run
    rw [if_neg plain]

theorem onCpu_fault {α : Type} {x : Cpu α} {m m' : Machine} {a : α}
    (run : (onCpu x).run m = some (a, m')) : m'.fault = m.fault := by
  obtain ⟨s, -, rfl⟩ := onCpu_inv run
  rfl

section Forms

variable {m m' : Machine} {pair : Byte} (h : pair.toNat + 1 < 32)
include h

theorem loadIndirect_fault {ops : OpsLdSt} {a : Word}
    (run : (loadIndirect pair ops).run m = some ((), m'))
    (address : indirectAddress m.state pair.toNat ops = a) (outside : 0x08FF < a) :
    m'.fault = (m.fault || !Timer0.answers (timerIo a)) := by
  obtain ⟨pointer, m₁, enter, run⟩ := bind_inv run
  obtain ⟨value, m₂, read, run⟩ := bind_inv run
  obtain ⟨⟨⟩, m₃, put, leave⟩ := bind_inv run
  obtain ⟨s, entered, rfl⟩ := onCpu_inv enter
  obtain rfl := (enterIndirect_pointer h entered).trans address
  rw [onCpu_fault leave, onCpu_fault put, readDataByte_fault outside read]
  rfl

theorem storeIndirect_fault {ops : OpsLdSt} {a : Word}
    (run : (storeIndirect pair ops).run m = some ((), m'))
    (address : indirectAddress m.state pair.toNat ops = a) (outside : 0x08FF < a) :
    m'.fault = (m.fault || !Timer0.answers (timerIo a)) := by
  obtain ⟨pointer, m₁, enter, run⟩ := bind_inv run
  obtain ⟨value, m₂, get, run⟩ := bind_inv run
  obtain ⟨⟨⟩, m₃, write, leave⟩ := bind_inv run
  obtain ⟨s, entered, rfl⟩ := onCpu_inv enter
  obtain rfl := (enterIndirect_pointer h entered).trans address
  rw [onCpu_fault leave, writeDataByte_fault outside write, onCpu_fault get]
  rfl

theorem loadDisplaced_fault {ops : OpsLdd} {a : Word}
    (run : (loadDisplaced pair ops).run m = some ((), m'))
    (address : displacedAddress m.state pair.toNat ops = a) (outside : 0x08FF < a) :
    m'.fault = (m.fault || !Timer0.answers (timerIo a)) := by
  rw [loadDisplaced, Checked.run_bind_of (run_onCpu (run_readRegWord h))] at run
  obtain ⟨value, m₁, read, put⟩ := bind_inv run
  change (readDataByte (displacedAddress m.state pair.toNat ops)).run _ = _ at read
  rw [address] at read
  rw [onCpu_fault put, readDataByte_fault outside read]
  rfl

theorem storeDisplaced_fault {ops : OpsLdd} {a : Word}
    (run : (storeDisplaced pair ops).run m = some ((), m'))
    (address : displacedAddress m.state pair.toNat ops = a) (outside : 0x08FF < a) :
    m'.fault = (m.fault || !Timer0.answers (timerIo a)) := by
  rw [storeDisplaced, Checked.run_bind_of (run_onCpu (run_readRegWord h))] at run
  obtain ⟨value, m₁, get, write⟩ := bind_inv run
  change (writeDataByte (displacedAddress m.state pair.toNat ops) value).run _ = _ at write
  rw [address] at write
  rw [writeDataByte_fault outside write, onCpu_fault get]
  rfl

/-- LD and LDD through Y or Z share their operation and differ in the format. -/
theorem loadPair_fault {fmt : AvrFmt} {instr a : Word}
    (run : (if fmt = .LDD_family then loadDisplaced pair (decodeLdd instr)
      else loadIndirect pair (decodeLdSt instr)).run m = some ((), m'))
    (address : (if fmt = .LDD_family
      then some (displacedAddress m.state pair.toNat (decodeLdd instr))
      else some (indirectAddress m.state pair.toNat (decodeLdSt instr))) = some a)
    (outside : 0x08FF < a) :
    m'.fault = (m.fault || !Timer0.answers (timerIo a)) := by
  split at run
  next ldd =>
    rw [if_pos ldd] at address
    exact loadDisplaced_fault h run (Option.some.inj address) outside
  next ld =>
    rw [if_neg ld] at address
    exact loadIndirect_fault h run (Option.some.inj address) outside

theorem storePair_fault {fmt : AvrFmt} {instr a : Word}
    (run : (if fmt = .LDD_family then storeDisplaced pair (decodeLdd instr)
      else storeIndirect pair (decodeLdSt instr)).run m = some ((), m'))
    (address : (if fmt = .LDD_family
      then some (displacedAddress m.state pair.toNat (decodeLdd instr))
      else some (indirectAddress m.state pair.toNat (decodeLdSt instr))) = some a)
    (outside : 0x08FF < a) :
    m'.fault = (m.fault || !Timer0.answers (timerIo a)) := by
  split at run
  next std =>
    rw [if_pos std] at address
    exact storeDisplaced_fault h run (Option.some.inj address) outside
  next st =>
    rw [if_neg st] at address
    exact storeIndirect_fault h run (Option.some.inj address) outside

end Forms

theorem executeLDS_fault {m m' : Machine} {ops : OpsLdsSts} {a : Word}
    (run : (executeLDS ops).run m = some ((), m')) (address : ops.addr = a) (outside : 0x08FF < a) :
    m'.fault = (m.fault || !Timer0.answers (timerIo a)) := by
  subst address
  obtain ⟨value, m₁, read, put⟩ := bind_inv run
  rw [onCpu_fault put, readDataByte_fault outside read]

theorem executeSTS_fault {m m' : Machine} {ops : OpsLdsSts} {a : Word}
    (run : (executeSTS ops).run m = some ((), m')) (address : ops.addr = a) (outside : 0x08FF < a) :
    m'.fault = (m.fault || !Timer0.answers (timerIo a)) := by
  subst address
  obtain ⟨value, m₁, get, write⟩ := bind_inv run
  rw [writeDataByte_fault outside write, onCpu_fault get]

/-- A load or store outside the data space faults unless Timer0 answers it. -/
theorem dispatch_fault {op : Opcode} {instr secondWord : Word} {m m' : Machine} {a : Word}
    (run : (dispatch op instr secondWord).run m = some ((), m'))
    (address : effectiveAddress m.state op instr secondWord = some a) (outside : 0x08FF < a) :
    m'.fault = (m.fault || !Timer0.answers (timerIo a)) := by
  obtain ⟨mask, code, op, fmt, words, cycles, mnemonic⟩ := op
  cases op
  case LD_X => exact loadIndirect_fault (by decide) run (Option.some.inj address) outside
  case ST_X => exact storeIndirect_fault (by decide) run (Option.some.inj address) outside
  case LD_Y => exact loadPair_fault (by decide) run address outside
  case ST_Y => exact storePair_fault (by decide) run address outside
  case LD_Z => exact loadPair_fault (by decide) run address outside
  case ST_Z => exact storePair_fault (by decide) run address outside
  case LDS => exact executeLDS_fault run (Option.some.inj address) outside
  case STS => exact executeSTS_fault run (Option.some.inj address) outside
  all_goals exact absurd address (Option.some_ne_none a).symm

theorem signals_iff {op : Opcode} {instr secondWord : Word} {m : Machine} {a : Word}
    (address : effectiveAddress m.state op instr secondWord = some a) (outside : 0x08FF < a) :
    Signals (executeInstruction op instr secondWord) m ↔ Timer0.answers (timerIo a) = false := by
  have fault {m' : Machine} {result : Bool}
      (run : (executeInstruction op instr secondWord).run { m with fault := false } =
        some (result, m')) : m'.fault = !Timer0.answers (timerIo a) := by
    obtain ⟨⟨⟩, m₁, done, run⟩ := bind_inv run
    cases run
    rw [dispatch_fault done address outside, Bool.false_or]
  constructor
  · rintro ⟨result, m', run, set⟩
    rw [fault run] at set
    simpa using set
  · intro silent
    obtain ⟨result, m', run⟩ :=
      (executeInstruction_defined op instr secondWord).run { m with fault := false }
    exact ⟨result, m', run, by rw [fault run, silent]; rfl⟩

/-! ## The turn -/

/-- An instruction ends the program exactly when it signals a fault. -/
theorem execute_failed_iff {f : Fetched} {m : Machine} :
    (∃ m', (execute f).run m = some (.failed, m')) ↔
      Signals (executeInstruction f.op f.instruction f.extra)
        (m.setState { m.state with extraCycles := 0 }) := by
  refine ⟨?_, run_execute_signals⟩
  rintro ⟨m', run⟩
  obtain ⟨m₁, done, ⟨-, set, -⟩ | ⟨other, -⟩⟩ := execute_inv run
  · exact ⟨true, m₁, run_bind_of done fun _ => pure true, set⟩
  · cases other

/-- The instruction that the loop executes next when service does not dispatch, and
the machine it starts on. -/
def Program.NextInstruction (p : Program) (stdin : Option Byte) (f : Fetched) (m : Machine) :
    Prop :=
  p.control = .body ∧ (p.servicePoint stdin).dispatches = none ∧
    fetch.run (p.servicePoint stdin).settled = some (some f, m)

/-- A load or store above the data space ends the program unless Timer0 answers. -/
theorem Program.returns_false_iff {p : Program} {stop pause : Bool} {stdin : Option Byte}
    {f : Fetched} {m : Machine} {a : Word} (next : p.NextInstruction stdin f m)
    (address : effectiveAddress m.state f.op f.instruction f.extra = some a)
    (outside : 0x08FF < a) :
    (∃ q, p.step (.loop stop pause stdin) = some (.returned false, q)) ↔
      Timer0.answers (timerIo a) = false := by
  obtain ⟨body, idle, fetched⟩ := next
  have signals := signals_iff (m := m.setState { m.state with extraCycles := 0 }) address outside
  have run : fetchExecute.run (p.servicePoint stdin).settled = (execute f).run m := by
    rw [fetchExecute, Checked.run_bind_of fetched]
  rw [Program.step_body body, Program.turn_execute idle, run, ← signals, ← execute_failed_iff]
  constructor
  · rintro ⟨q, returned⟩
    obtain ⟨⟨outcome, m'⟩, done, result⟩ := Option.map_eq_some_iff.mp returned
    cases outcome with
    | failed => exact ⟨m', done⟩
    | dispatched => cases result
    | executed => cases result
  · rintro ⟨m', failed⟩
    exact ⟨_, by rw [failed]; rfl⟩

/-- Above the data space a byte access is refused, and a load or store ends the
program, exactly when Timer0 does not answer the low byte of the re-based address. -/
theorem out_of_range_stops_iff (m : Machine) {a : Word} (outside : 0x08FF < a) :
    (∀ v : Byte, (Refuses (readDataByte a) m ↔ Timer0.answers (timerIo a) = false) ∧
      (Refuses (writeDataByte a v) m ↔ Timer0.answers (timerIo a) = false)) ∧
    (∀ (p : Program) (stop pause : Bool) (stdin : Option Byte) (f : Fetched),
      p.NextInstruction stdin f m →
      effectiveAddress m.state f.op f.instruction f.extra = some a →
      ((∃ q, p.step (.loop stop pause stdin) = some (.returned false, q)) ↔
        Timer0.answers (timerIo a) = false)) :=
  ⟨fun v => ⟨refuses_read_iff m outside, refuses_write_iff m v outside⟩,
    fun _ _ _ _ _ next address => Program.returns_false_iff next address outside⟩

/-- A reset emulator about to execute LDS R0 from 0xFFFF. -/
def beforeInvalidLoad : Program :=
  { Program.start (.initial (Program.firmware [0x9000, 0xFFFF])) true none with control := .body }

/-- Nothing can be stored at RAMEND + 1, and the load from 0xFFFF ends the program. -/
theorem ramend_is_guarded :
    Refuses (writeDataByte 0x0900 0x5A) (.initial .zero) ∧
      ∃ q, beforeInvalidLoad.step Program.go = some (.returned false, q) := by
  have idle : (beforeInvalidLoad.servicePoint none).dispatches = none := by decide +kernel
  have lds : (fetch.run (beforeInvalidLoad.servicePoint none).settled).map
      (fun x => x.1.map fun f => (f.op.op, f.extra)) = some (some (.LDS, 0xFFFF)) := by
    decide +kernel
  obtain ⟨⟨found, m⟩, fetched, shown⟩ := Option.map_eq_some_iff.mp lds
  obtain ⟨f, rfl, fields⟩ := Option.map_eq_some_iff.mp shown
  obtain ⟨op, extra⟩ := Prod.mk.inj fields
  have address : effectiveAddress m.state f.op f.instruction f.extra = some 0xFFFF := by
    simp only [effectiveAddress, op, decodeLdsSts, extra]
  exact ⟨((out_of_range_stops_iff (.initial .zero) (by decide)).1 0x5A).2.mpr (by decide),
    ((out_of_range_stops_iff m (by decide)).2 beforeInvalidLoad false false none f
      ⟨rfl, idle, fetched⟩ address).mpr (by decide)⟩

/-- 0x0935 is cut to the address of TIFR0, which answers. -/
theorem out_of_range_store_is_answered :
    (0x08FF : Word) < 0x0935 ∧ ∃ m', (writeDataByte 0x0935 0x5A).run (.initial .zero) =
      some ((), m') ∧ m'.fault = false :=
  ⟨by decide, _, rfl, rfl⟩

end AvrEmulator
