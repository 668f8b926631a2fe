import AvrEmulator.ArrayBounds
import AvrEmulator.Library.Transition

/-! The I/O registers that are cells of `sram[]`, and what SBI and CBI do to an
I/O register. TIFR0 is the one register in their reach that is written with ones
to clear it. -/

namespace AvrEmulator

open Checked Transition

/-- An address that reaches its cell of `sram[]` past every peripheral. -/
structure Cell (a : Word) : Prop where
  routed : ¬ a < 0x20 ∧ a ≠ 0x5D ∧ a ≠ 0x5E ∧ a ≠ 0x5F
  timer : Timer0.answers (timerIo a) = false
  uart : ¬ (a ≥ 0xC0 ∧ a ≤ 0xC6) ∧ ¬ (a ≥ 0x29 ∧ a ≤ 0x2D)
  inside : a ≤ 0x08FF

def Machine.withCell (m : Machine) (a : Word) (v : Byte) : Machine :=
  m.setState { m.state with sram := m.state.sram.poke a.toNat v }

theorem Cell.bound {a : Word} (h : Cell a) : a.toNat < avrSramSize := by
  have inside := h.inside
  show a.toNat < 2304
  bv_omega

theorem readDataByte_cell {a : Word} (m : Machine) (h : Cell a) :
    (readDataByte a).run m = some (m.state.sram.peek a.toNat, m) := by
  have silent : m.timer0.timer0Read (timerIo a) = none := by
    rw [← Option.not_isSome_iff_eq_none, Timer0.timer0Read_isSome]
    exact ne_true_of_eq_false h.timer
  rw [readDataByte_routed m ⟨h.routed, h.uart⟩, silent]
  exact if_pos h.inside

theorem writeDataByte_cell {a : Word} (m : Machine) (v : Byte) (h : Cell a) :
    (writeDataByte a v).run m = some ((), m.withCell a v) := by
  have silent : m.timer0.timer0Write (timerIo a) v = none := by
    rw [← Option.not_isSome_iff_eq_none, Timer0.timer0Write_isSome]
    exact ne_true_of_eq_false h.timer
  rw [writeDataByte_routed m v ⟨h.routed, h.uart⟩, silent]
  exact if_pos h.inside

inductive BitOp where
  | sbi | cbi
  deriving DecidableEq, Repr

namespace BitOp

def op : BitOp → AvrOp
  | .sbi => .SBI
  | .cbi => .CBI

def execute (f : BitOp) (ops : OpsIOB) : Emu Unit :=
  match f with
  | .sbi => executeSBI ops
  | .cbi => executeCBI ops

/-- The byte the instruction stores back for the byte it read. -/
def value (f : BitOp) (b x : Byte) : Byte :=
  match f with
  | .sbi => x ||| ((1 : Byte) <<< b.toNat)
  | .cbi => x &&& ~~~((1 : Byte) <<< b.toNat)

theorem run_execute {f : BitOp} {ops : OpsIOB} {m m' : Machine} {x : Byte}
    (read : (readDataByte (ioDataAddr ops.a)).run m = some (x, m))
    (write : (writeDataByte (ioDataAddr ops.a) (f.value ops.b x)).run m = some ((), m')) :
    (f.execute ops).run m = some ((), m') := by
  cases f <;> exact (run_bind_of read _).trans write

theorem getLsbD_value (f : BitOp) {b : Byte} (x : Byte) (hb : b.toNat < 8) (k : Nat) :
    (f.value b x).getLsbD k =
      if k = b.toNat then decide (f = .sbi) else x.getLsbD k := by
  cases f
  · rw [value, BitVec.getLsbD_or, Bits.getLsbD_one_shl]
    by_cases h : k = b.toNat <;> simp [h, hb]
  · rw [value, BitVec.getLsbD_and, BitVec.getLsbD_not, Bits.getLsbD_one_shl]
    by_cases h : k = b.toNat
    · simp [h]
    · by_cases inside : k < 8
      · simp [h, inside]
      · simp [h, x.getLsbD_of_ge k (Nat.le_of_not_lt inside)]

/-- Writing the byte back to a write-1-to-clear register leaves at most bit `b`. -/
theorem getLsbD_cleared (f : BitOp) {b : Byte} (x : Byte) (hb : b.toNat < 8) (k : Nat) :
    (x &&& ~~~f.value b x).getLsbD k =
      (x.getLsbD k && decide (k = b.toNat ∧ f = .cbi)) := by
  rw [BitVec.getLsbD_and, BitVec.getLsbD_not, getLsbD_value f x hb]
  by_cases inside : k < 8
  · by_cases h : k = b.toNat
    · cases f <;> simp [h, hb]
    · cases x.getLsbD k <;> simp [h, inside]
  · rw [BitVec.getLsbD_of_ge x k (by omega)]
    rfl

end BitOp

/-- TIFR0's I/O address. -/
def tifr0Io : Byte := 0x15

/-- An I/O register in reach of SBI and CBI and outside the UART window. -/
structure BitAddress (ops : OpsIOB) : Prop where
  register : ops.a < 0x20
  bit : ops.b.toNat < 8
  window : ¬ (0x09 ≤ ops.a ∧ ops.a ≤ 0x0D)

/-- What the documentation of SBI and CBI says: the register changes in bit `b` at
most, from the value `old` it reads before to `new` after, and nothing else does. -/
structure BitContract (f : BitOp) (ops : OpsIOB) (m m' : Machine) (old new : Byte) : Prop where
  others : ∀ k, k ≠ ops.b.toNat → new.getLsbD k = old.getLsbD k
  plain : ops.a ≠ tifr0Io → new.getLsbD ops.b.toNat = decide (f = .sbi)
  flag : ops.a = tifr0Io →
    new.getLsbD ops.b.toNat = (old.getLsbD ops.b.toNat && decide (f = .cbi))
  frame : m' = if ops.a = tifr0Io then { m with timer0 := { m.timer0 with tifr0 := new } }
    else m.withCell (ioDataAddr ops.a) new

/-- Executed from `m`, the instruction meets the contract. -/
def BitLaw (f : BitOp) (ops : OpsIOB) (m : Machine) : Prop :=
  ∃ m' old new, (readDataByte (ioDataAddr ops.a)).run m = some (old, m) ∧
    (f.execute ops).run m = some ((), m') ∧
    (readDataByte (ioDataAddr ops.a)).run m' = some (new, m') ∧ BitContract f ops m m' old new

/-- No flag but the addressed one is set in TIFR0, if that is the register. -/
def Alone (ops : OpsIOB) (m : Machine) : Prop :=
  ops.a = tifr0Io → ∀ k, k ≠ ops.b.toNat → m.timer0.tifr0.getLsbD k = false

theorem cell_ioDataAddr {ops : OpsIOB} (h : BitAddress ops) (plain : ops.a ≠ tifr0Io) :
    Cell (ioDataAddr ops.a) := by
  have register := h.register
  have window := h.window
  have addr : ioDataAddr ops.a = 0x20 + ops.a.setWidth 16 := rfl
  have timer : timerIo (ioDataAddr ops.a) = ops.a := by
    rw [timerIo, addr]
    bv_omega
  generalize ha : ops.a = a at *
  refine ⟨⟨?_, ?_, ?_, ?_⟩, ?_, ⟨?_, ?_⟩, ?_⟩
  case refine_5 =>
    rw [timer]
    unfold tifr0Io at plain
    simp only [Timer0.answers, List.contains_cons, List.contains_nil, Bool.or_false,
      Bool.or_eq_false_iff, beq_eq_false_iff_ne]
    refine ⟨?_, ?_, ?_, ?_, ?_, ?_, plain⟩ <;> bv_omega
  all_goals
    rw [addr]
    bv_omega

/-! ## The two kinds of register -/

theorem run_plain {f : BitOp} {ops : OpsIOB} (m : Machine) (h : BitAddress ops)
    (plain : ops.a ≠ tifr0Io) :
    (f.execute ops).run m = some ((), m.withCell (ioDataAddr ops.a)
      (f.value ops.b (m.state.sram.peek (ioDataAddr ops.a).toNat))) :=
  have cell := cell_ioDataAddr h plain
  BitOp.run_execute (readDataByte_cell m cell) (writeDataByte_cell m _ cell)

theorem run_tifr0 {f : BitOp} {ops : OpsIOB} (m : Machine) (flag : ops.a = tifr0Io) :
    (f.execute ops).run m = some ((), { m with timer0 := { m.timer0 with
      tifr0 := m.timer0.tifr0 &&& ~~~f.value ops.b m.timer0.tifr0 } }) := by
  have addr : ioDataAddr ops.a = 0x35 := by
    rw [flag]
    decide
  refine BitOp.run_execute (x := m.timer0.tifr0) ?_ ?_
  · rw [addr]
    rfl
  · rw [addr]
    rfl

theorem bitLaw_plain {f : BitOp} {ops : OpsIOB} (m : Machine) (h : BitAddress ops)
    (plain : ops.a ≠ tifr0Io) : BitLaw f ops m := by
  have cell := cell_ioDataAddr h plain
  have bits := f.getLsbD_value (m.state.sram.peek (ioDataAddr ops.a).toNat) h.bit
  refine ⟨_, _, _, readDataByte_cell m cell, run_plain m h plain, readDataByte_cell _ cell, ?_⟩
  have back (v : Byte) : (m.withCell (ioDataAddr ops.a) v).state.sram.peek
      (ioDataAddr ops.a).toNat = v := Cells.peek_poke_self _ _ cell.bound
  rw [back]
  constructor
  case others =>
    intro k other
    rw [bits, if_neg other]
  case plain =>
    intro _
    rw [bits, if_pos rfl]
  case flag => exact fun flag => absurd flag plain
  case frame => rw [if_neg plain]

/-- On TIFR0 the read-modify-write clears every flag it read as set. -/
theorem bitLaw_tifr0_iff {f : BitOp} {ops : OpsIOB} (m : Machine) (hb : ops.b.toNat < 8)
    (flag : ops.a = tifr0Io) : BitLaw f ops m ↔ Alone ops m := by
  have addr : ioDataAddr ops.a = 0x35 := by
    rw [flag]
    decide
  have read (m : Machine) :
      (readDataByte (ioDataAddr ops.a)).run m = some (m.timer0.tifr0, m) := by
    rw [addr]
    rfl
  have bits := f.getLsbD_cleared m.timer0.tifr0 hb
  constructor
  · rintro ⟨m', old, new, before, run, after, contract⟩ - k other
    have kept := contract.others k other
    rw [read] at before after
    rw [run_tifr0 m flag] at run
    cases before
    cases run
    cases after
    rw [bits] at kept
    simpa [other] using kept.symm
  · intro alone
    refine ⟨_, _, _, read m, run_tifr0 m flag, read _, ?_⟩
    constructor
    case others =>
      intro k other
      rw [bits, alone flag k other, Bool.false_and]
    case plain => exact fun plain => absurd flag plain
    case flag =>
      intro _
      rw [bits]
      simp
    case frame => rw [if_pos flag]

theorem bitLaw_iff {f : BitOp} {ops : OpsIOB} (m : Machine) (h : BitAddress ops) :
    BitLaw f ops m ↔ Alone ops m := by
  by_cases flag : ops.a = tifr0Io
  · exact bitLaw_tifr0_iff m h.bit flag
  · exact iff_of_true (bitLaw_plain m h flag) fun h => absurd h flag

/-- The instruction executes what the operands say. -/
theorem executeInstruction_bitOp {f : BitOp} {row : Opcode} (instr secondWord : Word)
    (op : row.op = f.op) : executeInstruction row instr secondWord = (do
      f.execute (decodeIOB instr)
      return true) := by
  obtain ⟨mask, code, op', fmt, words, cycles, mnemonic⟩ := row
  cases f <;> (subst op; rfl)

theorem decodeIOB_lt (instr : Word) :
    (decodeIOB instr).a < 0x20 ∧ (decodeIOB instr).b.toNat < 8 :=
  ⟨Nat.lt_succ_of_le (field_le _ 0x1F), Nat.lt_succ_of_le (field_le _ 0x07)⟩

/-- One instruction of a sequence. -/
def bitStep (m : Machine) (x : BitOp × OpsIOB) : Option (Unit × Machine) :=
  ((x.1.execute x.2).run m).map fun p => ((), p.2)

def BitAllowed (m : Machine) (x : BitOp × OpsIOB) : Prop := BitAddress x.2 ∧ Alone x.2 m

/-- The instruction is SBI on this flag of TIFR0. -/
def ClearsFlag (k : Nat) (x : BitOp × OpsIOB) : Prop :=
  x.1 = .sbi ∧ x.2.a = tifr0Io ∧ x.2.b.toNat = k

theorem bitStep_flag {m m' : Machine} {x : BitOp × OpsIOB} {k : Nat} (allowed : BitAllowed m x)
    (taken : bitStep m x = some ((), m')) (set : m.timer0.tifr0.getLsbD k = true)
    (other : ¬ ClearsFlag k x) : m'.timer0.tifr0.getLsbD k = true := by
  obtain ⟨f, ops⟩ := x
  obtain ⟨address, alone⟩ := allowed
  by_cases flag : ops.a = tifr0Io
  · rw [bitStep, run_tifr0 m flag] at taken
    cases taken
    have bit : k = ops.b.toNat := by
      by_contra ne
      rw [alone flag k ne] at set
      cases set
    have cbi : f = .cbi := by
      cases f
      · exact absurd ⟨rfl, flag, bit.symm⟩ other
      · rfl
    have bits := f.getLsbD_cleared m.timer0.tifr0 address.bit k
    rw [set, decide_eq_true ⟨bit, cbi⟩] at bits
    exact bits
  · rw [bitStep, run_plain m address flag] at taken
    cases taken
    exact set

/-- SBI and CBI meet their contract exactly when they are not used on TIFR0 while
another flag is set. A sequence of such instructions keeps every flag that no SBI
in it addresses. -/
theorem bit_contract_iff (m : Machine) :
    (∀ (f : BitOp) (instr secondWord : Word) (row : Opcode),
      decodeInstruction instr = some row → row.op = f.op →
      ¬ (0x09 ≤ (decodeIOB instr).a ∧ (decodeIOB instr).a ≤ 0x0D) →
      executeInstruction row instr secondWord = (do
        f.execute (decodeIOB instr)
        return true) ∧
      (BitLaw f (decodeIOB instr) m ↔ Alone (decodeIOB instr) m)) ∧
    (∀ (m' : Machine) (trace : List ((BitOp × OpsIOB) × Unit)) (k : Nat),
      Run bitStep BitAllowed m trace m' → m.timer0.tifr0.getLsbD k = true →
      (∀ x ∈ trace, ¬ ClearsFlag k x.1) → m'.timer0.tifr0.getLsbD k = true) := by
  constructor
  · intro f instr secondWord row _ op window
    obtain ⟨register, bit⟩ := decodeIOB_lt instr
    exact ⟨executeInstruction_bitOp instr secondWord op, bitLaw_iff m ⟨register, bit, window⟩⟩
  · intro m' trace k run
    induction run with
    | nil => exact fun set _ => set
    | cons allowed taken _ ih =>
      intro set others
      exact ih (bitStep_flag allowed taken set (others _ List.mem_cons_self))
        fun x hx => others x (List.mem_cons_of_mem _ hx)

/-- PORTB is 0xA5. -/
def litPort : Machine := (Machine.initial .zero).withCell 0x25 0xA5

/-- SBI 0x05, 3 sets a bit of PORTB. -/
theorem sbi_sets_port_bit : ∃ row m', decodeInstruction 0x9A2B = some row ∧
    (executeInstruction row 0x9A2B 0).run litPort = some (true, m') ∧
    (readDataByte 0x25).run m' = some (0xAD, m') ∧ BitLaw .sbi (decodeIOB 0x9A2B) litPort :=
  ⟨_, _, rfl, rfl, rfl, ((bit_contract_iff litPort).1 .sbi 0x9A2B 0 _ rfl rfl (by decide)).2.mpr
    fun flag => absurd flag (by decide)⟩

/-- TOV0 and OCF0A are set. -/
def twoFlags : Machine :=
  { Machine.initial .zero with timer0 := { timer0Reset with tifr0 := 0x03 } }

/-- SBI TIFR0, TOV0 clears OCF0A too. -/
theorem sbi_clears_other_flag : ∃ row m', decodeInstruction 0x9AA8 = some row ∧
    decodeIOB 0x9AA8 = ⟨tifr0Io, 0⟩ ∧
    (executeInstruction row 0x9AA8 0).run twoFlags = some (true, m') ∧
    twoFlags.timer0.tifr0.getLsbD 1 = true ∧ m'.timer0.tifr0.getLsbD 1 = false :=
  ⟨_, _, rfl, by decide, rfl, by decide, by decide⟩

end AvrEmulator
