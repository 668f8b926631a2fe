import AvrEmulator.IoRegisters
import AvrEmulator.Stores

/-! The port registers PINB to PORTD as storage. Those of port D lie in the second
UART window, where UBRRL, UCSRB and UCSRA answer in their place. -/

namespace AvrEmulator

open Checked Transition

/-- PINB, DDRB, PORTB, PINC, DDRC, PORTC, PIND, DDRD and PORTD. -/
def PortAddress (a : Word) : Prop := 0x23 ≤ a ∧ a ≤ 0x2B

/-- The DDRx and PORTx registers. -/
def portStorage : List Word := [0x24, 0x25, 0x27, 0x28, 0x2A, 0x2B]

def portOps : List AvrOp := [.OUT, .SBI, .CBI, .STS, .ST_X, .ST_Y, .ST_Z]

namespace Machine

/-- What a read of a port address gives. -/
def port (m : Machine) (a : Word) : Byte :=
  if 0x29 ≤ a then (m.uart.uartRead ((a - 0x20).setWidth 8)).1 else m.state.sram.peek a.toNat

/-- The machine after a store to a port address. -/
def portWrite (m : Machine) (a : Word) (v : Byte) : Machine :=
  if 0x29 ≤ a then { m with
    uart := (m.uart.uartWrite m.interrupts ((a - 0x20).setWidth 8) v).1
    interrupts := (m.uart.uartWrite m.interrupts ((a - 0x20).setWidth 8) v).2 }
  else m.withCell a v

end Machine

theorem PortAddress.cases {a : Word} (h : PortAddress a) :
    (a = 0x29 ∨ a = 0x2A ∨ a = 0x2B) ∨ (¬ 0x29 ≤ a ∧ Cell a) := by
  obtain ⟨lo, hi⟩ := h
  have values : a = 0x23 ∨ a = 0x24 ∨ a = 0x25 ∨ a = 0x26 ∨ a = 0x27 ∨ a = 0x28 ∨ a = 0x29 ∨
      a = 0x2A ∨ a = 0x2B := by bv_omega
  rcases values with rfl | rfl | rfl | rfl | rfl | rfl | rfl | rfl | rfl
  all_goals first
    | exact .inl (by decide)
    | exact .inr ⟨by decide, by decide, by decide, by decide, by decide⟩

theorem readDataByte_port {a : Word} (m : Machine) (h : PortAddress a) :
    (readDataByte a).run m = some (m.port a, m) := by
  obtain (rfl | rfl | rfl) | ⟨low, cell⟩ := h.cases
  · rfl
  · rfl
  · rfl
  · rw [readDataByte_cell m cell, Machine.port, if_neg low]

theorem writeDataByte_port {a : Word} (m : Machine) (v : Byte) (h : PortAddress a) :
    (writeDataByte a v).run m = some ((), m.portWrite a v) := by
  obtain (rfl | rfl | rfl) | ⟨low, cell⟩ := h.cases
  · rfl
  · rfl
  · rfl
  · rw [writeDataByte_cell m v cell, Machine.portWrite, if_neg low]

/-- The store leaves the UART and the pending interrupts alone, and a DDRx or PORTx
register reads it back. -/
structure PortLaw (m m' : Machine) (a : Word) (v : Byte) : Prop where
  uart : m'.uart = m.uart
  interrupts : m'.interrupts = m.interrupts
  back : a ∈ portStorage → m'.port a = v

/-- A store to PIND, DDRD or PORTD gives the UART register behind it what that
register holds. UCSRA holds nothing, so PORTD can only ever read back UCSRA. -/
def Harmless (m : Machine) (store : Word × Byte) : Prop :=
  (store.1 = 0x29 → store.2 = m.uart.ubrrl) ∧
  (store.1 = 0x2A → store.2 = m.uart.ucsrb ∧
    (sregBit store.2 5 = true → m.interrupts.isPending .USART_UDRE = true)) ∧
  (store.1 = 0x2B → store.2 = m.uart.ucsra)

theorem harmless_below (m : Machine) {x : Word × Byte} (low : ¬ 0x29 ≤ x.1) : Harmless m x := by
  refine ⟨?_, ?_, ?_⟩ <;>
    · intro same
      rw [same] at low
      exact absurd (by decide) low

theorem portLaw_pind (m : Machine) (v : Byte) :
    PortLaw m (m.portWrite 0x29 v) 0x29 v ↔ v = m.uart.ubrrl := by
  constructor
  · intro law
    exact congrArg Uart.ubrrl law.uart
  · rintro rfl
    exact ⟨rfl, rfl, fun h => absurd h (by decide)⟩

theorem portWrite_ddrd (m : Machine) (v : Byte) : m.portWrite 0x2A v = { m with
    uart := { m.uart with ucsrb := v }
    interrupts := if sregBit v 5 then m.interrupts.interruptRaise .USART_UDRE
      else m.interrupts } := by
  show { m with
    uart := (m.uart.writeControl m.interrupts v).1
    interrupts := (m.uart.writeControl m.interrupts v).2 } = _
  unfold Uart.writeControl
  cases sregBit v 5 <;> rfl

/-- Raising a vector that is pending already changes nothing. -/
theorem portLaw_ddrd (m : Machine) (v : Byte) :
    PortLaw m (m.portWrite 0x2A v) 0x2A v ↔ v = m.uart.ucsrb ∧
      (sregBit v 5 = true → m.interrupts.isPending .USART_UDRE = true) := by
  have again : m.interrupts.interruptRaise .USART_UDRE = m.interrupts ↔
      m.interrupts.isPending .USART_UDRE = true :=
    Interrupts.interruptRaise_eq_iff m.interrupts (by decide)
  rw [portWrite_ddrd]
  constructor
  · rintro ⟨uart, interrupts, -⟩
    refine ⟨congrArg Uart.ucsrb uart, fun enabled => again.mp ?_⟩
    simpa [enabled] using interrupts
  · rintro ⟨rfl, pending⟩
    refine ⟨rfl, ?_, fun _ => rfl⟩
    dsimp only
    split
    next enabled => exact again.mpr (pending enabled)
    next => rfl

theorem portLaw_portd (m : Machine) (v : Byte) :
    PortLaw m (m.portWrite 0x2B v) 0x2B v ↔ v = m.uart.ucsra := by
  constructor
  · intro law
    exact (law.back (by decide)).symm
  · rintro rfl
    exact ⟨rfl, rfl, fun _ => rfl⟩

theorem portLaw_cell {a : Word} (m : Machine) (v : Byte) (low : ¬ 0x29 ≤ a) (cell : Cell a) :
    PortLaw m (m.portWrite a v) a v := by
  have written : m.portWrite a v = m.withCell a v := if_neg low
  rw [written]
  refine ⟨rfl, rfl, ?_⟩
  intro _
  rw [Machine.port, if_neg low]
  exact Cells.peek_poke_self _ _ cell.bound

theorem portLaw_iff {a : Word} (m : Machine) (v : Byte) (h : PortAddress a) :
    PortLaw m (m.portWrite a v) a v ↔ Harmless m (a, v) := by
  obtain (rfl | rfl | rfl) | ⟨low, cell⟩ := h.cases
  · exact (portLaw_pind m v).trans (by simp [Harmless])
  · exact (portLaw_ddrd m v).trans (by simp [Harmless])
  · exact (portLaw_portd m v).trans (by simp [Harmless])
  · exact iff_of_true (portLaw_cell m v low cell) (harmless_below m low)

/-- A lawful store to one port register leaves the others alone. -/
theorem portWrite_other {a b : Word} {m : Machine} {v : Byte} (h : PortAddress a)
    (law : PortLaw m (m.portWrite a v) a v) (ne : b ≠ a) :
    (m.portWrite a v).port b = m.port b := by
  have apart : b.toNat ≠ a.toNat := fun same => ne (BitVec.eq_of_toNat_eq same)
  unfold Machine.port
  rw [law.uart]
  obtain (rfl | rfl | rfl) | ⟨low, cell⟩ := h.cases
  · rfl
  · rfl
  · rfl
  · have written : m.portWrite a v = m.withCell a v := if_neg low
    rw [written, Machine.withCell]
    congr 1
    exact Cells.peek_poke_of_ne _ _ apart

/-- What the port registers depend on is the same. -/
structure SamePorts (m m' : Machine) : Prop where
  uart : m'.uart = m.uart
  interrupts : m'.interrupts = m.interrupts
  sram : m'.state.sram = m.state.sram

/-- The instruction's stores are this one, made between changes of registers. -/
def Stores (stores : List (Word × Byte)) (m m' : Machine) : Prop :=
  ∃ a v m₁ m₂, stores = [(a, v)] ∧ SamePorts m m₁ ∧
    (writeDataByte a v).run m₁ = some ((), m₂) ∧ SamePorts m₂ m'

theorem SamePorts.refl (m : Machine) : SamePorts m m := ⟨rfl, rfl, rfl⟩

theorem setRegAt_sram {s s' : AvrState} {i : Nat} {v : Byte}
    (h : (setRegAt i v).run s = some ((), s')) : s'.sram = s.sram := by
  obtain ⟨s₁, s₂, read, h⟩ := bind_inv h
  cases read
  obtain ⟨r, s₃, lifted, h⟩ := bind_inv h
  obtain ⟨r', -, kept⟩ := Option.bind_eq_some_iff.mp lifted
  cases kept
  cases h
  rfl

theorem writeRegWord_sram {s s' : AvrState} {pair : Byte} {value : Word}
    (h : (writeRegWord pair value).run s = some ((), s')) : s'.sram = s.sram := by
  obtain ⟨⟨⟩, s₁, low, high⟩ := bind_inv h
  exact (setRegAt_sram high).trans (setRegAt_sram low)

theorem readRegWord_inv {s s' : AvrState} {pair : Byte} {value : Word}
    (run : (readRegWord pair).run s = some (value, s')) : s' = s := by
  obtain ⟨lo, s₁, low, rest⟩ := bind_inv run
  obtain ⟨hi, s₂, high, result⟩ := bind_inv rest
  cases result
  exact (regAt_inv high).2.trans (regAt_inv low).2

theorem enterIndirect_sram {s s' : AvrState} {pair mode : Byte} {pointer : Word}
    (run : (enterIndirect pair mode).run s = some (pointer, s')) : s'.sram = s.sram := by
  obtain ⟨p, s₁, read, rest⟩ := bind_inv run
  rw [readRegWord_inv read] at rest
  split at rest
  · obtain ⟨⟨⟩, s₂, write, result⟩ := bind_inv rest
    cases result
    exact writeRegWord_sram write
  · cases rest
    rfl

theorem leaveIndirect_sram {s s' : AvrState} {pair mode : Byte} {pointer : Word}
    (h : (leaveIndirect pair mode pointer).run s = some ((), s')) : s'.sram = s.sram := by
  unfold leaveIndirect at h
  split at h
  · exact writeRegWord_sram h
  · cases h
    rfl

theorem storeIndirect_stores {m m' : Machine} {pair : Byte} {ops : OpsLdSt}
    (h : (storeIndirect pair ops).run m = some ((), m')) :
    Stores (m.indirectStore pair ops) m m' := by
  obtain ⟨pointer, s, m₂, s', stores, enter, write, leave, rfl⟩ := storeIndirect_inv h
  exact ⟨pointer, _, m.setState s, m₂, stores, ⟨rfl, rfl, enterIndirect_sram enter⟩, write,
    ⟨rfl, rfl, leaveIndirect_sram leave⟩⟩

theorem storeDisplaced_stores {m m' : Machine} {pair : Byte} {ops : OpsLdd}
    (h : (storeDisplaced pair ops).run m = some ((), m')) :
    Stores (m.displacedStore pair ops) m m' := by
  obtain ⟨pointer, s, stores, read, write⟩ := storeDisplaced_inv h
  refine ⟨_, _, m.setState s, _, stores, ⟨rfl, rfl, ?_⟩, write, .refl _⟩
  exact congrArg AvrState.sram (readRegWord_inv read)

theorem storeRegister_stores {m m' : Machine} {d : Nat} {addr : Word}
    (h : (do writeDataByte addr (← onCpu (regAt d))).run m = some ((), m')) :
    Stores [(addr, m.state.reg d)] m m' :=
  ⟨_, _, _, _, rfl, .refl _, storeRegister_inv h, .refl _⟩

/-- SBI and CBI read the register they store to, which a port register allows. -/
theorem updateIO_stores {m m' : Machine} {io : Byte} {f : Byte → Byte}
    (port : ∀ x ∈ m.ioStore io f, PortAddress x.1)
    (h : (do writeDataByte (ioDataAddr io) (f (← readDataByte (ioDataAddr io)))).run m =
      some ((), m')) : Stores (m.ioStore io f) m m' := by
  obtain ⟨value, m₁, read, write⟩ := bind_inv h
  rw [Machine.ioStore, read] at port ⊢
  have same := readDataByte_port m (port _ List.mem_cons_self)
  obtain rfl : m₁ = m := congrArg Prod.snd (Option.some.inj (read.symm.trans same))
  exact ⟨_, _, _, _, rfl, .refl _, write, .refl _⟩

/-- The port instructions make one store each. -/
theorem dispatch_stores {op : Opcode} {instr secondWord : Word} {m m' : Machine}
    (kind : op.op ∈ portOps) (port : ∀ x ∈ m.stores op instr secondWord, PortAddress x.1)
    (h : (dispatch op instr secondWord).run m = some ((), m')) :
    Stores (m.stores op instr secondWord) m m' := by
  obtain ⟨mask, code, op, fmt, words, cycles, mnemonic⟩ := op
  change op ∈ portOps at kind
  cases op
  case OUT => exact storeRegister_stores h
  case STS => exact storeRegister_stores h
  case SBI => exact updateIO_stores port h
  case CBI => exact updateIO_stores port h
  case ST_X => exact storeIndirect_stores h
  case ST_Y =>
    unfold dispatch at h
    unfold Machine.stores
    dsimp only at h ⊢
    split at h
    next std => rw [if_pos std]; exact storeDisplaced_stores h
    next st => rw [if_neg st]; exact storeIndirect_stores h
  case ST_Z =>
    unfold dispatch at h
    unfold Machine.stores
    dsimp only at h ⊢
    split at h
    next std => rw [if_pos std]; exact storeDisplaced_stores h
    next st => rw [if_neg st]; exact storeIndirect_stores h
  all_goals exact absurd kind (by decide)

/-! ## Instructions and sequences -/

/-- Every store the instruction makes goes to a port register. -/
structure PortInstruction (m : Machine) (op : Opcode) (instr secondWord : Word) : Prop where
  kind : op.op ∈ portOps
  target : ∀ x ∈ m.stores op instr secondWord, PortAddress x.1

theorem SamePorts.port {m m' : Machine} (h : SamePorts m m') (a : Word) : m'.port a = m.port a := by
  unfold Machine.port
  rw [h.uart, h.sram]

theorem SamePorts.harmless {m m' : Machine} (h : SamePorts m m') (x : Word × Byte) :
    Harmless m' x ↔ Harmless m x := by
  unfold Harmless
  rw [h.uart, h.interrupts]

theorem PortLaw.congr {m₁ m₂ m m' : Machine} {a : Word} {v : Byte} (before : SamePorts m m₁)
    (after : SamePorts m₂ m') : PortLaw m m' a v ↔ PortLaw m₁ m₂ a v := by
  constructor
  · rintro ⟨uart, interrupts, back⟩
    refine ⟨?_, ?_, fun h => ?_⟩
    · rw [← after.uart, uart, before.uart]
    · rw [← after.interrupts, interrupts, before.interrupts]
    · rw [← after.port, back h]
  · rintro ⟨uart, interrupts, back⟩
    refine ⟨?_, ?_, fun h => ?_⟩
    · rw [after.uart, uart, before.uart]
    · rw [after.interrupts, interrupts, before.interrupts]
    · rw [after.port, back h]

theorem executeInstruction_stores {op : Opcode} {instr secondWord : Word} {m m' : Machine}
    (h : PortInstruction m op instr secondWord)
    (run : (executeInstruction op instr secondWord).run m = some (true, m')) :
    Stores (m.stores op instr secondWord) m m' := by
  obtain ⟨⟨⟩, m₁, dispatched, result⟩ := bind_inv run
  cases result
  exact dispatch_stores h.kind h.target dispatched

/-- One instruction keeps the law exactly when its store is harmless. -/
theorem instruction_law_iff {op : Opcode} {instr secondWord : Word} {m m' : Machine}
    (h : PortInstruction m op instr secondWord)
    (run : (executeInstruction op instr secondWord).run m = some (true, m')) :
    (∀ x ∈ m.stores op instr secondWord, PortLaw m m' x.1 x.2) ↔
      ∀ x ∈ m.stores op instr secondWord, Harmless m x := by
  obtain ⟨a, v, m₁, m₂, stores, before, write, after⟩ := executeInstruction_stores h run
  have port : PortAddress a := h.target (a, v) (by rw [stores]; exact List.mem_cons_self)
  rw [writeDataByte_port m₁ v port] at write
  cases write
  rw [stores]
  simp only [List.forall_mem_singleton]
  rw [PortLaw.congr before after, portLaw_iff m₁ v port, before.harmless]

/-- A port instruction leaves the port registers it does not store to alone. -/
theorem instruction_other {op : Opcode} {instr secondWord : Word} {m m' : Machine}
    (h : PortInstruction m op instr secondWord)
    (run : (executeInstruction op instr secondWord).run m = some (true, m'))
    (harmless : ∀ x ∈ m.stores op instr secondWord, Harmless m x) {b : Word}
    (other : ∀ x ∈ m.stores op instr secondWord, b ≠ x.1) : m'.port b = m.port b := by
  have law := (instruction_law_iff h run).mpr harmless
  obtain ⟨a, v, m₁, m₂, stores, before, write, after⟩ := executeInstruction_stores h run
  rw [stores] at law other
  have port : PortAddress a := h.target (a, v) (by rw [stores]; exact List.mem_cons_self)
  rw [writeDataByte_port m₁ v port] at write
  cases write
  rw [after.port, portWrite_other port ((PortLaw.congr before after).mp
    (law _ List.mem_cons_self)) (other _ List.mem_cons_self), before.port]

/-- A port instruction, or new register values computed between two of them. -/
inductive PortInput where
  | instruction (op : Opcode) (instr secondWord : Word)
  | registers (r : Cells 32 Byte)

/-- The event is the list of stores made. -/
def portStep (m : Machine) : PortInput → Option (List (Word × Byte) × Machine)
  | .instruction op instr secondWord =>
    ((executeInstruction op instr secondWord).run m).map fun p =>
      (m.stores op instr secondWord, p.2)
  | .registers r => some ([], m.setState { m.state with r := r })

def PortAllowed (m : Machine) : PortInput → Prop
  | .instruction op instr secondWord => PortInstruction m op instr secondWord ∧
    ∀ x ∈ m.stores op instr secondWord, Harmless m x
  | .registers _ => True

/-- The UART and the interrupts are untouched, and the storage registers read back
the last of the stores, or what they held before. -/
structure PlainStorage (stores : List (Word × Byte)) (m m' : Machine) : Prop where
  uart : m'.uart = m.uart
  interrupts : m'.interrupts = m.interrupts
  reads : ∀ a ∈ portStorage, m'.port a = (lastWrite stores a).getD (m.port a)

theorem PlainStorage.trans {first second : List (Word × Byte)} {m₁ m₂ m₃ : Machine}
    (h : PlainStorage first m₁ m₂) (h' : PlainStorage second m₂ m₃) :
    PlainStorage (first ++ second) m₁ m₃ := by
  refine ⟨h'.uart.trans h.uart, h'.interrupts.trans h.interrupts, ?_⟩
  intro a storage
  rw [h'.reads a storage, h.reads a storage, lastWrite_append]
  cases lastWrite second a <;> rfl

theorem executed_plainStorage {op : Opcode} {instr secondWord : Word} {m m' : Machine}
    (h : PortInstruction m op instr secondWord)
    (run : (executeInstruction op instr secondWord).run m = some (true, m'))
    (harmless : ∀ x ∈ m.stores op instr secondWord, Harmless m x) :
    PlainStorage (m.stores op instr secondWord) m m' := by
  have law := (instruction_law_iff h run).mpr harmless
  have other {b : Word} := instruction_other h run harmless (b := b)
  obtain ⟨a, v, m₁, m₂, stores, -⟩ := executeInstruction_stores h run
  rw [stores] at law other ⊢
  have stored : PortLaw m m' a v := law _ List.mem_cons_self
  refine ⟨stored.uart, stored.interrupts, ?_⟩
  intro b storage
  by_cases same : b = a
  · subst same
    rw [stored.back storage]
    simp [lastWrite]
  · rw [other (by simpa using same)]
    simp [lastWrite, same]

theorem portStep_plainStorage {m m' : Machine} {i : PortInput} {stores : List (Word × Byte)}
    (allowed : PortAllowed m i) (taken : portStep m i = some (stores, m')) :
    PlainStorage stores m m' := by
  cases i with
  | instruction op instr secondWord =>
    obtain ⟨⟨done, m''⟩, run, result⟩ := Option.map_eq_some_iff.mp taken
    cases result
    obtain ⟨⟨⟩, m₁, dispatched, returned⟩ := bind_inv run
    cases returned
    exact executed_plainStorage allowed.1 run allowed.2
  | registers r =>
    cases taken
    exact ⟨rfl, rfl, fun _ _ => rfl⟩

theorem run_plainStorage {m m' : Machine} {trace : List (PortInput × List (Word × Byte))}
    (run : Run portStep PortAllowed m trace m') :
    PlainStorage (trace.flatMap Prod.snd) m m' := by
  induction run with
  | nil => exact ⟨rfl, rfl, fun _ _ => rfl⟩
  | cons allowed taken _ ih =>
    rw [List.flatMap_cons]
    exact (portStep_plainStorage allowed taken).trans ih

theorem portStorage_address {a : Word} (h : a ∈ portStorage) : PortAddress a := by
  simp only [portStorage, List.mem_cons, List.not_mem_nil, or_false] at h
  rcases h with rfl | rfl | rfl | rfl | rfl | rfl
  all_goals exact ⟨by decide, by decide⟩

/-- Port registers are plain storage exactly as long as no store to PIND, DDRD or
PORTD changes the UART register behind it: one instruction obeys the law if and only
if its store is harmless, and a sequence of harmless ones leaves the UART and the
interrupts untouched and has every DDRx and PORTx register read back its last write. -/
theorem port_storage_iff (m : Machine) :
    (∀ (op : Opcode) (instr secondWord : Word), PortInstruction m op instr secondWord →
      ∃ m', (executeInstruction op instr secondWord).run m = some (true, m') ∧
        ((∀ x ∈ m.stores op instr secondWord, PortLaw m m' x.1 x.2) ↔
          ∀ x ∈ m.stores op instr secondWord, Harmless m x)) ∧
    (∀ (m' : Machine) (trace : List (PortInput × List (Word × Byte))),
      Run portStep PortAllowed m trace m' →
      m'.uart = m.uart ∧ m'.interrupts = m.interrupts ∧
      ∀ a ∈ portStorage, ∃ old, (readDataByte a).run m = some (old, m) ∧
        (readDataByte a).run m' =
          some ((lastWrite (trace.flatMap Prod.snd) a).getD old, m')) := by
  constructor
  · intro op instr secondWord port
    obtain ⟨⟨done, m'⟩, run⟩ :=
      Option.isSome_iff_exists.mp (executeInstruction_defined op instr secondWord m)
    obtain ⟨⟨⟩, m₁, dispatched, returned⟩ := bind_inv run
    cases returned
    exact ⟨_, run, instruction_law_iff port run⟩
  · intro m' trace run
    have plain := run_plainStorage run
    refine ⟨plain.uart, plain.interrupts, fun a storage => ⟨m.port a, ?_, ?_⟩⟩
    · exact readDataByte_port m (portStorage_address storage)
    · rw [readDataByte_port m' (portStorage_address storage), plain.reads a storage]

/-- The initial machine with a value in r16. -/
def withR16 (v : Byte) : Machine :=
  (Machine.initial .zero).setState
    { (Machine.initial .zero).state with r := (Machine.initial .zero).state.r.poke 16 v }

/-- OUT 0x05, r16 and SBI 0x05, 3 with 0xA0 in r16: PORTB keeps the other pins. -/
theorem sbi_keeps_other_pins : ∃ out sbi m', decodeInstruction 0xB905 = some out ∧
    decodeInstruction 0x9A2B = some sbi ∧
    Run portStep PortAllowed (withR16 0xA0) [(.instruction out 0xB905 0, [(0x25, 0xA0)]),
      (.instruction sbi 0x9A2B 0, [(0x25, 0xA8)])] m' ∧
    m'.uart = (withR16 0xA0).uart ∧ (readDataByte 0x25).run m' = some (0xA8, m') := by
  have portB {m : Machine} {v : Byte} {op : Opcode} {instr : Word} (kind : op.op ∈ portOps)
      (stores : m.stores op instr 0 = [(0x25, v)]) : PortAllowed m (.instruction op instr 0) := by
    rw [PortAllowed, stores]
    refine ⟨⟨kind, ?_⟩, ?_⟩
    · rw [stores]
      exact List.forall_mem_singleton.mpr
        (show (0x23 : Word) ≤ 0x25 ∧ (0x25 : Word) ≤ 0x2B by decide)
    · exact List.forall_mem_singleton.mpr
        (harmless_below m (show ¬ (0x29 : Word) ≤ 0x25 by decide))
  have run : ∃ out sbi m', decodeInstruction 0xB905 = some out ∧
      decodeInstruction 0x9A2B = some sbi ∧
      Run portStep PortAllowed (withR16 0xA0) [(.instruction out 0xB905 0, [(0x25, 0xA0)]),
        (.instruction sbi 0x9A2B 0, [(0x25, 0xA8)])] m' :=
    ⟨_, _, _, rfl, rfl, .cons (portB (by decide) rfl) rfl <|
      .cons (portB (by decide) rfl) rfl <| .nil _⟩
  obtain ⟨out, sbi, m', outRow, sbiRow, run⟩ := run
  obtain ⟨uart, -, reads⟩ := (port_storage_iff _).2 _ _ run
  obtain ⟨old, -, read⟩ := reads 0x25 (by decide)
  exact ⟨out, sbi, m', outRow, sbiRow, run, uart, read⟩

/-- OUT DDRD, r16 with pin 5 an output writes UCSR0B and requests USART_UDRE. -/
theorem out_ddrd_drives_uart : ∃ row m', decodeInstruction 0xB90A = some row ∧
    row.op ∈ portOps ∧ (withR16 0x20).stores row 0xB90A 0 = [(0x2A, 0x20)] ∧
    (executeInstruction row 0xB90A 0).run (withR16 0x20) = some (true, m') ∧
    (withR16 0x20).uart.ucsrb = 0 ∧ m'.uart.ucsrb = 0x20 ∧
    (withR16 0x20).interrupts.isPending .USART_UDRE = false ∧
    m'.interrupts.isPending .USART_UDRE = true :=
  ⟨_, _, rfl, by decide, rfl, rfl, rfl, rfl, by decide, by decide⟩

end AvrEmulator
