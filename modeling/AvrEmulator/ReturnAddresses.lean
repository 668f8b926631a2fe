import AvrEmulator.Jumps

/-! Addresses of code as the program sees them: words in Z, bytes on the stack. -/

namespace AvrEmulator

open Checked

/-- So many instructions, one right after the other. -/
def instructions : Nat → Emu Outcome
  | 0 => return .executed
  | n + 1 => do
    match ← fetchExecute with
    | .executed => instructions n
    | stopped => return stopped

theorem instructions_succ {m m' : Machine} (run : fetchExecute.run m = some (.executed, m'))
    (n : Nat) : (instructions (n + 1)).run m = (instructions n).run m' := by
  rw [instructions, run_bind_of run]

def AvrState.withPc (s : AvrState) (pc : Word) : AvrState := { s with pc := pc }

namespace Machine

/-- The CPU without its clock. -/
def core (m : Machine) : AvrState := { m.state with cycleCount := 0, extraCycles := 0 }

/-- These words are the program at the program counter. -/
def Code (m : Machine) (ws : List Word) : Prop :=
  ∀ i (h : i < ws.length), m.state.pc.toNat + 2 * i + 1 < avrFlashSize ∧
    m.flashWord (m.state.pc.toNat + 2 * i) = ws[i]

end Machine

namespace Machine.Code

variable {m m' : Machine} {w : Word} {ws : List Word}

theorem here (code : m.Code (w :: ws)) :
    m.flashWord m.state.pc.toNat = w ∧ m.nextOpcode = decodeInstruction w := by
  obtain ⟨inside, word⟩ := code 0 (by simp)
  have first : m.flashWord m.state.pc.toNat = w := word
  refine ⟨first, ?_⟩
  rw [nextOpcode, if_pos inside, first]

theorem next (code : m.Code (w :: ws)) (flash : m'.core.flash = m.core.flash)
    (pc : m'.core.pc = m.state.pc + 2) : m'.Code ws := by
  have inside : m.state.pc.toNat + 1 < 32768 := (code 0 (by simp)).1
  have passed : m'.state.pc.toNat = m.state.pc.toNat + 2 := by
    rw [show m'.state.pc = m.state.pc + 2 from pc]
    bv_omega
  intro i hi
  obtain ⟨behind, word⟩ := code (i + 1) (by simpa using hi)
  have address : m.state.pc.toNat + 2 * (i + 1) = m'.state.pc.toNat + 2 * i := by omega
  have same : m'.state.flash = m.state.flash := flash
  rw [address, flashWord, ← same] at word
  rw [address] at behind
  exact ⟨behind, word⟩

end Machine.Code

/-- A stack slot that no Timer0 register shadows. -/
structure FreeSlot (a : Word) : Prop where
  low : 0x0100 ≤ a
  high : a ≤ 0x08FF
  plain : ¬ Shadowed a

def AvrState.withPushed (s : AvrState) (v : Byte) : AvrState :=
  { s with sram := s.sram.poke s.sp.toNat v, sp := s.sp - 1 }

theorem FreeSlot.bound {a : Word} (free : FreeSlot a) : a.toNat < avrSramSize := by
  have high := free.high
  show a.toNat < 2304
  bv_omega

theorem FreeSlot.load {a : Word} (free : FreeSlot a) (m : Machine) :
    m.load a = m.core.sram.peek a.toNat := by
  have silent : m.timer0.timer0Read (timerIo a) = none := by
    rw [← Option.not_isSome_iff_eq_none, Timer0.timer0Read_isSome]
    exact fun answers => free.plain ⟨free.low, free.high, answers⟩
  rw [load_sram m free.low, silent]
  rfl

theorem FreeSlot.pushed {n : Machine} (free : FreeSlot n.state.sp) (v : Byte) :
    (n.pushed v).core = n.core.withPushed v ∧ (n.pushed v).fault = n.fault := by
  have stored := store_sram n v free.low free.high free.plain
  rw [Machine.pushed, if_pos ⟨free.low, free.high⟩, stored]
  exact ⟨rfl, rfl⟩

/-- The byte that is popped next. -/
def AvrState.top (s : AvrState) : Byte := s.sram.peek (s.sp + 1).toNat

def AvrState.popped (s : AvrState) : AvrState := { s with sp := s.sp + 1 }

theorem FreeSlot.popByte {n : Machine} (free : FreeSlot (n.core.sp + 1)) :
    AvrEmulator.popByte.run n = some (n.core.top, n.withSp (n.core.sp + 1)) := by
  have low : 0x0100 ≤ n.state.sp + 1 := free.low
  have high : n.state.sp + 1 ≤ 0x08FF := free.high
  rw [AvrState.top, ← free.load]
  exact popByte_room (by bv_omega) (by bv_omega)

theorem run_register {α : Type} (w : Word) (n : Machine) (x : Byte → Emu α) :
    (do
      let value ← onCpu (regAt (decodeRd w).d.toNat)
      x value : Emu α).run n = (x (n.core.reg (w.extractLsb' 4 5).toNat)).run n := by
  have inside : (decodeRd w).d.toNat < 32 := by rw [decodeRd_d]; omega
  rw [run_bind_of (run_onCpu (run_regAt inside)), decodeRd_d]
  rfl

variable {s : AvrState}

theorem push_effect (w : Word) (free : FreeSlot s.sp) :
    ViewEffect Machine.core (executePUSH (decodeRd w)) s
      (s.withPushed (s.reg (w.extractLsb' 4 5).toNat)) := by
  rintro n rfl
  obtain ⟨pushed, fault⟩ := FreeSlot.pushed free (n.core.reg (w.extractLsb' 4 5).toNat)
  refine ⟨_, ?_, fault, pushed⟩
  rw [executePUSH, run_register, run_pushByte]

theorem pop_effect (w : Word) (free : FreeSlot (s.sp + 1)) :
    ViewEffect Machine.core (executePOP (decodeRd w)) s
      (s.popped.setReg (w.extractLsb' 4 5).toNat s.top) := by
  rintro n rfl
  have inside : (decodeRd w).d.toNat < 32 := by rw [decodeRd_d]; omega
  refine ⟨(n.withSp (n.core.sp + 1)).setState ((n.withSp (n.core.sp + 1)).state.setReg
    (w.extractLsb' 4 5).toNat n.core.top), ?_, rfl, rfl⟩
  rw [executePOP, run_bind_of free.popByte, run_onCpu (run_setRegAt _ inside), decodeRd_d]

theorem ret_effect (first : FreeSlot (s.sp + 1)) (second : FreeSlot (s.sp + 1 + 1)) :
    ViewEffect Machine.core executeRET s (s.popped.popped.withPc (s.top ++ s.popped.top)) := by
  rintro n rfl
  let m := n.withSp (n.core.sp + 1)
  have high : popByte.run n = some (n.core.top, m) := first.popByte
  have low : popByte.run m = some (n.core.popped.top, m.withSp (n.core.sp + 1 + 1)) :=
    FreeSlot.popByte second
  have word : popWord.run n =
      some (n.core.top ++ n.core.popped.top, m.withSp (n.core.sp + 1 + 1)) := by
    rw [popWord, run_bind_of high, run_bind_of low, join_bytes]
    rfl
  refine ⟨(m.withSp (n.core.sp + 1 + 1)).setState
    ((m.withSp (n.core.sp + 1 + 1)).state.withPc (n.core.top ++ n.core.popped.top)), ?_, rfl, rfl⟩
  rw [executeRET, run_bind_of word]
  rfl

theorem ijmp_effect :
    ViewEffect Machine.core (onCpu executeIJMP) s (s.withPc (s.pointer 30 * 2)) := by
  rintro n rfl
  exact ⟨_, run_executeIJMP n, rfl, rfl⟩

/-- The return address on the stack, low byte first. -/
def AvrState.withReturn (s : AvrState) (address : Word) : AvrState :=
  (s.withPushed (StackSpec.lowByte address)).withPushed (StackSpec.highByte address)

theorem pushPc_effect (first : FreeSlot s.sp) (second : FreeSlot (s.sp - 1)) :
    ViewEffect Machine.core pushPc s (s.withReturn s.pc) := by
  rintro n rfl
  obtain ⟨low, fault⟩ := FreeSlot.pushed first (StackSpec.lowByte n.core.pc)
  have below : FreeSlot (n.pushed (StackSpec.lowByte n.core.pc)).core.sp := by
    rw [low]
    exact second
  obtain ⟨high, fault'⟩ := FreeSlot.pushed below (StackSpec.highByte n.core.pc)
  exact ⟨_, run_pushPc n, fault'.trans fault, by rw [AvrState.withReturn, ← low]; exact high⟩

/-- A call leaves the program counter it found on the stack. -/
theorem call_effect {row : Opcode} (call : row.op ∈ [.CALL, .RCALL, .ICALL]) (w second : Word)
    (top : FreeSlot s.sp) (below : FreeSlot (s.sp - 1)) :
    ∃ target, ViewEffect Machine.core (dispatch row w second) s
      ((s.withReturn s.pc).withPc target) := by
  have pushed := pushPc_effect top below
  simp only [List.mem_cons, List.not_mem_nil, or_false] at call
  rcases call with op | op | op
  · refine ⟨((decodeK22 w second).k * 2).setWidth 16, ?_⟩
    simp only [dispatch, op]
    apply pushed.bind
    intro n hn
    refine ⟨_, rfl, rfl, ?_⟩
    rw [← hn]
    rfl
  · refine ⟨s.pc + (decodeK02 w).k * 2, ?_⟩
    simp only [dispatch, op]
    apply pushed.bind
    intro n hn
    refine ⟨_, rfl, rfl, ?_⟩
    change n.core.withPc (n.core.pc + (decodeK02 w).k * 2) = _
    rw [hn]
    rfl
  · refine ⟨(s.withReturn s.pc).pointer 30 * 2, ?_⟩
    simp only [dispatch, op]
    exact pushed.bind ijmp_effect

variable {m : Machine} {row : Opcode} {s' : AvrState}

/-- An instruction that cannot fault is executed, with the program counter past it. -/
theorem run_effect (found : m.nextOpcode = some row)
    (whole : row.words = 2 → m.state.pc.toNat + 3 < avrFlashSize)
    (effect : ViewEffect Machine.core (dispatch row (m.flashWord m.state.pc.toNat)
        (if row.words = 2 then m.flashWord (m.state.pc.toNat + 2) else 0))
      (m.core.withPc (m.state.pc + if row.words = 2 then 4 else 2)) s') :
    ∃ m', fetchExecute.run m = some (.executed, m') ∧ m'.core = s' := by
  obtain ⟨inside, decoded⟩ := Machine.nextOpcode_some found
  obtain ⟨n, m', core, timed, run⟩ := run_whole inside decoded whole rfl (fun _ => rfl) effect
  refine ⟨m', run, ?_⟩
  cases timed
  exact core

variable {w : Word} {ws : List Word}

/-- The next instruction of a program, one word long. -/
theorem run_code (core : m.core = s) (code : m.Code (w :: ws))
    (found : decodeInstruction w = some row) (short : row.words ≠ 2)
    (effect : ViewEffect Machine.core (dispatch row w 0) (s.withPc (s.pc + 2)) s') (n : Nat) :
    ∃ m', (instructions (n + 1)).run m = (instructions n).run m' ∧ m'.core = s' ∧
      (s'.flash = s.flash → s'.pc = s.pc + 2 → m'.Code ws) := by
  subst core
  obtain ⟨word, next⟩ := code.here
  obtain ⟨m', run, reached⟩ : ∃ m', fetchExecute.run m = some (.executed, m') ∧ m'.core = s' := by
    refine run_effect (next.trans found) (fun long => absurd long short) ?_
    rw [if_neg short, if_neg short, word]
    exact effect
  refine ⟨m', instructions_succ run n, reached, ?_⟩
  intro flash pc
  rw [← reached] at flash pc
  exact code.next flash pc

/-- Two bytes on the stack, and the order in which they come back. -/
theorem two_pushed (top : FreeSlot s.sp) (below : FreeSlot (s.sp - 1)) (a b : Byte) :
    ((s.withPushed a).withPushed b).top = b ∧ ((s.withPushed a).withPushed b).popped.top = a := by
  have lower : s.sp - 1 - 1 + 1 = s.sp - 1 := by bv_omega
  have upper : s.sp - 1 - 1 + 1 + 1 = s.sp := by bv_omega
  constructor
  · change ((s.sram.poke s.sp.toNat a).poke (s.sp - 1).toNat b).peek (s.sp - 1 - 1 + 1).toNat = b
    rw [lower]
    exact Cells.peek_poke_self _ _ below.bound
  · change ((s.sram.poke s.sp.toNat a).poke (s.sp - 1).toNat b).peek
      (s.sp - 1 - 1 + 1 + 1).toNat = a
    rw [upper, Cells.peek_poke_of_ne _ _ (by bv_omega)]
    exact Cells.peek_poke_self _ _ top.bound

/-! ## Z and the return address -/

/-- PUSH R30 and PUSH R31. -/
theorem decode_push {w : Word} (h : w = 0x93EF ∨ w = 0x93FF) :
    decodeInstruction w = some ⟨0xFE0F, 0x920F, .PUSH, .Rd_only, 1, 2, "PUSH"⟩ := by
  rcases h with rfl | rfl <;> decide +kernel

/-- POP R31 and POP R30. -/
theorem decode_pop {w : Word} (h : w = 0x91FF ∨ w = 0x91EF) :
    decodeInstruction w = some ⟨0xFE0F, 0x900F, .POP, .Rd_only, 1, 2, "POP"⟩ := by
  rcases h with rfl | rfl <;> decide +kernel

theorem decode_ret :
    decodeInstruction 0x9508 = some ⟨0xFFFF, 0x9508, .RET, .NONE, 1, 4, "RET"⟩ := by
  decide +kernel

theorem decode_ijmp :
    decodeInstruction 0x9409 = some ⟨0xFFFF, 0x9409, .IJMP, .NONE, 1, 2, "IJMP"⟩ := by
  decide +kernel

/-- RET goes to the byte address on the stack. -/
theorem run_ret (core : m.core = s) (code : m.Code [0x9508]) (first : FreeSlot (s.sp + 1))
    (second : FreeSlot (s.sp + 1 + 1)) :
    ∃ m', (instructions 1).run m = some (.executed, m') ∧
      m'.state.pc = s.top ++ s.popped.top := by
  obtain ⟨m', run, reached, -⟩ :=
    run_code core code decode_ret (by decide) (ret_effect first second) 0
  exact ⟨m', run, congrArg AvrState.pc reached⟩

/-- IJMP goes to twice the word address in Z. -/
theorem run_ijmp (core : m.core = s) (code : m.Code [0x9409]) :
    ∃ m', (instructions 1).run m = some (.executed, m') ∧ m'.state.pc = s.pointer 30 * 2 := by
  obtain ⟨m', run, reached, -⟩ := run_code core code decode_ijmp (by decide) ijmp_effect 0
  exact ⟨m', run, congrArg AvrState.pc reached⟩

theorem run_push_push_ret (code : m.Code [0x93EF, 0x93FF, 0x9508]) (top : FreeSlot m.core.sp)
    (below : FreeSlot (m.core.sp - 1)) :
    ∃ m', (instructions 3).run m = some (.executed, m') ∧ m'.state.pc = m.core.pointer 30 := by
  have lower : m.core.sp - 1 - 1 + 1 = m.core.sp - 1 := by bv_omega
  have upper : m.core.sp - 1 - 1 + 1 + 1 = m.core.sp := by bv_omega
  obtain ⟨m₁, run₁, core₁, code₁⟩ := run_code rfl code (decode_push (.inl rfl)) (by decide)
    (push_effect 0x93EF top) 2
  obtain ⟨m₂, run₂, core₂, code₂⟩ := run_code core₁ (code₁ rfl rfl)
    (decode_push (.inr rfl)) (by decide) (push_effect 0x93FF below) 1
  obtain ⟨m₃, run₃, pc⟩ := run_ret core₂ (code₂ rfl rfl) (lower ▸ below) (upper ▸ top)
  refine ⟨m₃, run₁.trans (run₂.trans run₃), pc.trans ?_⟩
  obtain ⟨high, low⟩ := two_pushed top below (m.core.reg 30) (m.core.reg 31)
  exact congr (congrArg HAppend.hAppend high) low

theorem run_pop_pop_ijmp (code : m.Code [0x91FF, 0x91EF, 0x9409])
    (first : FreeSlot (m.core.sp + 1)) (second : FreeSlot (m.core.sp + 1 + 1)) :
    ∃ m', (instructions 3).run m = some (.executed, m') ∧
      m'.state.pc = (m.core.top ++ m.core.popped.top) * 2 := by
  obtain ⟨m₁, run₁, core₁, code₁⟩ := run_code rfl code (decode_pop (.inl rfl)) (by decide)
    (pop_effect 0x91FF first) 2
  obtain ⟨m₂, run₂, core₂, code₂⟩ := run_code core₁ (code₁ rfl rfl)
    (decode_pop (.inr rfl)) (by decide) (pop_effect 0x91EF second) 1
  obtain ⟨m₃, run₃, pc⟩ := run_ijmp core₂ (code₂ rfl rfl)
  refine ⟨m₃, run₁.trans (run₂.trans run₃), pc.trans (congrArg (· * 2) ?_)⟩
  have high := AvrState.reg_setReg_self m.core.popped m.core.top (show 31 < 32 by decide)
  have low := AvrState.reg_setReg_self (m.core.popped.setReg 31 m.core.top).popped
    m.core.popped.top (show 30 < 32 by decide)
  have kept := AvrState.reg_setReg_of_ne (m.core.popped.setReg 31 m.core.top).popped
    m.core.popped.top (show 31 ≠ 30 by decide)
  exact congr (congrArg HAppend.hAppend (kept.trans high)) low

/-- A call puts the byte address of the instruction behind it on the stack. -/
theorem run_call (found : m.nextOpcode = some row)
    (whole : row.words = 2 → m.state.pc.toNat + 3 < avrFlashSize)
    (call : row.op ∈ [.CALL, .RCALL, .ICALL]) (top : FreeSlot m.core.sp)
    (below : FreeSlot (m.core.sp - 1)) :
    let next := m.state.pc + if row.words = 2 then 4 else 2
    ∃ m' target, (instructions 1).run m = some (.executed, m') ∧
      m'.core = (m.core.withReturn next).withPc target := by
  obtain ⟨target, effect⟩ := @call_effect
    (m.core.withPc (m.state.pc + if row.words = 2 then 4 else 2)) row call
    (m.flashWord m.state.pc.toNat) (if row.words = 2 then m.flashWord (m.state.pc.toNat + 2) else 0)
    top below
  obtain ⟨m', run, reached⟩ := run_effect found whole effect
  exact ⟨m', target, (instructions_succ run 0).trans rfl, reached⟩

/-- The two bytes above the stack pointer in memory. -/
theorem stacked_bytes {sp : Word} (top : FreeSlot sp) (below : FreeSlot (sp - 1))
    (under : m.state.sp = sp - 2) :
    m.core.top = m.load (sp - 1) ∧ m.core.popped.top = m.load sp := by
  have lower : m.state.sp + 1 = sp - 1 := by bv_omega
  have upper : m.state.sp + 1 + 1 = sp := by bv_omega
  rw [below.load, top.load]
  constructor
  · exact congrArg (fun a => m.state.sram.peek a.toNat) lower
  · exact congrArg (fun a => m.state.sram.peek a.toNat) upper

/-- What the two ways back make of an address on the stack. -/
theorem returns_to {sp next : Word} (top : FreeSlot sp) (below : FreeSlot (sp - 1))
    (under : m.state.sp = sp - 2) (stacked : m.load (sp - 1) ++ m.load sp = next) :
    (m.Code [0x9508] →
      ∃ m', (instructions 1).run m = some (.executed, m') ∧ m'.state.pc = next) ∧
    (m.Code [0x91FF, 0x91EF, 0x9409] →
      ∃ m', (instructions 3).run m = some (.executed, m') ∧ m'.state.pc = next * 2) := by
  obtain ⟨first, second⟩ := stacked_bytes top below under
  have popped : m.core.top ++ m.core.popped.top = next := by rw [first, second, stacked]
  have lower : m.core.sp + 1 = sp - 1 := by
    change m.state.sp + 1 = _
    bv_omega
  have upper : m.core.sp + 1 + 1 = sp := by
    change m.state.sp + 1 + 1 = _
    bv_omega
  rw [← lower] at below
  rw [← upper] at top
  rw [← popped]
  constructor
  · intro code
    exact run_ret rfl code below top
  · intro code
    exact run_pop_pop_ijmp code below top

/-- Z is a word address and the stack holds byte addresses. A Z that is pushed is a byte address
to RET, and a return address that is popped into Z is a word address to IJMP. -/
theorem return_addresses_are_bytes {m : Machine} (top : FreeSlot m.state.sp)
    (below : FreeSlot (m.state.sp - 1)) :
    (∀ w : Word, w < 0x4000 → m.state.pointer 30 = w →
      (m.Code [0x93EF, 0x93FF, 0x9508] →
        ∃ m', (instructions 3).run m = some (.executed, m') ∧ m'.state.pc = w) ∧
      (m.Code [0x9409] →
        ∃ m', (instructions 1).run m = some (.executed, m') ∧ m'.state.pc.toNat = 2 * w.toNat)) ∧
    ∀ row, m.nextOpcode = some row → row.op ∈ [.CALL, .RCALL, .ICALL] →
      (row.words = 2 → m.state.pc.toNat + 3 < avrFlashSize) →
      ∃ m₁, (instructions 1).run m = some (.executed, m₁) ∧ m₁.state.sp = m.state.sp - 2 ∧
        let next := m.state.pc + if row.words = 2 then 4 else 2
        m₁.load (m.state.sp - 1) ++ m₁.load m.state.sp = next ∧
        ∀ m₂ : Machine, m₂.state.sp = m₁.state.sp →
          (∀ a ∈ [m.state.sp - 1, m.state.sp], m₂.load a = m₁.load a) →
          (m₂.Code [0x9508] →
            ∃ m₃, (instructions 1).run m₂ = some (.executed, m₃) ∧ m₃.state.pc = next) ∧
          (m₂.Code [0x91FF, 0x91EF, 0x9409] →
            ∃ m₃, (instructions 3).run m₂ = some (.executed, m₃) ∧ m₃.state.pc = next * 2) := by
  constructor
  · intro w bound z
    constructor
    · intro code
      obtain ⟨m', run, pc⟩ := run_push_push_ret code top below
      exact ⟨m', run, pc.trans z⟩
    · intro code
      obtain ⟨m', run, pc⟩ := run_ijmp rfl code
      have twice : m'.state.pc = w * 2 := pc.trans (congrArg (· * 2) z)
      refine ⟨m', run, ?_⟩
      rw [twice]
      bv_omega
  · intro row found call whole
    obtain ⟨m₁, target, run, reached⟩ := run_call found whole call top below
    generalize m.state.pc + (if row.words = 2 then 4 else 2) = next at reached
    obtain ⟨high, low⟩ := two_pushed top below (StackSpec.lowByte next) (StackSpec.highByte next)
    have sp : m₁.state.sp = m.state.sp - 2 := by
      rw [show m₁.state.sp = m.state.sp - 1 - 1 from congrArg AvrState.sp reached]
      bv_omega
    obtain ⟨first, second⟩ := stacked_bytes top below sp
    have stacked : m₁.load (m.state.sp - 1) ++ m₁.load m.state.sp = next := by
      rw [← first, ← second, reached]
      exact (congr (congrArg HAppend.hAppend high) low).trans (join_split next)
    refine ⟨m₁, run, sp, stacked, ?_⟩
    intro m₂ same bytes
    apply returns_to top below (same.trans sp)
    rw [bytes _ (by simp), bytes _ (by simp), stacked]

/-- PUSH R30; PUSH R31; RET with 1 in Z. -/
def pushPointer : Machine :=
  .initial ((Program.firmware [0x93EF, 0x93FF, 0x9508]).setReg 30 1)

theorem pushPointer_code : pushPointer.Code [0x93EF, 0x93FF, 0x9508] := by
  unfold Machine.Code
  decide +kernel

theorem pushPointer_slots :
    FreeSlot pushPointer.state.sp ∧ FreeSlot (pushPointer.state.sp - 1) := by
  refine ⟨⟨?_, ?_, ?_⟩, ⟨?_, ?_, ?_⟩⟩ <;> decide +kernel

theorem pushed_pointer_returns : ∃ m', (instructions 3).run pushPointer = some (.executed, m') ∧
    m'.state.pc = 1 :=
  ((return_addresses_are_bytes pushPointer_slots.1 pushPointer_slots.2).1 1 (by decide)
    (by decide +kernel)).1 pushPointer_code

/-- RET does not go where IJMP goes with that Z, to byte 2. -/
theorem pushed_pointer_is_no_word : FreeSlot pushPointer.state.sp ∧
    FreeSlot (pushPointer.state.sp - 1) ∧ pushPointer.state.pointer 30 = 1 ∧
    pushPointer.Code [0x93EF, 0x93FF, 0x9508] ∧
    ¬ ∃ m', (instructions 3).run pushPointer = some (.executed, m') ∧
      m'.state.pc.toNat = 2 * 1 := by
  obtain ⟨top, below⟩ := pushPointer_slots
  refine ⟨top, below, by decide +kernel, pushPointer_code, ?_⟩
  rintro ⟨m', run, twice⟩
  obtain ⟨m'', run', pc⟩ := run_push_push_ret pushPointer_code top below
  have z : pushPointer.core.pointer 30 = 1 := by decide +kernel
  have same := (Prod.mk.inj (Option.some.inj (run.symm.trans run'))).2
  rw [same, pc, z] at twice
  exact absurd twice (by decide)

end AvrEmulator
