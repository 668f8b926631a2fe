import AvrEmulator.Library.MaskTable
import AvrEmulator.DataSpace
import AvrEmulator.Fetch
import AvrEmulator.OperandFields

/-! The skip instructions: what they step over and what it costs. -/

namespace AvrEmulator

open Checked

inductive Skip where
  | CPSE | SBRC | SBRS | SBIC | SBIS
  deriving DecidableEq, Repr

def skip : AvrOp → Option Skip
  | .CPSE => some .CPSE
  | .SBRC => some .SBRC
  | .SBRS => some .SBRS
  | .SBIC => some .SBIC
  | .SBIS => some .SBIS
  | _ => none

/-- What a read of an I/O register gives. -/
def Machine.ioByte (m : Machine) (a : Byte) : Byte :=
  match (readDataByte (ioDataAddr a)).run m with
  | some (value, _) => value
  | none => 0

namespace Skip

/-- The condition an instruction word tests. -/
def condition (op : Skip) (w : Word) (m : Machine) : Bool :=
  let b := (w.extractLsb' 0 3).toNat
  let register := m.state.reg (w.extractLsb' 4 5).toNat
  let io := m.ioByte ((w.extractLsb' 3 5).setWidth 8)
  match op with
  | .CPSE => register = m.state.reg (w.extractLsb' 9 1 ++ w.extractLsb' 0 4).toNat
  | .SBRC => !register.getLsbD b
  | .SBRS => register.getLsbD b
  | .SBIC => !io.getLsbD b
  | .SBIS => io.getLsbD b

end Skip

/-- One skip from `m` to `m'`: a taken one steps over the next instruction, a word at
a time and a cycle for each, and nothing but the program counter moves. -/
structure SkipLaw (op : Skip) (w : Word) (cyclesMin : Byte) (m m' : Machine) : Prop where
  taken : op.condition w m = true → ∀ next, m.nextOpcode = some next →
    m'.state.pc = m.state.pc + 2 * next.words.setWidth 16 ∧
    (∀ f m₂, fetch.run m = some (some f, m₂) → m'.state.pc = m₂.state.pc) ∧
    cyclesMin.toNat + m'.state.extraCycles.toNat = 1 + next.words.toNat
  notTaken : op.condition w m = false →
    m'.state.pc = m.state.pc ∧ cyclesMin.toNat + m'.state.extraCycles.toNat = 1
  registers : m'.state.r = m.state.r
  flags : m'.state.sreg = m.state.sreg
  stack : m'.state.sp = m.state.sp
  memory : m'.state.sram = m.state.sram

theorem cyclesMin_skip {w : Word} {row : Opcode} {op : Skip}
    (found : decodeInstruction w = some row) (hop : skip row.op = some op) :
    row.cyclesMin = 1 := by
  have rows : ∀ row ∈ opcodeTable, (skip row.op).isSome = true → row.cyclesMin = 1 := by
    decide +kernel
  exact rows row (MaskTable.lookup_match found).1 (by rw [hop]; rfl)

/-- Reading an I/O register can only take a byte from the UART. -/
theorem run_readIO {a : Byte} (h : a < 0x20) (m : Machine) :
    ∃ u, (readDataByte (ioDataAddr a)).run m = some (m.ioByte a, { m with uart := u }) := by
  have reads : ∃ value u, (readDataByte (ioDataAddr a)).run m =
      some (value, { m with uart := u }) := by
    have addr : ioDataAddr a = 0x20 + a.setWidth 16 := rfl
    have lo : 0x20 ≤ ioDataAddr a := by bv_omega
    have hi : ioDataAddr a ≤ 0x3F := by bv_omega
    generalize ioDataAddr a = addr at lo hi
    change ∃ value u, ((get : Emu Machine) >>= _).run m = _
    simp only [run_get_bind]
    rw [if_neg (by bv_omega), if_neg (by bv_omega), if_neg (by bv_omega), if_neg (by bv_omega)]
    split
    · exact ⟨_, m.uart, rfl⟩
    rw [if_neg (by bv_omega)]
    split
    · exact ⟨_, _, rfl⟩
    have ok : dataAddrOk addr = true := decide_eq_true (show addr ≤ 0x08FF by bv_omega)
    have cell : addr.toNat < avrSramSize := by
      change addr.toNat < 2304
      bv_omega
    rw [ok, if_neg (by decide), run_onCpu (run_sramAt cell)]
    exact ⟨_, m.uart, rfl⟩
  obtain ⟨value, u, run⟩ := reads
  refine ⟨u, ?_⟩
  rw [Machine.ioByte, run]

namespace Skip

def program (op : Skip) (w : Word) : Emu Unit :=
  match op with
  | .CPSE => executeCPSE (decodeRdRr w)
  | .SBRC => executeSBRC (decodeRrB w)
  | .SBRS => executeSBRS (decodeRrB w)
  | .SBIC => executeSBIC (decodeIOB w)
  | .SBIS => executeSBIS (decodeIOB w)

theorem dispatch_eq {row : Opcode} {op : Skip} (hop : skip row.op = some op) (w second : Word) :
    dispatch row w second = op.program w := by
  unfold skip at hop
  split at hop
  all_goals cases hop
  all_goals next h => simp only [dispatch, h, program]

/-- A skip instruction tests its condition and then goes on or skips. -/
theorem run_program (op : Skip) (w : Word) (m : Machine) : ∃ u context,
    (op.program w).run m = (skipIf (op.condition w m) context).run { m with uart := u } := by
  have readRegister : (onCpu (regAt (decodeRrB w).r.toNat)).run m =
      some (m.state.reg (w.extractLsb' 4 5).toNat, m) := by
    rw [decodeRrB_r]
    exact run_onCpu (run_regAt (by omega))
  obtain ⟨u, readIO⟩ := run_readIO (a := (decodeIOB w).a) (by rw [decodeIOB_a]; bv_omega) m
  have readBit : (getIOBit (decodeIOB w).a (decodeIOB w).b).run m =
      some ((m.ioByte ((w.extractLsb' 3 5).setWidth 8)).getLsbD (w.extractLsb' 0 3).toNat,
        { m with uart := u }) := by
    rw [getIOBit, run_bind_of readIO, decodeIOB_a, ← decodeIOB_b, ← sregBit_eq]
    rfl
  cases op with
  | CPSE =>
    refine ⟨m.uart, "CPSE skip: unknown next instruction", ?_⟩
    rw [program, executeCPSE, decodeRdRr_d, decodeRdRr_r,
      run_bind_of (run_onCpu (run_regAt (by omega))),
      run_bind_of (run_onCpu (run_regAt (by omega)))]
    rfl
  | SBRC =>
    refine ⟨m.uart, "SBRC skip: unknown next instruction", ?_⟩
    rw [program, executeSBRC, run_bind_of readRegister, sregBit_eq, decodeRrB_b]
    rfl
  | SBRS =>
    refine ⟨m.uart, "SBRS skip: unknown next instruction", ?_⟩
    rw [program, executeSBRS, run_bind_of readRegister, sregBit_eq, decodeRrB_b]
    rfl
  | SBIC =>
    refine ⟨u, "SBIC skip: unknown next instruction", ?_⟩
    rw [program, executeSBIC, run_bind_of readBit]
    rfl
  | SBIS =>
    refine ⟨u, "SBIS skip: unknown next instruction", ?_⟩
    rw [program, executeSBIS, run_bind_of readBit]
    rfl

end Skip

/-- The CPU state after a skip, with the instruction there is to skip. -/
def AvrState.skipped (s : AvrState) (taken : Bool) (next : Option Opcode) : AvrState :=
  if taken then { s with
    pc := s.pc + (next.elim 0 Opcode.words).setWidth 16 * 2
    extraCycles := 1 }
  else s

theorem run_skipNext (context : String) (m : Machine) : ∃ faulted error,
    (skipNextInstruction context).run m = some ((), { m with
      state := { m.state with
        pc := m.state.pc + (m.nextOpcode.elim 0 Opcode.words).setWidth 16 * 2 }
      fault := faulted
      error := error }) := by
  have stays : m.state.pc + (0 : Byte).setWidth 16 * 2 = m.state.pc := BitVec.add_zero _
  change ∃ faulted error, ((get : Emu Machine) >>= _).run m = _
  simp only [run_get_bind]
  by_cases inside : m.state.pc.toNat + 1 < avrFlashSize
  · rw [if_neg (Nat.not_le.mpr inside), run_bind_of (run_fetchWord inside), Machine.nextOpcode,
      if_pos inside]
    cases decodeInstruction (m.flashWord m.state.pc.toNat) with
    | none =>
      rw [Option.elim_none, stays]
      exact ⟨true, _, rfl⟩
    | some next => exact ⟨m.fault, m.error, rfl⟩
  · rw [if_pos (Nat.not_lt.mp inside), Machine.nextOpcode, if_neg inside, Option.elim_none, stays]
    exact ⟨true, _, rfl⟩

theorem run_skipIf (taken : Bool) (context : String) (m : Machine) : ∃ faulted error,
    (skipIf taken context).run m = some ((), { m with
      state := m.state.skipped taken m.nextOpcode
      fault := faulted
      error := error }) := by
  cases taken with
  | false => exact ⟨m.fault, m.error, rfl⟩
  | true =>
    obtain ⟨faulted, error, run⟩ := run_skipNext context m
    refine ⟨faulted, error, ?_⟩
    change (skipNextInstruction context >>= fun _ => onCpu (setExtraCycles 1)).run m = _
    rw [run_bind_of run]
    rfl

/-- The machine as `executeProgram` hands it to an instruction. -/
def Machine.uncharged (m : Machine) : Machine :=
  m.setState { m.state with extraCycles := 0 }

/-- A skip obeys the law exactly when it does not step over two words. -/
theorem skipLaw_skipped (op : Skip) (w : Word) {m m' : Machine}
    (free : m.state.extraCycles = 0)
    (h : m'.state = m.state.skipped (op.condition w m) m.nextOpcode) :
    SkipLaw op w 1 m m' ↔ (op.condition w m = true →
      ∀ next, m.nextOpcode = some next → next.words = 1) := by
  have one : (1 : Byte).toNat = 1 := rfl
  cases hc : op.condition w m with
  | false =>
    rw [hc] at h
    have same : m'.state = m.state := h
    refine ⟨fun _ taken => ?_, fun _ => ⟨fun taken => ?_, fun _ => ?_, ?_, ?_, ?_, ?_⟩⟩
    · cases taken
    · rw [hc] at taken
      cases taken
    · rw [same, free]
      exact ⟨rfl, rfl⟩
    all_goals rw [same]
  | true =>
    rw [hc] at h
    have charge : m'.state.extraCycles = 1 := by rw [h]; rfl
    refine ⟨fun law _ next hn => ?_, fun single => ⟨fun _ next hn => ?_, fun notTaken => ?_,
      by rw [h]; rfl, by rw [h]; rfl, by rw [h]; rfl, by rw [h]; rfl⟩⟩
    · have cost := (law.taken hc next hn).2.2
      rw [charge, one] at cost
      apply BitVec.eq_of_toNat_eq
      rw [one]
      omega
    · have words := single rfl next hn
      have pc : m'.state.pc = m.state.pc + 2 * next.words.setWidth 16 := by
        rw [h, hn, BitVec.mul_comm]
        rfl
      refine ⟨pc, fun f m₂ fetched => ?_, ?_⟩
      · obtain ⟨found, -, left⟩ := fetch_some fetched
        rw [hn, Option.some.injEq] at found
        rw [pc, left, ← found, words]
        rfl
      · rw [charge, words, one]
    · rw [hc] at notTaken
      cases notTaken

/-- Every word that decodes to a skip runs and reports success. It obeys the law
exactly when it does not step over an instruction of two words. -/
theorem skip_law_iff {w : Word} {row : Opcode} {op : Skip}
    (found : decodeInstruction w = some row) (hop : skip row.op = some op) (second : Word)
    (m : Machine) :
    ∃ m', (executeInstruction row w second).run m.uncharged = some (true, m') ∧
      (SkipLaw op w row.cyclesMin m.uncharged m' ↔
        (op.condition w m.uncharged = true →
          ∀ next, m.uncharged.nextOpcode = some next → next.words = 1)) := by
  obtain ⟨u, context, test⟩ := op.run_program w m.uncharged
  obtain ⟨faulted, error, run⟩ := run_skipIf (op.condition w m.uncharged) context
    { m.uncharged with uart := u }
  rw [← test] at run
  refine ⟨{ m.uncharged with
    state := m.uncharged.state.skipped (op.condition w m.uncharged) m.uncharged.nextOpcode
    uart := u
    fault := faulted
    error := error }, ?_, ?_⟩
  · rw [executeInstruction, op.dispatch_eq hop, run_bind_of run]
    rfl
  · rw [cyclesMin_skip found hop]
    exact skipLaw_skipped op w rfl rfl

/-- CPSE R0, R0 before a one-word NOP. -/
theorem cpse_skips_nop :
    let m := Machine.initial .zero
    ∃ m', (executeInstruction ⟨0xFC00, 0x1000, .CPSE, .Rd_Rr, 1, 1, "CPSE"⟩ 0x1000 0).run
        m.uncharged = some (true, m') ∧
      (SkipLaw .CPSE 0x1000 1 m.uncharged m' ↔
        (Skip.CPSE.condition 0x1000 m.uncharged = true →
          ∀ next, m.uncharged.nextOpcode = some next → next.words = 1)) :=
  skip_law_iff (by decide) rfl 0 (.initial .zero)

/-- CPSE R0, R0 was fetched, and a JMP is next. -/
def beforeJmp : Machine := .initial (Program.firmware [0x940C, 0x0000])

/-- The JMP is stepped over for two cycles, not three. -/
theorem cpse_undercharges_jmp :
    ∃ row m', decodeInstruction 0x1000 = some row ∧ row.op = .CPSE ∧
      (executeInstruction row 0x1000 0).run beforeJmp.uncharged = some (true, m') ∧
      Skip.CPSE.condition 0x1000 beforeJmp.uncharged = true ∧
      beforeJmp.uncharged.nextOpcode.map Opcode.words = some 2 ∧
      row.cyclesMin.toNat + m'.state.extraCycles.toNat = 2 ∧
      ¬ SkipLaw .CPSE 0x1000 row.cyclesMin beforeJmp.uncharged m' := by
  have equal : Skip.CPSE.condition 0x1000 beforeJmp.uncharged = true := by decide
  have jmp : beforeJmp.uncharged.nextOpcode =
      some ⟨0xFE0E, 0x940C, .JMP, .k22, 2, 3, "JMP"⟩ := by decide
  refine ⟨⟨0xFC00, 0x1000, .CPSE, .Rd_Rr, 1, 1, "CPSE"⟩, _, by decide, rfl, rfl, equal,
    by rw [jmp]; rfl, rfl, fun law => ?_⟩
  exact absurd (law.taken equal _ jmp).2.2 (by decide)

end AvrEmulator
