import AvrEmulator.OperandText
import AvrEmulator.OutOfRange

/-! What the text of an instruction tells about what it does. -/

namespace AvrEmulator

open Text Checked

/-- The formats in which the rows of an operation encode its operands. -/
def formats : AvrOp → List AvrFmt
  | .ADC | .ADD | .AND | .CLR | .CP | .CPC | .CPSE | .EOR | .LSL | .MOV | .MUL | .OR | .ROL
  | .SBC | .SUB | .TST => [.Rd_Rr]
  | .ANDI | .CBR | .CPI | .LDI | .ORI | .SBCI | .SBR | .SER | .SUBI => [.Rd_K8]
  | .ASR | .COM | .DEC | .INC | .LSR | .NEG | .POP | .PUSH | .ROR | .SWAP => [.Rd_only]
  | .FMUL | .FMULS | .FMULSU | .MULSU => [.Rd_Rr_mpy]
  | .ADIW | .SBIW => [.Rd06_K6]
  | .MOVW | .MULS => [.Rd06_Rr06]
  | .BCLR | .BSET => [.b_only]
  | .BLD | .BST => [.Rd_b]
  | .SBRC | .SBRS => [.Rr_b]
  | .CBI | .SBI | .SBIC | .SBIS => [.IO_b]
  | .IN => AvrFmt.Rd_IO :: []
  | .OUT => [.IO_Rr]
  | .BRBC | .BRBS | .BRCC | .BRCS | .BREQ | .BRGE | .BRHC | .BRHS | .BRID | .BRIE | .BRLO | .BRLT
  | .BRMI | .BRNE | .BRPL | .BRSH | .BRTC | .BRTS | .BRVC | .BRVS => [.k7]
  | .RJMP => [.k02]
  | .RCALL => [.k02_call]
  | .JMP => [.k22]
  | .CALL => [.k22_call]
  | .LD_X | .ST_X => [.LD_family]
  | .LD_Y | .LD_Z | .ST_Y | .ST_Z => [.LD_family, .LDD_family]
  | .LDS | .STS => [.LDS_STS]
  | .LPM => [.NONE, .Rd_only]
  | _ => [.NONE]

theorem fmt_mem_formats : ∀ row ∈ opcodeTable, row.fmt ∈ formats row.op := by
  decide +kernel

/-- The words carry the same operands, as their format has them. A long jump goes to the
same byte. -/
def SameOperands (fmt : AvrFmt) (w₁ e₁ w₂ e₂ : Word) : Prop :=
  match fmt with
  | .NONE => w₁ = w₂
  | .Rd_Rr => decodeRdRr w₁ = decodeRdRr w₂
  | .Rd_K8 => decodeRdK8 w₁ = decodeRdK8 w₂
  | .Rd_only => decodeRd w₁ = decodeRd w₂
  | .Rd_Rr_mpy => decodeRdRrMpy w₁ = decodeRdRrMpy w₂
  | .Rd06_K6 => decodeRd06K6 w₁ = decodeRd06K6 w₂
  | .Rd06_Rr06 => decodeRd06Rr06 w₁ = decodeRd06Rr06 w₂
  | .b_only => decodeBOnly w₁ = decodeBOnly w₂
  | .Rd_b => decodeRdB w₁ = decodeRdB w₂
  | .Rr_b => decodeRrB w₁ = decodeRrB w₂
  | .IO_b => decodeIOB w₁ = decodeIOB w₂
  | AvrFmt.Rd_IO => decodeRdIO w₁ = decodeRdIO w₂
  | .IO_Rr => decodeIORr w₁ = decodeIORr w₂
  | .k7 => decodeK7 w₁ = decodeK7 w₂
  | .k02 | .k02_call => decodeK02 w₁ = decodeK02 w₂
  | .k22 | .k22_call =>
    (((decodeK22 w₁ e₁).k * 2).setWidth 16 : Word) = ((decodeK22 w₂ e₂).k * 2).setWidth 16
  | .LD_family => decodeLdSt w₁ = decodeLdSt w₂
  | .LDD_family => decodeLdd w₁ = decodeLdd w₂
  | .LDS_STS => decodeLdsSts w₁ e₁ = decodeLdsSts w₂ e₂

/-- The mode of LPM is a fixed bit of its row. -/
theorem lpm_mode : ∀ row ∈ opcodeTable, row.op = .LPM → row.mask &&& 1 = 1 := by
  decide +kernel

theorem and_one_of_hit {w : Word} {row : Opcode} (bit : row.mask &&& 1 = 1)
    (hit : w &&& row.mask = row.code) : w &&& 1 = row.code &&& 1 := by
  rw [← hit, BitVec.and_assoc, bit]

theorem dispatch_congr {row : Opcode} {w₁ e₁ w₂ e₂ : Word}
    (found₁ : decodeInstruction w₁ = some row) (found₂ : decodeInstruction w₂ = some row)
    (same : SameOperands row.fmt w₁ e₁ w₂ e₂) : dispatch row w₁ e₁ = dispatch row w₂ e₂ := by
  have mem : row ∈ opcodeTable := (MaskTable.lookup_match found₁).1
  have format := fmt_mem_formats row mem
  cases op : row.op
  all_goals rw [op] at format
  case LPM =>
    have bit := lpm_mode row mem op
    have mode : w₁ &&& 1 = w₂ &&& 1 :=
      (and_one_of_hit bit (hit_of_decode found₁)).trans
        (and_one_of_hit bit (hit_of_decode found₂)).symm
    simp only [dispatch, op]
    split
    next => rfl
    next full =>
      have fmt : row.fmt = .Rd_only :=
        List.mem_singleton.mp ((List.mem_cons.mp format).resolve_left full)
      simp only [fmt, SameOperands] at same
      rw [same, mode]
  case LD_Y | LD_Z | ST_Y | ST_Z =>
    simp only [dispatch, op]
    split
    next fmt =>
      simp only [fmt, SameOperands] at same
      rw [same]
    next base =>
      have fmt : row.fmt = .LD_family :=
        (List.mem_cons.mp format).resolve_right fun rest => base (List.mem_singleton.mp rest)
      simp only [fmt, SameOperands] at same
      rw [same]
  case JMP | CALL =>
    simp only [List.mem_singleton.mp format, SameOperands] at same
    simp only [dispatch, op, executeJMP, executeCALL, same]
  case IJMP | ICALL | RET | RETI | NOP | SLEEP | WDR | BREAK | SPM_E => simp only [dispatch, op]
  all_goals
    simp only [List.mem_singleton.mp format, SameOperands] at same
    simp only [dispatch, op, same]

theorem register_inj {n : Nat} {a b : BitVec n} (h : register a.toNat = register b.toNat) : a = b :=
  BitVec.eq_of_toNat_eq (decimal_injective ((String.append_right_inj "R").mp h))

theorem unsigned_inj {a b : Byte} (h : unsigned a = unsigned b) : a = b :=
  BitVec.eq_of_toNat_eq (decimal_injective h)

theorem hex8_inj {a b : Byte} (h : hex8 a = hex8 b) : a = b :=
  BitVec.eq_of_toNat_eq (hex_injective a.isLt b.isLt ((String.append_right_inj "0x").mp h))

theorem hex16_inj {a b : Word} (h : hex16 a = hex16 b) : a = b :=
  BitVec.eq_of_toNat_eq (hex_injective a.isLt b.isLt ((String.append_right_inj "0x").mp h))

/-- A register of a pair or of the upper half. -/
theorem scaled_inj {movw : Prop} [Decidable movw] {a b : Byte}
    (h : register (if movw then a.toNat * 2 else a.toNat + 16) =
      register (if movw then b.toNat * 2 else b.toNat + 16)) : a = b := by
  have same := decimal_injective ((String.append_right_inj "R").mp h)
  apply BitVec.eq_of_toNat_eq
  split at same <;> omega

theorem full_rows : ∀ row ∈ opcodeTable, row.fmt = .LD_family →
    ∀ first ∈ MaskTable.candidates Opcode.mask Opcode.code (row.mask ||| 3) (row.code ||| 3)
      opcodeTable, first.fmt ≠ .LD_family := by
  decide +kernel

/-- The fourth mode is another instruction. -/
theorem mode_lt {w : Word} {row : Opcode} (found : decodeInstruction w = some row)
    (fmt : row.fmt = .LD_family) : (decodeLdSt w).mode ∈ [(0 : Byte), 1, 2] := by
  have fourth : w &&& 3 ≠ 3 := by
    intro full
    have hit : w &&& (row.mask ||| 3) = row.code ||| 3 := by
      rw [BitVec.and_or_distrib_left, hit_of_decode found, full]
    have first : MaskTable.lookup Opcode.mask Opcode.code opcodeTable w = some row := found
    rw [MaskTable.lookup_candidates hit] at first
    exact full_rows row (MaskTable.lookup_match found).1 fmt row
      (MaskTable.lookup_match first).1 fmt
  have field := shift_and_mask w (k := 0x03) (a := 0) (n := 2) rfl (by decide)
  rw [BitVec.ushiftRight_zero] at field
  change ((w &&& 3).setWidth 8) ∈ _
  have modes : ∀ b : BitVec 2, b.setWidth 16 ≠ (3 : Word) →
      (b.setWidth 16).setWidth 8 ∈ [(0 : Byte), 1, 2] := by decide
  rw [field] at fourth ⊢
  exact modes _ fourth

theorem pointerText_inj {row : Opcode} (fmt : row.fmt = .LD_family) (mem : row ∈ opcodeTable)
    {m₁ m₂ : Byte} (h₁ : m₁ ∈ [(0 : Byte), 1, 2]) (h₂ : m₂ ∈ [(0 : Byte), 1, 2])
    (h : pointerText row m₁ = pointerText row m₂) : m₁ = m₂ := by
  have forms : ∀ row ∈ opcodeTable, row.fmt = .LD_family → ∀ m₁ ∈ [(0 : Byte), 1, 2],
      ∀ m₂ ∈ [(0 : Byte), 1, 2], pointerText row m₁ = pointerText row m₂ → m₁ = m₂ := by
    decide +kernel
  exact forms row mem fmt m₁ h₁ m₂ h₂ h

theorem branch_of_name {row : Opcode} {w₁ w₂ : Word} (fmt : row.fmt = .k7)
    (same : name row w₁ = name row w₂) : (decodeK7 w₁).s = (decodeK7 w₂).s := by
  have distinct : ∀ i < 8, ∀ j < 8,
      (brbsNames.getD i "" = brbsNames.getD j "" → i = j) ∧
      (brbcNames.getD i "" = brbcNames.getD j "" → i = j) := by decide
  have small (w : Word) : (decodeK7 w).s.toNat < 8 := by
    rw [decodeK7_s]
    exact BitVec.isLt _
  obtain ⟨set, clear⟩ := distinct _ (small w₁) _ (small w₂)
  apply BitVec.eq_of_toNat_eq
  rw [name, name, if_pos fmt, if_pos fmt, branchNames] at same
  split at same
  next => exact set same
  next => exact clear same

theorem ser_row : ∀ row ∈ opcodeTable, row.op = .SER → row.mask = 0xFF0F ∧ row.code = 0xEF0F := by
  decide +kernel

theorem none_row : ∀ row ∈ opcodeTable, row.fmt = .NONE → row.mask = 0xFFFF := by
  decide +kernel

/-- Equal texts show equal operands, the second register of EOR apart. -/
theorem sameOperands_of_text {row : Opcode} {w₁ e₁ w₂ e₂ pc : Word}
    (found₁ : decodeInstruction w₁ = some row) (found₂ : decodeInstruction w₂ = some row)
    (same : name row w₁ = name row w₂) (follows : bare row = false)
    (text : operandText row w₁ e₁ pc = operandText row w₂ e₂ pc)
    (source : row.op = .CLR → (decodeRdRr w₁).d = (decodeRdRr w₂).d →
      (decodeRdRr w₁).r = (decodeRdRr w₂).r) : SameOperands row.fmt w₁ e₁ w₂ e₂ := by
  have mem : row ∈ opcodeTable := (MaskTable.lookup_match found₁).1
  have spelled := spelled_of_live row (live_of_decode found₁)
  obtain ⟨first, second⟩ := operands_of_text follows text
  unfold firstOperand at first
  unfold separator secondOperand at second
  cases fmt : row.fmt
  all_goals simp only [fmt] at first second
  case NONE => exact absurd follows (by simp [bare, fmt])
  case b_only => exact absurd fmt spelled.flags
  case Rd_Rr =>
    have d := register_inj first
    by_cases clr : row.op = .CLR
    · exact congrArg₂ OpsRdRr.mk d (source clr d)
    · exact congrArg₂ OpsRdRr.mk d (register_inj (second (by simp [clr])))
  case Rd_K8 =>
    have d := register_inj first
    by_cases ser : row.op = .SER
    · obtain ⟨mask, code⟩ := ser_row row mem ser
      have full {w : Word} (found : decodeInstruction w = some row) : (decodeRdK8 w).k = 0xFF :=
        Form.ser_immediate (by rw [← mask, ← code, hit_of_decode found])
      exact congrArg₂ OpsRdK8.mk d ((full found₁).trans (full found₂).symm)
    · exact congrArg₂ OpsRdK8.mk d (hex8_inj (second (by simp [ser])))
  case Rd_only => exact congrArg OpsRd.mk (register_inj first)
  case Rd_Rr_mpy =>
    exact congrArg₂ OpsRdRrMpy.mk (register_inj first) (register_inj (second (by simp)))
  case Rd06_K6 =>
    exact congrArg₂ OpsRd06K6.mk (register_inj first) (unsigned_inj (second (by simp)))
  case Rd06_Rr06 =>
    exact congrArg₂ OpsRd06Rr06.mk (scaled_inj first) (scaled_inj (second (by simp)))
  case Rd_b => exact congrArg₂ OpsRdB.mk (register_inj first) (unsigned_inj (second (by simp)))
  case Rr_b => exact congrArg₂ OpsRrB.mk (register_inj first) (unsigned_inj (second (by simp)))
  case IO_b => exact congrArg₂ OpsIOB.mk (hex8_inj first) (unsigned_inj (second (by simp)))
  case Rd_IO => exact congrArg₂ OpsRdIO.mk (register_inj first) (hex8_inj (second (by simp)))
  case IO_Rr => exact congrArg₂ OpsIORr.mk (hex8_inj first) (register_inj (second (by simp)))
  case k7 =>
    exact congrArg₂ OpsK7.mk (BitVec.eq_of_toInt_eq (signed_injective first))
      (branch_of_name fmt same)
  case k02 | k02_call =>
    exact congrArg OpsK02.mk (BitVec.eq_of_toInt_eq (signed_injective first))
  case k22 | k22_call => exact hex16_inj first
  case LD_family =>
    have mode := pointerText_inj fmt mem (mode_lt found₁ fmt) (mode_lt found₂ fmt)
      (second (by simp))
    exact congrArg₂ OpsLdSt.mk (register_inj first) mode
  case LDD_family =>
    have q := (String.append_right_inj _).mp ((String.append_right_inj _).mp (second (by simp)))
    exact congrArg₂ OpsLdd.mk (register_inj first) (unsigned_inj q)
  case LDS_STS =>
    exact congrArg₂ OpsLdsSts.mk (register_inj first) (hex16_inj (second (by simp)))

/-- The state after a load from program memory. -/
def AvrState.loadedLpm (s : AvrState) (d : Nat) (mode : Byte) : AvrState :=
  let pointer := s.pointer 30
  let s' := s.setReg d (s.flash.peek pointer.toNat)
  if mode = 1 then
    (s'.setReg 30 (((pointer + 1) &&& 0xFF).setWidth 8)).setReg 31
      (((pointer + 1) >>> 8).setWidth 8)
  else s'

theorem run_executeLPM {ops : OpsRd} {m : Machine} (mode : Byte) (hd : ops.d.toNat < 32)
    (inside : (m.state.pointer 30).toNat < avrFlashSize) :
    (executeLPM ops mode).run m = some ((), m.setState (m.state.loadedLpm ops.d.toNat mode)) := by
  have pointer : (onCpu (readRegWord 30)).run m = some (m.state.pointer 30, m) :=
    run_onCpu (run_readRegWord (by decide))
  have value : (onCpu (flashAt (m.state.pointer 30).toNat)).run m =
      some (m.state.flash.peek (m.state.pointer 30).toNat, m) :=
    run_onCpu (by simp [flashAt, Cells.read?_eq _ inside])
  rw [executeLPM, run_bind_of pointer, if_neg (Nat.not_le.mpr inside), run_bind_of value,
    run_bind_of (run_onCpu (run_setRegAt _ hd)), AvrState.loadedLpm]
  by_cases inc : mode = 1
  · rw [if_pos inc, if_pos inc]
    apply run_onCpu
    rw [writeRegWord, run_bind_of (run_setRegAt _ (by decide))]
    exact run_setRegAt _ (by decide)
  · rw [if_neg inc, if_neg inc]
    rfl

/-- A register of the pointer is written over. -/
theorem loadedLpm_pointer (s : AvrState) {d : Nat} (low : 30 ≤ d) (high : d < 32) :
    s.loadedLpm d 1 = s.loadedLpm 30 1 := by
  have lost (v x y : Byte) : ((s.r.poke d v).poke 30 x).poke 31 y =
      ((s.r.poke 30 v).poke 30 x).poke 31 y := by
    funext i
    by_cases high : i.val = 31
    · obtain rfl : i = 31 := Fin.ext high
      rfl
    · rw [Cells.poke_of_ne _ _ high, Cells.poke_of_ne _ _ high]
      by_cases low : i.val = 30
      · obtain rfl : i = 30 := Fin.ext low
        rfl
      · have dest : i.val ≠ d := by omega
        rw [Cells.poke_of_ne _ _ low, Cells.poke_of_ne _ _ dest, Cells.poke_of_ne _ _ low,
          Cells.poke_of_ne _ _ low]
  simp only [AvrState.loadedLpm, AvrState.setReg, ↓reduceIte, lost]

theorem executeLPM_pointer {a b : OpsRd} (ha : 30 ≤ a.d.toNat ∧ a.d.toNat < 32)
    (hb : 30 ≤ b.d.toNat ∧ b.d.toNat < 32) : executeLPM a 1 = executeLPM b 1 := by
  funext m
  by_cases inside : (m.state.pointer 30).toNat < avrFlashSize
  · refine (run_executeLPM 1 ha.2 inside).trans (Eq.trans ?_ (run_executeLPM 1 hb.2 inside).symm)
    rw [loadedLpm_pointer _ ha.1 ha.2, loadedLpm_pointer _ hb.1 hb.2]
  · have fault (ops : OpsRd) :
        (executeLPM ops 1).run m = (faultLpm (m.state.pointer 30)).run m := by
      have pointer : (onCpu (readRegWord 30)).run m = some (m.state.pointer 30, m) :=
        run_onCpu (run_readRegWord (by decide))
      rw [executeLPM, run_bind_of pointer, if_pos (Nat.le_of_not_lt inside)]
    exact (fault a).trans (fault b).symm

/-! ## What the text hides -/

/-- The text leaves out an operand that matters: the second register of EOR, which it calls
CLR, or the register that LPM loads. With Z+ a loaded R30 or R31 is written over. -/
def Hidden (row : Opcode) (w₁ w₂ : Word) : Prop :=
  (row.op = .CLR ∧ (decodeRdRr w₁).d = (decodeRdRr w₂).d ∧
    (decodeRdRr w₁).r ≠ (decodeRdRr w₂).r) ∨
  (row.op = .LPM ∧ row.fmt = .Rd_only ∧ (decodeRd w₁).d ≠ (decodeRd w₂).d ∧
    (w₁ &&& 1 = 1 → (decodeRd w₁).d < 30 ∨ (decodeRd w₂).d < 30))

/-- An instruction at the program counter, which steps over it before it executes. -/
def executeAt (row : Opcode) (w e : Word) : Emu Bool := do
  onCpu (addPc (row.words.setWidth 16 * 2))
  executeInstruction row w e

/-- The state that an instruction at the program counter leaves. -/
def stateAfter (row : Opcode) (w e : Word) (m : Machine) : Option AvrState :=
  ((executeAt row w e).run m).map fun x => x.2.state

theorem lpm_bit {row : Opcode} {w : Word} (found : decodeInstruction w = some row)
    (lpm : row.op = .LPM) : w &&& 1 = row.code &&& 1 :=
  and_one_of_hit (lpm_mode row (MaskTable.lookup_match found).1 lpm) (hit_of_decode found)

theorem dispatch_lpm {row : Opcode} (lpm : row.op = .LPM) (fmt : row.fmt = .Rd_only) (w e : Word) :
    dispatch row w e = executeLPM (decodeRd w) ((w &&& 1).setWidth 8) := by
  simp only [dispatch, lpm, fmt]
  rfl

/-- Equal texts that hide nothing are of instructions that do the same. -/
theorem dispatch_of_text {row : Opcode} {w₁ e₁ w₂ e₂ pc : Word}
    (found₁ : decodeInstruction w₁ = some row) (found₂ : decodeInstruction w₂ = some row)
    (text : disassemble w₁ e₁ pc = disassemble w₂ e₂ pc) (visible : ¬ Hidden row w₁ w₂) :
    dispatch row w₁ e₁ = dispatch row w₂ e₂ := by
  obtain ⟨-, same, operands⟩ := row_of_text found₁ found₂ text
  have spelled := spelled_of_live row (live_of_decode found₁)
  by_cases none : row.fmt = .NONE
  · have full := none_row row (MaskTable.lookup_match found₁).1 none
    have word {w : Word} (found : decodeInstruction w = some row) : w = row.code := by
      rw [← hit_of_decode found, full]
      exact (BitVec.and_allOnes (x := w)).symm
    apply dispatch_congr found₁ found₂
    rw [none]
    exact (word found₁).trans (word found₂).symm
  by_cases lpm : row.op = .LPM
  · have fmt : row.fmt = .Rd_only := (spelled.lpm lpm).resolve_left none
    by_cases dest : (decodeRd w₁).d = (decodeRd w₂).d
    · apply dispatch_congr found₁ found₂
      rw [fmt]
      exact congrArg OpsRd.mk dest
    · obtain ⟨inc, pointer⟩ : w₁ &&& 1 = 1 ∧
          ¬ ((decodeRd w₁).d < 30 ∨ (decodeRd w₂).d < 30) := by
        by_contra other
        exact visible (.inr ⟨lpm, fmt, dest, fun inc =>
          not_not.mp fun pointer => other ⟨inc, pointer⟩⟩)
      have inc' : w₂ &&& 1 = 1 := by rw [lpm_bit found₂ lpm, ← lpm_bit found₁ lpm, inc]
      rw [dispatch_lpm lpm fmt, dispatch_lpm lpm fmt, inc, inc']
      rw [not_or, BitVec.not_lt, BitVec.not_lt] at pointer
      exact executeLPM_pointer ⟨pointer.1, decodeRd_lt w₁⟩ ⟨pointer.2, decodeRd_lt w₂⟩
  · refine dispatch_congr found₁ found₂
      (sameOperands_of_text found₁ found₂ same (by simp [bare, none, lpm]) operands ?_)
    exact fun clr dest => not_not.mp fun other => visible (.inl ⟨clr, dest, other⟩)

theorem text_of_hidden {row : Opcode} {w₁ w₂ : Word} (found₁ : decodeInstruction w₁ = some row)
    (found₂ : decodeInstruction w₂ = some row) (hidden : Hidden row w₁ w₂) (e₁ e₂ pc : Word) :
    disassemble w₁ e₁ pc = disassemble w₂ e₂ pc := by
  simp only [disassemble, found₁, found₂]
  rcases hidden with ⟨clr, dest, -⟩ | ⟨lpm, fmt, -⟩
  · have format := fmt_mem_formats row (MaskTable.lookup_match found₁).1
    rw [clr] at format
    have fmt : row.fmt = .Rd_Rr := List.mem_singleton.mp format
    simp only [disassembleOp, fmt, clr, ↓reduceIte, dest]
  · simp only [disassembleOp, fmt, lpm, ↓reduceIte]

theorem run_executeAt {row : Opcode} {w e : Word} {m m' : Machine}
    (run : (dispatch row w e).run
      (m.setState { m.state with pc := m.state.pc + row.words.setWidth 16 * 2 }) =
        some ((), m')) : (executeAt row w e).run m = some (true, m') := by
  have step : (onCpu (addPc (row.words.setWidth 16 * 2))).run m =
      some ((), m.setState { m.state with pc := m.state.pc + row.words.setWidth 16 * 2 }) := rfl
  rw [executeAt, run_bind_of step, executeInstruction, run_bind_of run]
  rfl

theorem run_executeEOR {ops : OpsRdRr} (s : AvrState) (hd : ops.d.toNat < 32)
    (hr : ops.r.toNat < 32) : (executeEOR ops).run s = some ((),
      s.withResult 0xE4 ops.d (logical (s.reg ops.d.toNat ^^^ s.reg ops.r.toNat))) := by
  rw [executeEOR, run_bind_of (run_regAt hd), run_bind_of (run_regAt hr)]
  exact run_putResult _ _ s hd

/-- Two source registers with different bytes tell two instructions apart. -/
theorem eor_differs {row : Opcode} {w₁ w₂ : Word} (clr : row.op = .CLR)
    (dest : (decodeRdRr w₁).d = (decodeRdRr w₂).d) (source : (decodeRdRr w₁).r ≠ (decodeRdRr w₂).r)
    (e₁ e₂ pc : Word) :
    ∃ m : Machine, m.state.pc = pc ∧ stateAfter row w₁ e₁ m ≠ stateAfter row w₂ e₂ m := by
  let s : AvrState := { AvrState.zero with pc := pc }.setReg (decodeRdRr w₁).r.toNat 1
  let d := (decodeRdRr w₁).d
  have run {w : Word} (e : Word) (target : (decodeRdRr w).d = d) :
      ∃ m', (executeAt row w e).run (.initial s) = some (true, m') ∧
        m'.state.reg d.toNat = s.reg d.toNat ^^^ s.reg (decodeRdRr w).r.toNat := by
    obtain ⟨hd, hr⟩ := decodeRdRr_lt w
    refine ⟨_, run_executeAt (by
      simp only [dispatch, clr]
      exact run_onCpu (run_executeEOR _ hd hr)), ?_⟩
    rw [target] at hd ⊢
    exact AvrState.reg_setReg_self _ _ hd
  obtain ⟨m₁, run₁, reg₁⟩ := run e₁ rfl
  obtain ⟨m₂, run₂, reg₂⟩ := run e₂ dest.symm
  refine ⟨.initial s, rfl, ?_⟩
  intro same
  rw [stateAfter, stateAfter, run₁, run₂] at same
  have states : m₁.state = m₂.state := Option.some.inj same
  rw [states] at reg₁
  have bytes := (BitVec.xor_right_inj _).mp (reg₁.symm.trans reg₂)
  have one : s.reg (decodeRdRr w₁).r.toNat = 1 :=
    AvrState.reg_setReg_self _ _ (decodeRdRr_lt w₁).2
  have zero : s.reg (decodeRdRr w₂).r.toNat = 0 := by
    refine (AvrState.reg_setReg_of_ne _ _ fun other => ?_).trans ?_
    · exact source (BitVec.eq_of_toNat_eq other).symm
    · unfold AvrState.reg Cells.peek
      split <;> rfl
  rw [one, zero] at bytes
  exact absurd bytes (by decide)

theorem reg_loadedLpm (s : AvrState) {d i : Nat} {mode : Byte} (hd : d < 32)
    (low : mode = 1 → i < 30) :
    (s.loadedLpm d mode).reg i =
      if i = d then s.flash.peek (s.pointer 30).toNat else s.reg i := by
  have loaded (v : Byte) : (s.setReg d v).reg i = if i = d then v else s.reg i := by
    split
    next same => rw [same, AvrState.reg_setReg_self _ _ hd]
    next other => rw [AvrState.reg_setReg_of_ne _ _ other]
  unfold AvrState.loadedLpm
  by_cases inc : mode = 1
  · have below := low inc
    dsimp only
    rw [if_pos inc, AvrState.reg_setReg_of_ne _ _ (by omega),
      AvrState.reg_setReg_of_ne _ _ (by omega), loaded]
  · dsimp only
    rw [if_neg inc, loaded]

theorem and_one_of_mode {w : Word} (inc : (w &&& 1).setWidth 8 = (1 : Byte)) : w &&& 1 = 1 := by
  have bit : ∀ b : Bool, ((BitVec.ofBool b).setWidth 16).setWidth 8 = (1 : Byte) →
      (BitVec.ofBool b).setWidth 16 = (1 : Word) := by decide
  have field : w &&& 1 = (BitVec.ofBool (w.getLsbD 0)).setWidth 16 :=
    BitVec.and_one_eq_setWidth_ofBool_getLsbD
  rw [field] at inc ⊢
  exact bit _ inc

/-- A byte other than zero in program memory tells two destinations apart. -/
theorem lpm_differs {row : Opcode} {w₁ w₂ : Word} (lpm : row.op = .LPM) (fmt : row.fmt = .Rd_only)
    (bit : w₁ &&& 1 = w₂ &&& 1) (dest : (decodeRd w₁).d ≠ (decodeRd w₂).d)
    (low : w₁ &&& 1 = 1 → (decodeRd w₁).d < 30 ∨ (decodeRd w₂).d < 30) (e₁ e₂ pc : Word) :
    ∃ m : Machine, m.state.pc = pc ∧ stateAfter row w₁ e₁ m ≠ stateAfter row w₂ e₂ m := by
  let s : AvrState := { AvrState.zero with pc := pc, flash := AvrState.zero.flash.poke 0 1 }
  have plain (i : Nat) : s.reg i = 0 := by
    unfold AvrState.reg Cells.peek
    split <;> rfl
  have pointer : s.pointer 30 = 0 := by
    rw [AvrState.pointer, plain, plain]
    rfl
  obtain ⟨i, below, either⟩ : ∃ i, ((w₁ &&& 1).setWidth 8 = (1 : Byte) → i < 30) ∧
      (i = (decodeRd w₁).d.toNat ∨ i = (decodeRd w₂).d.toNat) := by
    by_cases first : (decodeRd w₁).d < 30
    · exact ⟨_, fun _ => first, .inl rfl⟩
    · exact ⟨_, fun inc => (low (and_one_of_mode inc)).resolve_left first, .inr rfl⟩
  have run {w : Word} (e : Word) (same : w &&& 1 = w₁ &&& 1) :
      ∃ m', (executeAt row w e).run (.initial s) = some (true, m') ∧
        m'.state.reg i = if i = (decodeRd w).d.toNat then 1 else 0 := by
    have inside : (s.pointer 30).toNat < avrFlashSize := by
      rw [pointer]
      decide
    refine ⟨_, run_executeAt (by
      rw [dispatch_lpm lpm fmt, same]
      exact run_executeLPM _ (decodeRd_lt w) inside), ?_⟩
    apply (reg_loadedLpm _ (decodeRd_lt w) below).trans
    change (if i = (decodeRd w).d.toNat then s.flash.peek (s.pointer 30).toNat else s.reg i) = _
    rw [plain, pointer]
    rfl
  obtain ⟨m₁, run₁, reg₁⟩ := run e₁ rfl
  obtain ⟨m₂, run₂, reg₂⟩ := run e₂ bit.symm
  refine ⟨.initial s, rfl, ?_⟩
  intro same
  rw [stateAfter, stateAfter, run₁, run₂] at same
  have states : m₁.state = m₂.state := Option.some.inj same
  rw [states] at reg₁
  have bytes := reg₁.symm.trans reg₂
  have apart : (decodeRd w₁).d.toNat ≠ (decodeRd w₂).d.toNat :=
    fun other => dest (BitVec.eq_of_toNat_eq other)
  rcases either with rfl | rfl
  · rw [if_pos rfl, if_neg apart] at bytes
    exact absurd bytes (by decide)
  · rw [if_pos rfl, if_neg apart.symm] at bytes
    exact absurd bytes (by decide)

/-! ## The disassembly is faithful exactly where it hides nothing -/

/-- Instructions with the same text leave the same state, from every machine in which
they are next. -/
def Faithful (row₁ row₂ : Opcode) (w₁ e₁ w₂ e₂ pc : Word) : Prop :=
  disassemble w₁ e₁ pc = disassemble w₂ e₂ pc →
    ∀ m : Machine, m.state.pc = pc → stateAfter row₁ w₁ e₁ m = stateAfter row₂ w₂ e₂ m

/-- Equal texts that hide nothing run alike on the whole machine. -/
theorem executeAt_of_text {w₁ w₂ e₁ e₂ pc : Word} {row₁ row₂ : Opcode}
    (found₁ : decodeInstruction w₁ = some row₁) (found₂ : decodeInstruction w₂ = some row₂)
    (text : disassemble w₁ e₁ pc = disassemble w₂ e₂ pc)
    (visible : ¬ (row₁ = row₂ ∧ Hidden row₁ w₁ w₂)) :
    executeAt row₁ w₁ e₁ = executeAt row₂ w₂ e₂ := by
  obtain ⟨rfl, -, -⟩ := row_of_text found₁ found₂ text
  have dispatched := dispatch_of_text found₁ found₂ text fun hidden => visible ⟨rfl, hidden⟩
  rw [executeAt, executeAt, executeInstruction, executeInstruction, dispatched]

/-- The text determines what an instruction does, the second register of EOR and the
destination of LPM apart. -/
theorem disassembly_faithful_iff {w₁ w₂ : Word} {row₁ row₂ : Opcode}
    (found₁ : decodeInstruction w₁ = some row₁) (found₂ : decodeInstruction w₂ = some row₂)
    (e₁ e₂ pc : Word) :
    Faithful row₁ row₂ w₁ e₁ w₂ e₂ pc ↔ ¬ (row₁ = row₂ ∧ Hidden row₁ w₁ w₂) := by
  constructor
  · rintro faithful ⟨rfl, hidden⟩
    have same := faithful (text_of_hidden found₁ found₂ hidden e₁ e₂ pc)
    obtain ⟨m, at_pc, differ⟩ : ∃ m : Machine, m.state.pc = pc ∧
        stateAfter row₁ w₁ e₁ m ≠ stateAfter row₁ w₂ e₂ m := by
      rcases hidden with ⟨clr, dest, source⟩ | ⟨lpm, fmt, dest, low⟩
      · exact eor_differs clr dest source e₁ e₂ pc
      · have bit := (lpm_bit found₁ lpm).trans (lpm_bit found₂ lpm).symm
        exact lpm_differs lpm fmt bit dest low e₁ e₂ pc
    exact differ (same m at_pc)
  · intro visible text m _
    rw [stateAfter, stateAfter, executeAt_of_text found₁ found₂ text visible]

/-- LPM R30, Z+ and LPM R31, Z+ read alike, and both leave only the new pointer there. -/
theorem lpm_into_pointer :
    disassemble 0x91E5 0 0 = "LPM Rd,Z+" ∧ disassemble 0x91F5 0 0 = "LPM Rd,Z+" ∧
      Faithful ⟨0xFE0F, 0x9005, .LPM, .Rd_only, 1, 3, "LPM Rd,Z+"⟩
        ⟨0xFE0F, 0x9005, .LPM, .Rd_only, 1, 3, "LPM Rd,Z+"⟩ 0x91E5 0 0x91F5 0 0 := by
  refine ⟨by decide +kernel, by decide +kernel,
    (disassembly_faithful_iff (by decide +kernel) (by decide +kernel) 0 0 0).mpr ?_⟩
  unfold Hidden
  decide

/-- EOR R1, R2 and EOR R1, R3 read alike. -/
theorem eor_reads_as_clr : ∃ row, decodeInstruction 0x2412 = some row ∧
    decodeInstruction 0x2413 = some row ∧ disassemble 0x2412 0 0 = "CLR R1" ∧
    disassemble 0x2413 0 0 = "CLR R1" ∧ ¬ Faithful row row 0x2412 0 0x2413 0 0 := by
  refine ⟨⟨0xFC00, 0x2400, .CLR, .Rd_Rr, 1, 1, "CLR"⟩, by decide +kernel, by decide +kernel,
    by decide +kernel, by decide +kernel, fun faithful => ?_⟩
  obtain ⟨m, at_pc, differ⟩ := @eor_differs ⟨0xFC00, 0x2400, .CLR, .Rd_Rr, 1, 1, "CLR"⟩
    0x2412 0x2413 rfl (by decide) (by decide) 0 0 0
  exact differ (faithful (by decide +kernel) m at_pc)

end AvrEmulator
