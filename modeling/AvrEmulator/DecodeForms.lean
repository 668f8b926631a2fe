import Mathlib.Tactic.FinCases
import Mathlib.Tactic.IntervalCases
import AvrEmulator.Library.Bits
import AvrEmulator.Library.MaskTable
import AvrEmulator.Encoding

/-! The decoder and the dispatcher against the reference encoding. -/

namespace AvrEmulator

namespace Form

open Layout (Gathers)

/-! ## Operand fields inside a word

A lemma is named by the bits its expression takes, as the manual numbers them. -/

theorem field_8_4 : Gathers (fun x : Word => ((x >>> 4) &&& 0x1F).setWidth 8) [4, 5, 6, 7, 8] := by
  intro x i hi
  interval_cases i <;> simp

theorem field_7_3 : Gathers (fun x : Word => ((x >>> 3) &&& 0x1F).setWidth 8) [3, 4, 5, 6, 7] := by
  intro x i hi
  interval_cases i <;> simp

theorem field_7_4 : Gathers (fun x : Word => ((x >>> 4) &&& 0x0F).setWidth 8) [4, 5, 6, 7] := by
  intro x i hi
  interval_cases i <;> simp

theorem field_6_4 : Gathers (fun x : Word => ((x >>> 4) &&& 0x07).setWidth 8) [4, 5, 6] := by
  intro x i hi
  interval_cases i <;> simp

theorem field_5_4 : Gathers (fun x : Word => ((x >>> 4) &&& 0x03).setWidth 8) [4, 5] := by
  intro x i hi
  interval_cases i <;> simp

theorem field_3_0 : Gathers (fun x : Word => (x &&& 0x0F).setWidth 8) [0, 1, 2, 3] := by
  intro x i hi
  interval_cases i <;> simp

theorem field_2_0 : Gathers (fun x : Word => (x &&& 0x07).setWidth 8) [0, 1, 2] := by
  intro x i hi
  interval_cases i <;> simp

theorem field_9_3 : Gathers (fun x : Word => ((x >>> 3) &&& 0x7F).setWidth 8)
    [3, 4, 5, 6, 7, 8, 9] := by
  intro x i hi
  interval_cases i <;> simp

theorem field_11_0 : Gathers (fun x : Word => x &&& 0x0FFF)
    [0, 1, 2, 3, 4, 5, 6, 7, 8, 9, 10, 11] := by
  intro x i hi
  interval_cases i <;> simp

-- Fields in two or three pieces.

theorem field_9_3_0 : Gathers (fun x : Word => (((x >>> 5) &&& 0x10) ||| (x &&& 0x0F)).setWidth 8)
    [0, 1, 2, 3, 9] := by
  intro x i hi
  interval_cases i <;> simp

theorem field_10_9_3_0 : Gathers
    (fun x : Word => (((x >>> 5) &&& 0x30) ||| (x &&& 0x0F)).setWidth 8) [0, 1, 2, 3, 9, 10] := by
  intro x i hi
  interval_cases i <;> simp

theorem field_7_6_3_0 : Gathers (fun x : Word => (((x >>> 2) &&& 0x30) ||| (x &&& 0x0F)).setWidth 8)
    [0, 1, 2, 3, 6, 7] := by
  intro x i hi
  interval_cases i <;> simp

theorem field_11_8_3_0 : Gathers
    (fun x : Word => (((x >>> 4) &&& 0xF0) ||| (x &&& 0x0F)).setWidth 8)
    [0, 1, 2, 3, 8, 9, 10, 11] := by
  intro x i hi
  interval_cases i <;> simp

theorem field_13_11_10_2_0 : Gathers
    (fun x : Word => (((x >>> 8) &&& 0x20) ||| ((x >>> 7) &&& 0x18) ||| (x &&& 0x07)).setWidth 8)
    [0, 1, 2, 10, 11, 13] := by
  intro x i hi
  interval_cases i <;> simp

theorem layout_length (f : Form) : f.layout.length = 16 := by cases f <;> rfl

/-- What gathers the bits of a field reads it off an encoded first word. -/
theorem gather_word1 {f : Form} {v : Field → Nat} {m : Nat} {e : Word → BitVec m} {ps : List Nat}
    (h : f.InRange v) (x : Field) (he : Gathers e ps)
    (hx : Layout.positions x f.layout = ps ∧ Layout.width x f.second = 0) :
    e (f.word1 v) = BitVec.ofNat m (v x) := by
  obtain ⟨place, first⟩ := hx
  have bound : v x < 2 ^ Layout.width x f.layout := by
    have := h x
    rwa [first, Nat.add_zero] at this
  have read := Layout.gather_encode (place ▸ he) f.layout_length
    (fun y => v y >>> Layout.width y f.second) fun i _ hi => by
      rw [first]
      exact Nat.testBit_lt_two_pow
        (Nat.lt_of_lt_of_le bound (Nat.pow_le_pow_right (by decide) hi))
  rw [first] at read
  exact read

/-- The fixed bits of a first word. -/
theorem fixed_word1 {f : Form} {v : Field → Nat} {m : Word}
    (hm : Layout.mask 16 f.layout &&& m = m) : f.word1 v &&& m = Layout.code 16 f.layout &&& m := by
  calc f.word1 v &&& m = f.word1 v &&& Layout.mask 16 f.layout &&& m := by
        rw [BitVec.and_assoc, hm]
    _ = Layout.code 16 f.layout &&& m := by
        rw [word1, Layout.encode_and_mask f.layout_length]

/-- The sign extension in `decodeK7`. -/
theorem signed_7 {raw : Byte} {n : Nat} (h : n < 2 ^ 7) (hraw : raw = byte n) :
    (if raw &&& 0x40 ≠ 0 then raw ||| 0x80 else raw) = (BitVec.ofNat 7 n).signExtend 8 := by
  have narrow : raw = (BitVec.ofNat 7 n).setWidth 8 :=
    hraw.trans (BitVec.setWidth_ofNat_of_le_of_lt (by decide) h).symm
  rw [narrow]
  exact Bits.sign_extend _ (by decide)

/-- The sign extension in `decodeK02`. -/
theorem signed_12 {raw : Word} {n : Nat} (h : n < 2 ^ 12) (hraw : raw = BitVec.ofNat 16 n) :
    (if raw &&& 0x0800 ≠ 0 then raw ||| 0xF000 else raw) =
      (BitVec.ofNat 12 n).signExtend 16 := by
  have narrow : raw = (BitVec.ofNat 12 n).setWidth 16 :=
    hraw.trans (BitVec.setWidth_ofNat_of_le_of_lt (by decide) h).symm
  rw [narrow]
  exact Bits.sign_extend _ (by decide)

theorem byte_add {y : Word} {n m : Nat} (h : y.setWidth 8 = byte n) :
    (y + BitVec.ofNat 16 m).setWidth 8 = byte (m + n) := by
  rw [BitVec.setWidth_add _ _ (by decide), h, BitVec.setWidth_ofNat_of_le (by decide), byte, byte,
    ← BitVec.ofNat_add, Nat.add_comm]

theorem byte_pair {y : Word} {n : Nat} (h : y.setWidth 8 = byte n) :
    ((24 : Word) + (y <<< 1)).setWidth 8 = byte (24 + 2 * n) := by
  have low := congrArg BitVec.toNat h
  have base : (24 : Word).toNat = 24 := rfl
  apply BitVec.eq_of_toNat_eq
  simp only [byte, base, BitVec.toNat_setWidth, BitVec.toNat_ofNat, BitVec.toNat_add,
    BitVec.toNat_shiftLeft, Nat.shiftLeft_eq] at low ⊢
  omega

section

variable {f : Form} {v : Field → Nat}

theorem decodeRdRr_word1 (h : f.InRange v)
    (hf : f ∈ [ADC, ADD, AND, CP, CPC, CPSE, EOR, MOV, MUL, OR, SBC, SUB]) :
    decodeRdRr (f.word1 v) = opsRdRr v := by
  fin_cases hf <;>
    exact congrArg₂ OpsRdRr.mk (gather_word1 h .d field_8_4 (by decide))
      (gather_word1 h .r field_9_3_0 (by decide))

theorem decodeRdK8_word1 (h : f.InRange v) (hf : f ∈ [ANDI, CPI, LDI, ORI, SBCI, SUBI]) :
    decodeRdK8 (f.word1 v) = opsRdK8 v := by
  fin_cases hf <;>
    exact congrArg₂ OpsRdK8.mk (byte_add (gather_word1 h .d field_7_4 (by decide)))
      (gather_word1 h .K field_11_8_3_0 (by decide))

theorem decodeRdK8_ser (h : SER.InRange v) : (decodeRdK8 (SER.word1 v)).d = byte (16 + v .d) :=
  byte_add (gather_word1 h .d field_7_4 (by decide))

theorem decodeRd_word1 (h : f.InRange v)
    (hf : f ∈ [ASR, COM, DEC, INC, LSR, NEG, POP, PUSH, ROR, SWAP, LPM_Z, LPM_ZInc]) :
    decodeRd (f.word1 v) = opsRd v := by
  fin_cases hf <;> exact congrArg OpsRd.mk (gather_word1 h .d field_8_4 (by decide))

theorem decodeRd06Rr06_word1 (h : f.InRange v) (hf : f ∈ [MULS, MOVW]) :
    decodeRd06Rr06 (f.word1 v) = opsRd06Rr06 v := by
  fin_cases hf <;>
    exact congrArg₂ OpsRd06Rr06.mk (gather_word1 h .d field_7_4 (by decide))
      (gather_word1 h .r field_3_0 (by decide))

theorem decodeRdRrMpy_word1 (h : f.InRange v) (hf : f ∈ [MULSU, FMUL, FMULS, FMULSU]) :
    decodeRdRrMpy (f.word1 v) = opsRdRrMpy v := by
  fin_cases hf <;>
    exact congrArg₂ OpsRdRrMpy.mk (byte_add (gather_word1 h .d field_6_4 (by decide)))
      (byte_add (gather_word1 h .r field_2_0 (by decide)))

theorem decodeRd06K6_word1 (h : f.InRange v) (hf : f ∈ [ADIW, SBIW]) :
    decodeRd06K6 (f.word1 v) = opsRd06K6 v := by
  fin_cases hf <;>
    exact congrArg₂ OpsRd06K6.mk (byte_pair (gather_word1 h .d field_5_4 (by decide)))
      (gather_word1 h .K field_7_6_3_0 (by decide))

theorem decodeBOnly_word1 (h : f.InRange v) (hf : f ∈ [BSET, BCLR]) :
    decodeBOnly (f.word1 v) = opsBOnly v := by
  fin_cases hf <;> exact congrArg OpsBOnly.mk (gather_word1 h .s field_6_4 (by decide))

theorem decodeRdB_word1 (h : f.InRange v) (hf : f ∈ [BLD, BST]) :
    decodeRdB (f.word1 v) = opsRdB v := by
  fin_cases hf <;>
    exact congrArg₂ OpsRdB.mk (gather_word1 h .d field_8_4 (by decide))
      (gather_word1 h .b field_2_0 (by decide))

theorem decodeRrB_word1 (h : f.InRange v) (hf : f ∈ [SBRC, SBRS]) :
    decodeRrB (f.word1 v) = opsRrB v := by
  fin_cases hf <;>
    exact congrArg₂ OpsRrB.mk (gather_word1 h .r field_8_4 (by decide))
      (gather_word1 h .b field_2_0 (by decide))

theorem decodeIOB_word1 (h : f.InRange v) (hf : f ∈ [CBI, SBI, SBIC, SBIS]) :
    decodeIOB (f.word1 v) = opsIOB v := by
  fin_cases hf <;>
    exact congrArg₂ OpsIOB.mk (gather_word1 h .A field_7_3 (by decide))
      (gather_word1 h .b field_2_0 (by decide))

theorem decodeRdIO_word1 (h : IN.InRange v) : decodeRdIO (IN.word1 v) = opsRdIO v :=
  congrArg₂ OpsRdIO.mk (gather_word1 h .d field_8_4 (by decide))
    (gather_word1 h .A field_10_9_3_0 (by decide))

theorem decodeIORr_word1 (h : OUT.InRange v) : decodeIORr (OUT.word1 v) = opsIORr v :=
  congrArg₂ OpsIORr.mk (gather_word1 h .A field_10_9_3_0 (by decide))
    (gather_word1 h .r field_8_4 (by decide))

theorem decodeK7_word1 (h : f.InRange v) (hf : f ∈ [BRBC, BRBS]) :
    decodeK7 (f.word1 v) = opsK7 v := by
  fin_cases hf <;>
    exact congrArg₂ OpsK7.mk (signed_7 (h .k) (gather_word1 h .k field_9_3 (by decide)))
      (gather_word1 h .s field_2_0 (by decide))

theorem decodeK02_word1 (h : f.InRange v) (hf : f ∈ [RJMP, RCALL]) :
    decodeK02 (f.word1 v) = opsK02 v := by
  fin_cases hf <;>
    exact congrArg OpsK02.mk (signed_12 (h .k) (gather_word1 h .k field_11_0 (by decide)))

/-- The addressing mode of a form of the LD and ST families. -/
def mode : Form → Byte
  | LD_XInc | LD_YInc | LD_ZInc | ST_XInc | ST_YInc | ST_ZInc => 1
  | LD_XDec | LD_YDec | LD_ZDec | ST_XDec | ST_YDec | ST_ZDec => 2
  | _ => 0

theorem mode_word1 (hm : Layout.mask 16 f.layout &&& 0x03 = 0x03 ∧
    (Layout.code 16 f.layout &&& 0x03).setWidth 8 = f.mode) :
    (f.word1 v &&& 0x03).setWidth 8 = f.mode := by
  rw [fixed_word1 hm.1, hm.2]

theorem decodeLdSt_load (h : f.InRange v)
    (hf : f ∈ [LD_X, LD_XInc, LD_XDec, LD_YInc, LD_YDec, LD_ZInc, LD_ZDec]) :
    decodeLdSt (f.word1 v) = opsLd v f.mode := by
  fin_cases hf <;>
    exact congrArg₂ OpsLdSt.mk (gather_word1 h .d field_8_4 (by decide)) (mode_word1 (by decide))

theorem decodeLdSt_store (h : f.InRange v)
    (hf : f ∈ [ST_X, ST_XInc, ST_XDec, ST_YInc, ST_YDec, ST_ZInc, ST_ZDec]) :
    decodeLdSt (f.word1 v) = opsSt v f.mode := by
  fin_cases hf <;>
    exact congrArg₂ OpsLdSt.mk (gather_word1 h .r field_8_4 (by decide)) (mode_word1 (by decide))

theorem decodeLdd_load (h : f.InRange v) (hf : f ∈ [LDD_Y, LDD_Z]) :
    decodeLdd (f.word1 v) = opsLdd v := by
  fin_cases hf <;>
    exact congrArg₂ OpsLdd.mk (gather_word1 h .d field_8_4 (by decide))
      (gather_word1 h .q field_13_11_10_2_0 (by decide))

theorem decodeLdd_store (h : f.InRange v) (hf : f ∈ [STD_Y, STD_Z]) :
    decodeLdd (f.word1 v) = opsStd v := by
  fin_cases hf <;>
    exact congrArg₂ OpsLdd.mk (gather_word1 h .r field_8_4 (by decide))
      (gather_word1 h .q field_13_11_10_2_0 (by decide))

theorem word2_eq (hf : f ∈ [JMP, CALL, LDS, STS]) : f.word2 v = BitVec.ofNat 16 (v .k) := by
  have whole : Gathers (fun x : Word => x) (Layout.positions Field.k f.second) := by
    intro x i hi
    fin_cases hf <;> interval_cases i <;> rfl
  have length : f.second.length = 16 ∧ Layout.width Field.k f.second = 16 := by
    fin_cases hf <;> decide
  exact Layout.gather_encode whole length.1 v fun i hi past => by omega

theorem decodeLdsSts_words (h : f.InRange v) (hf : f ∈ [LDS, STS]) :
    decodeLdsSts (f.word1 v) (f.word2 v) = opsLdsSts v := by
  have addr : f.word2 v = BitVec.ofNat 16 (v .k) := word2_eq (by fin_cases hf <;> decide)
  fin_cases hf <;> exact congrArg₂ OpsLdsSts.mk (gather_word1 h .d field_8_4 (by decide)) addr

/-- The target reaches the 16-bit program counter through the second word alone. -/
theorem decodeK22_target (instr secondWord : Word) :
    ((decodeK22 instr secondWord).k * 2).setWidth 16 = secondWord * 2 := by
  rw [BitVec.setWidth_mul _ _ (by decide)]
  congr 1
  ext i hi
  simp [decodeK22]

theorem target_words (hf : f ∈ [JMP, CALL]) :
    ((decodeK22 (f.word1 v) (f.word2 v)).k * 2).setWidth 16 = ((opsK22 v).k * 2).setWidth 16 := by
  have low : f.word2 v = BitVec.ofNat 16 (v .k) := word2_eq (by fin_cases hf <;> decide)
  rw [decodeK22_target, low, opsK22, BitVec.setWidth_mul _ _ (by decide),
    BitVec.setWidth_ofNat_of_le (by decide)]
  rfl

end

/-! ## Table rows -/

/-- The rows that can match an encoding of the form first. -/
def rows (f : Form) : List Opcode :=
  MaskTable.candidates Opcode.mask Opcode.code (Layout.mask 16 f.layout) (Layout.code 16 f.layout)
    opcodeTable

theorem rows_cover (f : Form) :
    f.rows.any (MaskTable.covers Opcode.mask Opcode.code (Layout.mask 16 f.layout)
      (Layout.code 16 f.layout)) = true := by
  cases f <;> decide +kernel

theorem decode_word1 (f : Form) (v : Field → Nat) :
    ∃ row ∈ f.rows, decodeInstruction (f.word1 v) = some row ∧
      f.word1 v &&& row.mask = row.code :=
  MaskTable.exists_candidate (Layout.encode_and_mask f.layout_length _) f.rows_cover

/-- The operation the first matching row names. -/
def op : Form → AvrOp
  | ADC => .ADC | ADD => .ADD | AND => .AND | CP => .CP | CPC => .CPC | CPSE => .CPSE
  | EOR => .CLR | MOV => .MOV | MUL => .MUL | OR => .OR | SBC => .SBC | SUB => .SUB
  | ANDI => .ANDI | CPI => .CPI | LDI => .LDI | ORI => .ORI | SBCI => .SBCI | SUBI => .SUBI
  | SER => .SER | ASR => .ASR | COM => .COM | DEC => .DEC | INC => .INC | LSR => .LSR
  | NEG => .NEG | POP => .POP | PUSH => .PUSH | ROR => .ROR | SWAP => .SWAP
  | LPM_Z => .LPM | LPM_ZInc => .LPM | MULS => .MULS | MOVW => .MOVW | MULSU => .MULSU
  | FMUL => .FMUL | FMULS => .FMULS | FMULSU => .FMULSU | ADIW => .ADIW | SBIW => .SBIW
  | BSET => .BSET | BCLR => .BCLR | BLD => .BLD | BST => .BST | SBRC => .SBRC | SBRS => .SBRS
  | CBI => .CBI | SBI => .SBI | SBIC => .SBIC | SBIS => .SBIS | IN => .IN | OUT => .OUT
  | BRBC => .BRBC | BRBS => .BRBS | RJMP => .RJMP | RCALL => .RCALL | JMP => .JMP
  | CALL => .CALL | LD_X => .LD_X | LD_XInc => .LD_X | LD_XDec => .LD_X | LDD_Y => .LD_Y
  | LD_YInc => .LD_Y | LD_YDec => .LD_Y | LDD_Z => .LD_Z | LD_ZInc => .LD_Z | LD_ZDec => .LD_Z
  | ST_X => .ST_X | ST_XInc => .ST_X | ST_XDec => .ST_X | STD_Y => .ST_Y | ST_YInc => .ST_Y
  | ST_YDec => .ST_Y | STD_Z => .ST_Z | ST_ZInc => .ST_Z | ST_ZDec => .ST_Z | LDS => .LDS
  | STS => .STS | LPM => .LPM | IJMP => .IJMP | ICALL => .ICALL | RET => .RET | RETI => .RETI
  | NOP => .NOP | SLEEP => .SLEEP | WDR => .WDR | BREAK => .BREAK | SPM => .SPM_E

/-- Rows narrower than LDI, BSET and BCLR come first for some of their operands. -/
def narrower : Form → List AvrOp
  | LDI => [.SER]
  | BSET => [.SEC, .SEZ, .SEN, .SEV, .SES, .SEH, .SET, .SEI]
  | BCLR => [.CLC, .CLZ, .CLN, .CLV, .CLS, .CLH, .CLT, .CLI]
  | _ => []

theorem rows_op (f : Form) :
    ∀ row ∈ f.rows, row.op ∈ f.op :: f.narrower ∧ row.words.toNat = f.words ∧
      (row.op = .SER → row.mask = 0xFF0F ∧ row.code = 0xEF0F) ∧
      (row.fmt = .LDD_family ↔ f ∈ [LDD_Y, LDD_Z, STD_Y, STD_Z]) ∧
      (row.op = .LPM → (row.fmt = .NONE ↔ f = LPM)) := by
  cases f <;> decide +kernel

/-- A word on the SER row carries the immediate 0xFF. -/
theorem ser_immediate {w : Word} (h : w &&& 0xFF0F = 0xEF0F) : (decodeRdK8 w).k = 0xFF := by
  have bit (i : Nat) (hi : i < 16) : (w &&& 0xFF0F)[i] = (0xEF0F : Word)[i] := by rw [h]
  have low := And.intro (bit 0 (by decide)) (And.intro (bit 1 (by decide))
    (And.intro (bit 2 (by decide)) (bit 3 (by decide))))
  have high := And.intro (bit 8 (by decide)) (And.intro (bit 9 (by decide))
    (And.intro (bit 10 (by decide)) (bit 11 (by decide))))
  simp at low high
  ext i hi
  interval_cases i <;> simp [decodeRdK8, low, high]

theorem dispatch_word1 (f : Form) {v : Field → Nat} (h : f.InRange v) {row : Opcode}
    (mem : row ∈ f.rows) (hit : f.word1 v &&& row.mask = row.code) :
    dispatch row (f.word1 v) (f.word2 v) = execute v f := by
  obtain ⟨hop, -, hser, hldd, hlpm⟩ := rows_op f row mem
  have one (hn : f.narrower = []) : row.op = f.op := by
    rw [hn] at hop
    exact List.mem_singleton.mp hop
  cases f
  case LDI =>
    rw [execute, ← decodeRdK8_word1 h (by decide)]
    rcases List.mem_pair.mp hop with hop | hop
    · simp only [dispatch, hop, op]
    · obtain ⟨hmask, hcode⟩ := hser hop
      rw [hmask, hcode] at hit
      simp only [dispatch, hop, executeSER, executeLDI, ser_immediate hit]
  case BSET | BCLR =>
    rw [execute, ← decodeBOnly_word1 h (by decide)]
    simp only [op, narrower, List.mem_cons, List.not_mem_nil, or_false] at hop
    rcases hop with hop | hop | hop | hop | hop | hop | hop | hop | hop <;>
      simp only [dispatch, hop]
  case ADC | ADD | AND | CP | CPC | CPSE | EOR | MOV | MUL | OR | SBC | SUB =>
    simp only [dispatch, one rfl, op, execute, decodeRdRr_word1 h (by decide)]
  case ANDI | CPI | ORI | SBCI | SUBI =>
    simp only [dispatch, one rfl, op, execute, decodeRdK8_word1 h (by decide)]
  case SER =>
    simp only [dispatch, one rfl, op, execute, executeSER, decodeRdK8_ser h]
  case ASR | COM | DEC | INC | LSR | NEG | POP | PUSH | ROR | SWAP =>
    simp only [dispatch, one rfl, op, execute, decodeRd_word1 h (by decide)]
  case MULS | MOVW =>
    simp only [dispatch, one rfl, op, execute, decodeRd06Rr06_word1 h (by decide)]
  case MULSU | FMUL | FMULS | FMULSU =>
    simp only [dispatch, one rfl, op, execute, decodeRdRrMpy_word1 h (by decide)]
  case ADIW | SBIW =>
    simp only [dispatch, one rfl, op, execute, decodeRd06K6_word1 h (by decide)]
  case BLD | BST => simp only [dispatch, one rfl, op, execute, decodeRdB_word1 h (by decide)]
  case SBRC | SBRS => simp only [dispatch, one rfl, op, execute, decodeRrB_word1 h (by decide)]
  case CBI | SBI | SBIC | SBIS =>
    simp only [dispatch, one rfl, op, execute, decodeIOB_word1 h (by decide)]
  case IN => simp only [dispatch, one rfl, op, execute, decodeRdIO_word1 h]
  case OUT => simp only [dispatch, one rfl, op, execute, decodeIORr_word1 h]
  case BRBC | BRBS => simp only [dispatch, one rfl, op, execute, decodeK7_word1 h (by decide)]
  case RJMP | RCALL => simp only [dispatch, one rfl, op, execute, decodeK02_word1 h (by decide)]
  case JMP =>
    simp only [dispatch, one rfl, op, execute, executeJMP, target_words (f := JMP) (by decide)]
  case CALL =>
    simp only [dispatch, one rfl, op, execute, executeCALL, target_words (f := CALL) (by decide)]
  case LDS | STS =>
    simp only [dispatch, one rfl, op, execute, decodeLdsSts_words h (by decide)]
  case LDD_Y | LDD_Z =>
    have fmt : row.fmt = .LDD_family := hldd.mpr (by decide)
    simp only [dispatch, one rfl, op, execute, fmt, ↓reduceIte, decodeLdd_load h (by decide)]
  case STD_Y | STD_Z =>
    have fmt : row.fmt = .LDD_family := hldd.mpr (by decide)
    simp only [dispatch, one rfl, op, execute, fmt, ↓reduceIte, decodeLdd_store h (by decide)]
  case LD_X | LD_XInc | LD_XDec | LD_YInc | LD_YDec | LD_ZInc | LD_ZDec =>
    have fmt : ¬ row.fmt = .LDD_family := fun he => absurd (hldd.mp he) (by decide)
    simp only [dispatch, one rfl, op, execute, fmt, ↓reduceIte, decodeLdSt_load h (by decide), mode]
  case ST_X | ST_XInc | ST_XDec | ST_YInc | ST_YDec | ST_ZInc | ST_ZDec =>
    have fmt : ¬ row.fmt = .LDD_family := fun he => absurd (hldd.mp he) (by decide)
    simp only [dispatch, one rfl, op, execute, fmt, ↓reduceIte, decodeLdSt_store h (by decide),
      mode]
  case LPM =>
    have fmt : row.fmt = .NONE := (hlpm (one rfl)).mpr rfl
    simp only [dispatch, one rfl, op, execute, fmt, ↓reduceIte]
  case LPM_Z =>
    have fmt : ¬ row.fmt = .NONE := fun he => absurd ((hlpm (one rfl)).mp he) (by decide)
    have plain : LPM_Z.word1 v &&& 0x01 = 0 := fixed_word1 (by decide)
    simp only [dispatch, one rfl, op, execute, fmt, ↓reduceIte, decodeRd_word1 h (by decide), plain]
    rfl
  case LPM_ZInc =>
    have fmt : ¬ row.fmt = .NONE := fun he => absurd ((hlpm (one rfl)).mp he) (by decide)
    have inc : LPM_ZInc.word1 v &&& 0x01 = 1 := fixed_word1 (by decide)
    simp only [dispatch, one rfl, op, execute, fmt, ↓reduceIte, decodeRd_word1 h (by decide), inc]
    rfl
  case IJMP | ICALL | RET | RETI | NOP | SLEEP | WDR | BREAK | SPM =>
    simp only [dispatch, one rfl, op, execute]

end Form

end AvrEmulator
