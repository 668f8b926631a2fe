import AvrEmulator.Mnemonics

/-! The text of an instruction: the name of its row and operands, and what two equal
texts have in common. -/

namespace AvrEmulator

open Text

def register (n : Nat) : String := "R" ++ decimal n

/-- What is printed behind the name, up to the second operand. -/
def firstOperand (row : Opcode) (w e : Word) : String :=
  match row.fmt with
  | .NONE | .b_only => ""
  | .Rd_Rr => register (decodeRdRr w).d.toNat
  | .Rd_K8 => register (decodeRdK8 w).d.toNat
  | .Rd_only => register (decodeRd w).d.toNat
  | .Rd_Rr_mpy => register (decodeRdRrMpy w).d.toNat
  | .Rd06_K6 => register (decodeRd06K6 w).d.toNat
  | .Rd06_Rr06 =>
    let d := (decodeRd06Rr06 w).d.toNat
    register (if row.op = .MOVW then d * 2 else d + 16)
  | .Rd_b => register (decodeRdB w).d.toNat
  | .Rr_b => register (decodeRrB w).r.toNat
  | .IO_b => hex6 (decodeIOB w).a
  | AvrFmt.Rd_IO => register (w |> decodeRdIO).d.toNat
  | .IO_Rr => hex6 (decodeIORr w).a
  | .k7 => fmtK7 w
  | .k02 | .k02_call => fmtK02 w
  | .k22 | .k22_call => fmtK22 w e
  | .LD_family => register (decodeLdSt w).d.toNat
  | .LDD_family => register (decodeLdd w).d.toNat
  | .LDS_STS => register (decodeLdsSts w e).d.toNat

/-- What stands between the operands, if two are printed. -/
def separator (row : Opcode) : Option String :=
  match row.fmt with
  | .NONE | .b_only | .Rd_only | .k22 | .k22_call => none
  | .Rd_Rr => if row.op = .CLR then none else some ", "
  | .Rd_K8 => if row.op = .SER then none else some ", "
  | .k7 | .k02 | .k02_call => some "  ; → "
  | _ => some ", "

/-- The pointer of an indirect access with its mode. -/
def pointerText (row : Opcode) (mode : Byte) : String :=
  let reg := pointerName row.op
  if hasSuffix row.mnemonic then reg ++ ldstMode mode
  else if ldstMode mode = "+" then reg ++ "+"
  else if ldstMode mode = "-" then "-" ++ reg
  else reg

def secondOperand (row : Opcode) (w e pc : Word) : String :=
  match row.fmt with
  | .NONE | .b_only | .Rd_only | .k22 | .k22_call => ""
  | .Rd_Rr => register (decodeRdRr w).r.toNat
  | .Rd_K8 => hex8 (decodeRdK8 w).k
  | .Rd_Rr_mpy => register (decodeRdRrMpy w).r.toNat
  | .Rd06_K6 => unsigned (decodeRd06K6 w).k
  | .Rd06_Rr06 =>
    let r := (decodeRd06Rr06 w).r.toNat
    register (if row.op = .MOVW then r * 2 else r + 16)
  | .Rd_b => unsigned (decodeRdB w).b
  | .Rr_b => unsigned (decodeRrB w).b
  | .IO_b => unsigned (decodeIOB w).b
  | AvrFmt.Rd_IO => hex6 (w |> decodeRdIO).a
  | .IO_Rr => register (decodeIORr w).r.toNat
  | .k7 => fmtBranchTarget pc ((decodeK7 w).k.signExtend 16)
  | .k02 | .k02_call => hex16 (pc + 2 + (decodeK02 w).k * 2)
  | .LD_family => pointerText row (decodeLdSt w).mode
  | .LDD_family => (if row.op = .LD_Y ∨ row.op = .ST_Y then "Y" else "Z") ++ fmtLddQ w
  | .LDS_STS => hex16 (decodeLdsSts w e).addr

/-- The text behind the name. -/
def operandText (row : Opcode) (w e pc : Word) : String :=
  if bare row then ""
  else " " ++ (firstOperand row w e ++
    match separator row with
    | none => ""
    | some sep => sep ++ secondOperand row w e pc)

/-- The constant parts of the texts, cut at the blank behind the name and at the operands. -/
theorem literals : " R" = " " ++ "R" ∧ ", R" = ", " ++ "R" ∧ ", -" = ", " ++ "-" ∧
    "CLR R" = "CLR" ++ (" " ++ "R") ∧ "SER R" = "SER" ++ (" " ++ "R") ∧
    "MOVW R" = "MOVW" ++ (" " ++ "R") ∧ "MULS R" = "MULS" ++ (" " ++ "R") ∧
    "RCALL " = "RCALL" ++ " " ∧ "JMP " = "JMP" ++ " " ∧ "CALL " = "CALL" ++ " " := by
  decide

theorem disassembleLdSt_eq {row : Opcode} (pop : row.op ≠ .POP) (ops : OpsLdSt) :
    disassembleLdSt row ops = row.mnemonic ++
      (" " ++ (register ops.d.toNat ++ (", " ++ pointerText row ops.mode))) := by
  obtain ⟨blank, -, minus, -⟩ := literals
  unfold disassembleLdSt pointerText
  by_cases suffix : hasSuffix row.mnemonic = true
  · simp [-String.reduceAppend, pop, suffix, register, unsigned, blank, String.append_assoc]
  · by_cases inc : ldstMode ops.mode = "+"
    · simp [-String.reduceAppend, pop, suffix, inc, register, unsigned, blank, String.append_assoc]
    · by_cases dec : ldstMode ops.mode = "-"
      · simp [-String.reduceAppend, pop, suffix, dec, register, unsigned, blank, minus,
          String.append_assoc]
      · simp [-String.reduceAppend, pop, suffix, inc, dec, register, unsigned, blank,
          String.append_assoc]

theorem Spelled.not_lpm {row : Opcode} (spelled : Spelled row) (h : row.fmt ≠ .NONE)
    (h' : row.fmt ≠ .Rd_only) : row.op ≠ .LPM :=
  fun lpm => (spelled.lpm lpm).elim h h'

theorem disassembleOp_eq {row : Opcode} (spelled : Spelled row) (w e pc : Word) :
    disassembleOp row w e pc = name row w ++ operandText row w e pc := by
  obtain ⟨tst, lsl, rol, cbr, sbr⟩ := spelled.aliases
  obtain ⟨blank, comma, -, clrR, serR, movwR, mulsR, rcall, jmp, call⟩ := literals
  have lpm := spelled.not_lpm
  unfold disassembleOp name operandText bare firstOperand separator secondOperand
  cases fmt : row.fmt
  case NONE => simp
  case b_only => exact absurd fmt spelled.flags
  case Rd_Rr =>
    by_cases clr : row.op = .CLR
    · simp [-String.reduceAppend, clr, spelled.clr clr, clrR, register, unsigned,
        String.append_assoc]
    · simp [-String.reduceAppend, lpm, fmt, clr, tst, lsl, rol, blank, comma, register, unsigned,
        String.append_assoc]
  case Rd_K8 =>
    by_cases ser : row.op = .SER
    · simp [-String.reduceAppend, ser, spelled.ser ser, serR, register, unsigned,
        String.append_assoc]
    · simp [-String.reduceAppend, lpm, fmt, ser, cbr, sbr, blank, register, unsigned,
        String.append_assoc]
  case Rd_only =>
    by_cases load : row.op = .LPM
    · simp [load]
    · simp [-String.reduceAppend, load, blank, register, unsigned, String.append_assoc]
  case Rd06_Rr06 =>
    by_cases movw : row.op = .MOVW
    · simp [-String.reduceAppend, movw, spelled.pairs fmt, movwR, comma, register,
        String.append_assoc]
    · simp [-String.reduceAppend, lpm, fmt, movw, spelled.pairs fmt, mulsR, comma, register,
        String.append_assoc]
  case k7 =>
    by_cases set : row.op = .BRBS
    · simp [-String.reduceAppend, set, branchNames, String.append_assoc]
    · simp [-String.reduceAppend, lpm, fmt, set, branchNames, String.append_assoc]
  case k02_call =>
    simp [-String.reduceAppend, lpm, fmt, spelled.rcall fmt, rcall, String.append_assoc]
  case k22 => simp [-String.reduceAppend, lpm, fmt, spelled.jmp fmt, jmp, String.append_assoc]
  case k22_call =>
    simp [-String.reduceAppend, lpm, fmt, spelled.call fmt, call, String.append_assoc]
  case LD_family =>
    simp [-String.reduceAppend, lpm, fmt, disassembleLdSt_eq (spelled.pop fmt)]
  all_goals
    simp [-String.reduceAppend, lpm, fmt, blank, comma, register, unsigned, String.append_assoc]

theorem blankOrNone_operandText (row : Opcode) (w e pc : Word) :
    BlankOrNone (operandText row w e pc) := by
  unfold operandText
  split
  next => exact .inl rfl
  next => exact .inr (by simp)

theorem follows_of_operandText {row : Opcode} {w e pc : Word}
    (some : (operandText row w e pc).toList ≠ []) : bare row = false := by
  by_contra none
  rw [operandText, if_pos (by simpa using none)] at some
  exact some rfl

theorem row_of_text {w₁ e₁ w₂ e₂ pc : Word} {row₁ row₂ : Opcode}
    (found₁ : decodeInstruction w₁ = some row₁) (found₂ : decodeInstruction w₂ = some row₂)
    (text : disassemble w₁ e₁ pc = disassemble w₂ e₂ pc) :
    row₁ = row₂ ∧ name row₁ w₁ = name row₂ w₂ ∧
      operandText row₁ w₁ e₁ pc = operandText row₂ w₂ e₂ pc := by
  have live₁ := live_of_decode found₁
  have live₂ := live_of_decode found₂
  rw [disassemble, disassemble, found₁, found₂] at text
  dsimp only at text
  rw [disassembleOp_eq (spelled_of_live row₁ live₁),
    disassembleOp_eq (spelled_of_live row₂ live₂)] at text
  obtain ⟨same, operands⟩ := words_eq (blankOrNone_operandText row₁ w₁ e₁ pc)
    (blankOrNone_operandText row₂ w₂ e₂ pc)
    (fun some => not_longer live₁ live₂ (follows_of_operandText some) (name_mem row₁ w₁)
      (name_mem row₂ w₂))
    (fun some => not_longer live₂ live₁ (follows_of_operandText some) (name_mem row₂ w₂)
      (name_mem row₁ w₁)) text
  exact ⟨row_of_name live₁ live₂ (name_mem row₁ w₁) (same ▸ name_mem row₂ w₂), same, operands⟩

/-- A separator begins with a comma or a blank. -/
def Separates (c : Char) : Prop := c = ',' ∨ c = ' '

theorem separator_chars {row : Opcode} {sep : String} (between : separator row = some sep) :
    ∃ c rest, sep.toList = c :: rest ∧ Separates c := by
  have two : sep = ", " ∨ sep = "  ; → " := by
    unfold separator at between
    split at between <;> first | split at between | skip
    all_goals simp_all
  rcases two with rfl | rfl
  · exact ⟨',', [' '], by decide, .inl rfl⟩
  · exact ⟨' ', [' ', ';', ' ', '→', ' '], by decide, .inr rfl⟩

theorem notMem_register {c : Char} (sep : Separates c) (n : Nat) : c ∉ (register n).toList := by
  have other : c ≠ 'R' ∧ c.isDigit = false := by rcases sep with rfl | rfl <;> decide
  simp [register, other.1, notMem_decimal other.2]

theorem notMem_hexText {c : Char} (sep : Separates c) (width n : Nat) :
    c ∉ ("0x" ++ hex width n).toList := by
  have other : c ≠ '0' ∧ c ≠ 'x' ∧ c ∉ hexDigits := by rcases sep with rfl | rfl <;> decide
  simp [other.1, other.2.1, notMem_hex other.2.2]

theorem notMem_firstOperand {c : Char} (sep : Separates c) (row : Opcode) (w e : Word) :
    c ∉ (firstOperand row w e).toList := by
  have signs : c.isDigit = false ∧ c ≠ '+' ∧ c ≠ '-' := by rcases sep with rfl | rfl <;> decide
  have offset (n : Int) := notMem_signed signs.1 signs.2.1 signs.2.2 n
  unfold firstOperand
  cases row.fmt
  case NONE | b_only => simp
  case IO_b | IO_Rr => exact notMem_hexText sep _ _
  case k22 | k22_call => exact notMem_hexText sep _ _
  case k7 | k02 | k02_call => exact offset _
  all_goals exact notMem_register sep _

theorem operands_of_text {row : Opcode} {w₁ e₁ w₂ e₂ pc : Word} (follows : bare row = false)
    (text : operandText row w₁ e₁ pc = operandText row w₂ e₂ pc) :
    firstOperand row w₁ e₁ = firstOperand row w₂ e₂ ∧
      (separator row ≠ none → secondOperand row w₁ e₁ pc = secondOperand row w₂ e₂ pc) := by
  have shown (w e : Word) : operandText row w e pc = " " ++ (firstOperand row w e ++
      match separator row with
      | none => ""
      | some sep => sep ++ secondOperand row w e pc) := by
    rw [operandText, if_neg (by simp [follows])]
  rw [shown, shown] at text
  have behind := (String.append_right_inj " ").mp text
  cases between : separator row with
  | none =>
    simp only [between, String.append_empty] at behind
    exact ⟨behind, fun some => absurd rfl some⟩
  | some sep =>
    obtain ⟨c, rest, chars, separates⟩ := separator_chars between
    simp only [between] at behind
    obtain ⟨first, second⟩ := split_at chars (notMem_firstOperand separates row w₁ e₁)
      (notMem_firstOperand separates row w₂ e₂) behind
    exact ⟨first, fun _ => second⟩

end AvrEmulator
