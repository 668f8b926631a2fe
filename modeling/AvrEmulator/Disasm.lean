import AvrEmulator.Library.Text
import AvrEmulator.Decoder

/-! The instruction formatter of the disassembly view (`disasm.cpp`). No text is
longer than its buffer. -/

namespace AvrEmulator

open Text

def hex16 (v : Word) : String := "0x" ++ hex 4 v.toNat
def hex8 (v : Byte) : String := "0x" ++ hex 2 v.toNat
def hex6 (v : Byte) : String := "0x" ++ hex 2 v.toNat

/-- `%u` of an operand -/
def unsigned (v : Byte) : String := decimal v.toNat

def fmtK7 (instr : Word) : String := signed (decodeK7 instr).k.toInt

def fmtK02 (instr : Word) : String := signed (decodeK02 instr).k.toInt

def fmtK22 (instr extra : Word) : String :=
  hex16 (((decodeK22 instr extra).k * 2).setWidth 16)

def ldstMode (mode : Byte) : String :=
  if mode = 0 then "" else if mode = 1 then "+" else if mode = 2 then "-" else ""

def fmtLddQ (instr : Word) : String := "+" ++ unsigned (decodeLdd instr).q

def fmtBranchTarget (pc offsetWords : Word) : String := hex16 (pc + 2 + offsetWords * 2)

def setNames : List String := ["SEC", "SEZ", "SEN", "SEV", "SES", "SEH", "SET", "SEI"]
def clrNames : List String := ["CLC", "CLZ", "CLN", "CLV", "CLS", "CLH", "CLT", "CLI"]

def brbsNames : List String := ["BRCS", "BREQ", "BRMI", "BRVS", "BRLT", "BRHS", "BRTS", "BRIE"]
def brbcNames : List String := ["BRCC", "BRNE", "BRPL", "BRVC", "BRGE", "BRHC", "BRTC", "BRID"]

/-- The pointer register of an indirect access. -/
def pointerName : AvrOp → String
  | .LD_X | .ST_X => "X"
  | .LD_Y | .ST_Y => "Y"
  | .LD_Z | .ST_Z => "Z"
  | _ => "?"

/-- `mn[3] == '+' || mn[3] == '-'` -/
def hasSuffix (mn : String) : Bool := mn.toList[3]? = some '+' ∨ mn.toList[3]? = some '-'

def disassembleLdSt (op : Opcode) (ops : OpsLdSt) : String :=
  let mode := ldstMode ops.mode
  let reg := pointerName op.op
  if op.op = .POP then "POP R" ++ unsigned ops.d
  else if hasSuffix op.mnemonic then
    op.mnemonic ++ " R" ++ unsigned ops.d ++ ", " ++ reg ++ mode
  else if mode = "+" then op.mnemonic ++ " R" ++ unsigned ops.d ++ ", " ++ reg ++ "+"
  else if mode = "-" then op.mnemonic ++ " R" ++ unsigned ops.d ++ ", -" ++ reg
  else op.mnemonic ++ " R" ++ unsigned ops.d ++ ", " ++ reg

def disassembleOp (op : Opcode) (instr extra pc : Word) : String :=
  match op.fmt with
  | .NONE => op.mnemonic
  | .Rd_Rr =>
    let ops := decodeRdRr instr
    if op.op = .CLR then "CLR R" ++ unsigned ops.d
    else if op.op = .TST then "TST R" ++ unsigned ops.d
    else if op.op = .LSL then "LSL R" ++ unsigned ops.d
    else if op.op = .ROL then "ROL R" ++ unsigned ops.d
    else op.mnemonic ++ " R" ++ unsigned ops.d ++ ", R" ++ unsigned ops.r
  | .Rd_K8 =>
    let ops := decodeRdK8 instr
    if op.op = .CBR then "CBR R" ++ unsigned ops.d ++ ", " ++ hex8 (~~~ops.k)
    else if op.op = .SBR then "SBR R" ++ unsigned ops.d ++ ", " ++ hex8 ops.k
    else if op.op = .SER then "SER R" ++ unsigned ops.d
    else op.mnemonic ++ " R" ++ unsigned ops.d ++ ", " ++ hex8 ops.k
  | .Rd_only =>
    let ops := decodeRd instr
    if op.op = .LPM then op.mnemonic
    else op.mnemonic ++ " R" ++ unsigned ops.d
  | .Rd_Rr_mpy =>
    let ops := decodeRdRrMpy instr
    op.mnemonic ++ " R" ++ unsigned ops.d ++ ", R" ++ unsigned ops.r
  | .Rd06_K6 =>
    let ops := decodeRd06K6 instr
    op.mnemonic ++ " R" ++ unsigned ops.d ++ ", " ++ unsigned ops.k
  | .Rd06_Rr06 =>
    let ops := decodeRd06Rr06 instr
    if op.op = .MOVW then
      "MOVW R" ++ decimal (ops.d.toNat * 2) ++ ", R" ++ decimal (ops.r.toNat * 2)
    else "MULS R" ++ decimal (ops.d.toNat + 16) ++ ", R" ++ decimal (ops.r.toNat + 16)
  | .b_only =>
    let ops := decodeBOnly instr
    if op.op = .BSET then setNames.getD ops.b.toNat "" else clrNames.getD ops.b.toNat ""
  | .Rd_b =>
    let ops := decodeRdB instr
    op.mnemonic ++ " R" ++ unsigned ops.d ++ ", " ++ unsigned ops.b
  | .Rr_b =>
    let ops := decodeRrB instr
    op.mnemonic ++ " R" ++ unsigned ops.r ++ ", " ++ unsigned ops.b
  | .IO_b =>
    let ops := decodeIOB instr
    op.mnemonic ++ " " ++ hex6 ops.a ++ ", " ++ unsigned ops.b
  | AvrFmt.Rd_IO =>
    let ops := decodeRdIO instr
    op.mnemonic ++ " R" ++ unsigned ops.d ++ ", " ++ hex6 ops.a
  | .IO_Rr =>
    let ops := decodeIORr instr
    op.mnemonic ++ " " ++ hex6 ops.a ++ ", R" ++ unsigned ops.r
  | .k7 =>
    let ops := decodeK7 instr
    let name := if op.op = .BRBS then brbsNames.getD ops.s.toNat "" else
      brbcNames.getD ops.s.toNat ""
    name ++ " " ++ fmtK7 instr ++ "  ; → " ++ fmtBranchTarget pc (ops.k.signExtend 16)
  | .k02 =>
    let ops := decodeK02 instr
    op.mnemonic ++ " " ++ fmtK02 instr ++ "  ; → " ++ hex16 (pc + 2 + ops.k * 2)
  | .k02_call =>
    let ops := decodeK02 instr
    "RCALL " ++ fmtK02 instr ++ "  ; → " ++ hex16 (pc + 2 + ops.k * 2)
  | .k22 => "JMP " ++ fmtK22 instr extra
  | .k22_call => "CALL " ++ fmtK22 instr extra
  | .LD_family => disassembleLdSt op (decodeLdSt instr)
  | .LDD_family =>
    let ops := decodeLdd instr
    let reg := if op.op = .LD_Y ∨ op.op = .ST_Y then "Y" else "Z"
    op.mnemonic ++ " R" ++ unsigned ops.d ++ ", " ++ reg ++ fmtLddQ instr
  | .LDS_STS =>
    let ops := decodeLdsSts instr extra
    op.mnemonic ++ " R" ++ unsigned ops.d ++ ", " ++ hex16 ops.addr

def disassemble (instr extra pc : Word) : String :=
  match decodeInstruction instr with
  | none => "???  " ++ hex16 instr
  | some op => disassembleOp op instr extra pc

end AvrEmulator
