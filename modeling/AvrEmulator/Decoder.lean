import AvrEmulator.State

/-! The instruction decoder (`decoder.h`, `decoder.cpp`). -/

namespace AvrEmulator

inductive AvrOp where
  | ADC | ADD | ADIW | AND | ANDI | ASR | BCLR | BLD | BRBC | BRBS | BRCC | BRCS | BREAK | BREQ
  | BRGE | BRHC | BRHS | BRID | BRIE | BRLO | BRLT | BRMI | BRNE | BRPL | BRSH | BRTC | BRTS
  | BRVC | BRVS | BSET | BST | CALL | CBI | CBR | CLC | CLH | CLI | CLN | CLR | CLS | CLT | CLV
  | CLZ | COM | CP | CPC | CPI | CPSE | DEC | EOR | FMUL | FMULS | FMULSU | ICALL | IJMP | IN
  | INC | JMP | LD_X | LD_Y | LD_Z | LDI | LDS | LPM | LSL | LSR | MOV | MOVW | MUL | MULS
  | MULSU | NEG | NOP | OR | ORI | OUT | POP | PUSH | RCALL | RET | RETI | RJMP | ROL | ROR | SBC
  | SBCI | SBI | SBIC | SBIS | SBIW | SBR | SBRC | SBRS | SEC | SEH | SEI | SEN | SER | SES | SET
  | SEV | SEZ | SLEEP | SPM_E | ST_X | ST_Y | ST_Z | STS | SUB | SUBI | SWAP | TST | WDR
  deriving DecidableEq, Repr

/-- Operand encoding formats. -/
inductive AvrFmt where
  | NONE | Rd_Rr | Rd_K8 | Rd_only | Rd_Rr_mpy | Rd06_K6 | Rd06_Rr06 | b_only | Rd_b | Rr_b
  | IO_b | Rd_IO | IO_Rr | k7 | k02 | k02_call | k22 | k22_call | LD_family | LDD_family
  | LDS_STS
  deriving DecidableEq, Repr

structure Opcode where
  mask : Word
  code : Word
  op : AvrOp
  fmt : AvrFmt
  words : Byte
  cyclesMin : Byte
  mnemonic : String
  deriving DecidableEq, Repr

/-- `OPCODE_TABLE`, row by row and in the source's order. -/
def opcodeTable : List Opcode := [
  ⟨0xFC00, 0x1C00, .ADC, .Rd_Rr, 1, 1, "ADC"⟩,
  ⟨0xFC00, 0x0C00, .ADD, .Rd_Rr, 1, 1, "ADD"⟩,
  ⟨0xFF00, 0x9600, .ADIW, .Rd06_K6, 1, 2, "ADIW"⟩,
  ⟨0xFE0F, 0x9405, .ASR, .Rd_only, 1, 1, "ASR"⟩,
  ⟨0xFE0F, 0x940A, .DEC, .Rd_only, 1, 1, "DEC"⟩,
  ⟨0xFE0F, 0x9403, .INC, .Rd_only, 1, 1, "INC"⟩,
  ⟨0xFC00, 0x9C00, .MUL, .Rd_Rr, 1, 2, "MUL"⟩,
  ⟨0xFF00, 0x0200, .MULS, .Rd06_Rr06, 1, 2, "MULS"⟩,
  ⟨0xFF88, 0x0300, .MULSU, .Rd_Rr_mpy, 1, 2, "MULSU"⟩,
  ⟨0xFF88, 0x0308, .FMUL, .Rd_Rr_mpy, 1, 2, "FMUL"⟩,
  ⟨0xFF88, 0x0380, .FMULS, .Rd_Rr_mpy, 1, 2, "FMULS"⟩,
  ⟨0xFF88, 0x0388, .FMULSU, .Rd_Rr_mpy, 1, 2, "FMULSU"⟩,
  ⟨0xFE0F, 0x9401, .NEG, .Rd_only, 1, 1, "NEG"⟩,
  ⟨0xFF00, 0x9700, .SBIW, .Rd06_K6, 1, 2, "SBIW"⟩,
  ⟨0xFC00, 0x0800, .SBC, .Rd_Rr, 1, 1, "SBC"⟩,
  ⟨0xF000, 0x4000, .SBCI, .Rd_K8, 1, 1, "SBCI"⟩,
  ⟨0xFC00, 0x1800, .SUB, .Rd_Rr, 1, 1, "SUB"⟩,
  ⟨0xF000, 0x5000, .SUBI, .Rd_K8, 1, 1, "SUBI"⟩,
  ⟨0xFC00, 0x2000, .AND, .Rd_Rr, 1, 1, "AND"⟩,
  ⟨0xF000, 0x7000, .ANDI, .Rd_K8, 1, 1, "ANDI"⟩,
  ⟨0xF000, 0x7000, .CBR, .Rd_K8, 1, 1, "CBR"⟩,
  ⟨0xFC00, 0x2400, .CLR, .Rd_Rr, 1, 1, "CLR"⟩,
  ⟨0xFE0F, 0x9400, .COM, .Rd_only, 1, 1, "COM"⟩,
  ⟨0xFC00, 0x2400, .EOR, .Rd_Rr, 1, 1, "EOR"⟩,
  ⟨0xFC00, 0x2800, .OR, .Rd_Rr, 1, 1, "OR"⟩,
  ⟨0xF000, 0x6000, .ORI, .Rd_K8, 1, 1, "ORI"⟩,
  ⟨0xF000, 0x6000, .SBR, .Rd_K8, 1, 1, "SBR"⟩,
  ⟨0xFF0F, 0xEF0F, .SER, .Rd_K8, 1, 1, "SER"⟩,
  ⟨0xFE0F, 0x9402, .SWAP, .Rd_only, 1, 1, "SWAP"⟩,
  ⟨0xFC00, 0x0C00, .LSL, .Rd_Rr, 1, 1, "LSL"⟩,
  ⟨0xFE0F, 0x9406, .LSR, .Rd_only, 1, 1, "LSR"⟩,
  ⟨0xFC00, 0x1C00, .ROL, .Rd_Rr, 1, 1, "ROL"⟩,
  ⟨0xFE0F, 0x9407, .ROR, .Rd_only, 1, 1, "ROR"⟩,
  ⟨0xFC00, 0x1400, .CP, .Rd_Rr, 1, 1, "CP"⟩,
  ⟨0xFC00, 0x0400, .CPC, .Rd_Rr, 1, 1, "CPC"⟩,
  ⟨0xF000, 0x3000, .CPI, .Rd_K8, 1, 1, "CPI"⟩,
  ⟨0xFC00, 0x1000, .CPSE, .Rd_Rr, 1, 1, "CPSE"⟩,
  ⟨0xFC00, 0x2000, .TST, .Rd_Rr, 1, 1, "TST"⟩,
  ⟨0xFC00, 0x2C00, .MOV, .Rd_Rr, 1, 1, "MOV"⟩,
  ⟨0xFF00, 0x0100, .MOVW, .Rd06_Rr06, 1, 1, "MOVW"⟩,
  ⟨0xF000, 0xE000, .LDI, .Rd_K8, 1, 1, "LDI"⟩,
  ⟨0xFE0F, 0x900F, .POP, .Rd_only, 1, 2, "POP"⟩,
  ⟨0xFE0C, 0x900C, .LD_X, .LD_family, 1, 2, "LD X"⟩,
  ⟨0xD208, 0x8008, .LD_Y, .LDD_family, 1, 2, "LDD Y+q"⟩,
  ⟨0xFE0F, 0x8008, .LD_Y, .LD_family, 1, 2, "LD Y"⟩,
  ⟨0xFE0F, 0x9009, .LD_Y, .LD_family, 1, 2, "LD Y+"⟩,
  ⟨0xFE0F, 0x900A, .LD_Y, .LD_family, 1, 2, "LD -Y"⟩,
  ⟨0xD208, 0x8000, .LD_Z, .LDD_family, 1, 2, "LDD Z+q"⟩,
  ⟨0xFE0F, 0x8000, .LD_Z, .LD_family, 1, 2, "LD Z"⟩,
  ⟨0xFE0F, 0x9001, .LD_Z, .LD_family, 1, 2, "LD Z+"⟩,
  ⟨0xFE0F, 0x9002, .LD_Z, .LD_family, 1, 2, "LD -Z"⟩,
  ⟨0xFE0F, 0x9000, .LDS, .LDS_STS, 2, 2, "LDS"⟩,
  ⟨0xFFFF, 0x95C8, .LPM, .NONE, 1, 3, "LPM"⟩,
  ⟨0xFE0F, 0x9004, .LPM, .Rd_only, 1, 3, "LPM Rd,Z"⟩,
  ⟨0xFE0F, 0x9005, .LPM, .Rd_only, 1, 3, "LPM Rd,Z+"⟩,
  ⟨0xF800, 0xB000, .IN, AvrFmt.Rd_IO, 1, 1, "IN"⟩,
  ⟨0xF800, 0xB800, .OUT, .IO_Rr, 1, 1, "OUT"⟩,
  ⟨0xFE0F, 0x920F, .PUSH, .Rd_only, 1, 2, "PUSH"⟩,
  ⟨0xFE0C, 0x920C, .ST_X, .LD_family, 1, 2, "ST X"⟩,
  ⟨0xD208, 0x8208, .ST_Y, .LDD_family, 1, 2, "STD Y+q"⟩,
  ⟨0xFE0F, 0x8208, .ST_Y, .LD_family, 1, 2, "ST Y"⟩,
  ⟨0xFE0F, 0x9209, .ST_Y, .LD_family, 1, 2, "ST Y+"⟩,
  ⟨0xFE0F, 0x920A, .ST_Y, .LD_family, 1, 2, "ST -Y"⟩,
  ⟨0xD208, 0x8200, .ST_Z, .LDD_family, 1, 2, "STD Z+q"⟩,
  ⟨0xFE0F, 0x8200, .ST_Z, .LD_family, 1, 2, "ST Z"⟩,
  ⟨0xFE0F, 0x9201, .ST_Z, .LD_family, 1, 2, "ST Z+"⟩,
  ⟨0xFE0F, 0x9202, .ST_Z, .LD_family, 1, 2, "ST -Z"⟩,
  ⟨0xFE0F, 0x9200, .STS, .LDS_STS, 2, 2, "STS"⟩,
  ⟨0xFC00, 0xF400, .BRBC, .k7, 1, 1, "BRBC"⟩,
  ⟨0xFC00, 0xF000, .BRBS, .k7, 1, 1, "BRBS"⟩,
  ⟨0xFC07, 0xF400, .BRCC, .k7, 1, 1, "BRCC"⟩,
  ⟨0xFC07, 0xF000, .BRCS, .k7, 1, 1, "BRCS"⟩,
  ⟨0xFC07, 0xF001, .BREQ, .k7, 1, 1, "BREQ"⟩,
  ⟨0xFC07, 0xF404, .BRGE, .k7, 1, 1, "BRGE"⟩,
  ⟨0xFC07, 0xF405, .BRHC, .k7, 1, 1, "BRHC"⟩,
  ⟨0xFC07, 0xF005, .BRHS, .k7, 1, 1, "BRHS"⟩,
  ⟨0xFC07, 0xF407, .BRID, .k7, 1, 1, "BRID"⟩,
  ⟨0xFC07, 0xF007, .BRIE, .k7, 1, 1, "BRIE"⟩,
  ⟨0xFC07, 0xF000, .BRLO, .k7, 1, 1, "BRLO"⟩,
  ⟨0xFC07, 0xF004, .BRLT, .k7, 1, 1, "BRLT"⟩,
  ⟨0xFC07, 0xF002, .BRMI, .k7, 1, 1, "BRMI"⟩,
  ⟨0xFC07, 0xF401, .BRNE, .k7, 1, 1, "BRNE"⟩,
  ⟨0xFC07, 0xF402, .BRPL, .k7, 1, 1, "BRPL"⟩,
  ⟨0xFC07, 0xF400, .BRSH, .k7, 1, 1, "BRSH"⟩,
  ⟨0xFC07, 0xF406, .BRTC, .k7, 1, 1, "BRTC"⟩,
  ⟨0xFC07, 0xF006, .BRTS, .k7, 1, 1, "BRTS"⟩,
  ⟨0xFC07, 0xF403, .BRVC, .k7, 1, 1, "BRVC"⟩,
  ⟨0xFC07, 0xF003, .BRVS, .k7, 1, 1, "BRVS"⟩,
  ⟨0xF000, 0xC000, .RJMP, .k02, 1, 2, "RJMP"⟩,
  ⟨0xFE0E, 0x940C, .JMP, .k22, 2, 3, "JMP"⟩,
  ⟨0xFFFF, 0x9409, .IJMP, .NONE, 1, 2, "IJMP"⟩,
  ⟨0xF000, 0xD000, .RCALL, .k02_call, 1, 3, "RCALL"⟩,
  ⟨0xFE0E, 0x940E, .CALL, .k22_call, 2, 4, "CALL"⟩,
  ⟨0xFFFF, 0x9509, .ICALL, .NONE, 1, 3, "ICALL"⟩,
  ⟨0xFFFF, 0x9508, .RET, .NONE, 1, 4, "RET"⟩,
  ⟨0xFFFF, 0x9518, .RETI, .NONE, 1, 4, "RETI"⟩,
  ⟨0xFF00, 0x9900, .SBIC, .IO_b, 1, 1, "SBIC"⟩,
  ⟨0xFF00, 0x9B00, .SBIS, .IO_b, 1, 1, "SBIS"⟩,
  ⟨0xFE08, 0xFC00, .SBRC, .Rr_b, 1, 1, "SBRC"⟩,
  ⟨0xFE08, 0xFE00, .SBRS, .Rr_b, 1, 1, "SBRS"⟩,
  ⟨0xFFFF, 0x9408, .SEC, .NONE, 1, 1, "SEC"⟩,
  ⟨0xFFFF, 0x9418, .SEZ, .NONE, 1, 1, "SEZ"⟩,
  ⟨0xFFFF, 0x9428, .SEN, .NONE, 1, 1, "SEN"⟩,
  ⟨0xFFFF, 0x9438, .SEV, .NONE, 1, 1, "SEV"⟩,
  ⟨0xFFFF, 0x9448, .SES, .NONE, 1, 1, "SES"⟩,
  ⟨0xFFFF, 0x9458, .SEH, .NONE, 1, 1, "SEH"⟩,
  ⟨0xFFFF, 0x9468, .SET, .NONE, 1, 1, "SET"⟩,
  ⟨0xFFFF, 0x9478, .SEI, .NONE, 1, 1, "SEI"⟩,
  ⟨0xFFFF, 0x9488, .CLC, .NONE, 1, 1, "CLC"⟩,
  ⟨0xFFFF, 0x9498, .CLZ, .NONE, 1, 1, "CLZ"⟩,
  ⟨0xFFFF, 0x94A8, .CLN, .NONE, 1, 1, "CLN"⟩,
  ⟨0xFFFF, 0x94B8, .CLV, .NONE, 1, 1, "CLV"⟩,
  ⟨0xFFFF, 0x94C8, .CLS, .NONE, 1, 1, "CLS"⟩,
  ⟨0xFFFF, 0x94D8, .CLH, .NONE, 1, 1, "CLH"⟩,
  ⟨0xFFFF, 0x94E8, .CLT, .NONE, 1, 1, "CLT"⟩,
  ⟨0xFFFF, 0x94F8, .CLI, .NONE, 1, 1, "CLI"⟩,
  ⟨0xFF8F, 0x9408, .BSET, .b_only, 1, 1, "BSET"⟩,
  ⟨0xFF8F, 0x9488, .BCLR, .b_only, 1, 1, "BCLR"⟩,
  ⟨0xFE08, 0xF800, .BLD, .Rd_b, 1, 1, "BLD"⟩,
  ⟨0xFE08, 0xFA00, .BST, .Rd_b, 1, 1, "BST"⟩,
  ⟨0xFF00, 0x9800, .CBI, .IO_b, 1, 2, "CBI"⟩,
  ⟨0xFF00, 0x9A00, .SBI, .IO_b, 1, 2, "SBI"⟩,
  ⟨0xFFFF, 0x0000, .NOP, .NONE, 1, 1, "NOP"⟩,
  ⟨0xFFFF, 0x9588, .SLEEP, .NONE, 1, 1, "SLEEP"⟩,
  ⟨0xFFFF, 0x95A8, .WDR, .NONE, 1, 1, "WDR"⟩,
  ⟨0xFFFF, 0x9598, .BREAK, .NONE, 1, 1, "BREAK"⟩,
  ⟨0xFFFF, 0x95E8, .SPM_E, .NONE, 1, 1, "SPM"⟩]

/-- The first row that matches. The cache `decodeInstruction` reads is filled by
this scan, once for every word. -/
def decodeInstruction (instruction : Word) : Option Opcode :=
  opcodeTable.find? fun row => instruction &&& row.mask = row.code

structure OpsRdRr where
  d : Byte
  r : Byte
  deriving DecidableEq, Repr

structure OpsRdK8 where
  d : Byte
  k : Byte
  deriving DecidableEq, Repr

structure OpsRd where
  d : Byte
  deriving DecidableEq, Repr

structure OpsRdRrMpy where
  d : Byte
  r : Byte
  deriving DecidableEq, Repr

structure OpsRd06K6 where
  d : Byte
  k : Byte
  deriving DecidableEq, Repr

/-- Raw nibbles. MOVW doubles them, MULS adds 16. -/
structure OpsRd06Rr06 where
  d : Byte
  r : Byte
  deriving DecidableEq, Repr

structure OpsBOnly where
  b : Byte
  deriving DecidableEq, Repr

structure OpsRdB where
  d : Byte
  b : Byte
  deriving DecidableEq, Repr

structure OpsRrB where
  r : Byte
  b : Byte
  deriving DecidableEq, Repr

structure OpsIOB where
  a : Byte
  b : Byte
  deriving DecidableEq, Repr

structure OpsRdIO where
  d : Byte
  a : Byte
  deriving DecidableEq, Repr

structure OpsIORr where
  a : Byte
  r : Byte
  deriving DecidableEq, Repr

/-- `k` is an `int8_t`. -/
structure OpsK7 where
  k : Byte
  s : Byte
  deriving DecidableEq, Repr

/-- `k` is an `int16_t`. -/
structure OpsK02 where
  k : Word
  deriving DecidableEq, Repr

structure OpsK22 where
  k : BitVec 32
  deriving DecidableEq, Repr

structure OpsLdSt where
  d : Byte
  mode : Byte
  deriving DecidableEq, Repr

structure OpsLdd where
  d : Byte
  q : Byte
  deriving DecidableEq, Repr

structure OpsLdsSts where
  d : Byte
  addr : Word
  deriving DecidableEq, Repr

def decodeRdRr (instr : Word) : OpsRdRr where
  d := ((instr >>> 4) &&& 0x1F).setWidth 8
  r := (((instr >>> 5) &&& 0x10) ||| (instr &&& 0x0F)).setWidth 8

def decodeRdK8 (instr : Word) : OpsRdK8 where
  d := (((instr >>> 4) &&& 0x0F) + 16).setWidth 8
  k := (((instr >>> 4) &&& 0xF0) ||| (instr &&& 0x0F)).setWidth 8

def decodeRd (instr : Word) : OpsRd where
  d := ((instr >>> 4) &&& 0x1F).setWidth 8

def decodeRdRrMpy (instr : Word) : OpsRdRrMpy where
  d := (((instr >>> 4) &&& 0x07) + 16).setWidth 8
  r := ((instr &&& 0x07) + 16).setWidth 8

def decodeRd06K6 (instr : Word) : OpsRd06K6 where
  d := ((24 : Word) + (((instr >>> 4) &&& 0x03) <<< 1)).setWidth 8
  k := (((instr >>> 2) &&& 0x30) ||| (instr &&& 0x0F)).setWidth 8

def decodeRd06Rr06 (instr : Word) : OpsRd06Rr06 where
  d := ((instr >>> 4) &&& 0x0F).setWidth 8
  r := (instr &&& 0x0F).setWidth 8

def decodeBOnly (instr : Word) : OpsBOnly where
  b := ((instr >>> 4) &&& 0x07).setWidth 8

def decodeRdB (instr : Word) : OpsRdB where
  d := ((instr >>> 4) &&& 0x1F).setWidth 8
  b := (instr &&& 0x07).setWidth 8

def decodeRrB (instr : Word) : OpsRrB where
  r := ((instr >>> 4) &&& 0x1F).setWidth 8
  b := (instr &&& 0x07).setWidth 8

def decodeIOB (instr : Word) : OpsIOB where
  a := ((instr >>> 3) &&& 0x1F).setWidth 8
  b := (instr &&& 0x07).setWidth 8

def decodeRdIO (instr : Word) : OpsRdIO where
  d := ((instr >>> 4) &&& 0x1F).setWidth 8
  a := (((instr >>> 5) &&& 0x30) ||| (instr &&& 0x0F)).setWidth 8

def decodeIORr (instr : Word) : OpsIORr where
  a := (((instr >>> 5) &&& 0x30) ||| (instr &&& 0x0F)).setWidth 8
  r := ((instr >>> 4) &&& 0x1F).setWidth 8

/-- The offset is sign-extended from bit 6. -/
def decodeK7 (instr : Word) : OpsK7 :=
  let raw : Byte := ((instr >>> 3) &&& 0x7F).setWidth 8
  { k := if raw &&& 0x40 ≠ 0 then raw ||| 0x80 else raw
    s := (instr &&& 0x07).setWidth 8 }

/-- The offset is sign-extended from bit 11. -/
def decodeK02 (instr : Word) : OpsK02 :=
  let raw := instr &&& 0x0FFF
  { k := if raw &&& 0x0800 ≠ 0 then raw ||| 0xF000 else raw }

/-- Word 1 bits 9 to 4 go to bits 21 to 16, though bit 0 of word 1 belongs at bit 16. -/
def decodeK22 (instr secondWord : Word) : OpsK22 where
  k := ((((instr >>> 4) &&& 0x3F).setWidth 32) <<< 16) ||| secondWord.setWidth 32

def decodeLdSt (instr : Word) : OpsLdSt where
  d := ((instr >>> 4) &&& 0x1F).setWidth 8
  mode := (instr &&& 0x03).setWidth 8

def decodeLdd (instr : Word) : OpsLdd where
  d := ((instr >>> 4) &&& 0x1F).setWidth 8
  q := (((instr >>> 8) &&& 0x20) ||| ((instr >>> 7) &&& 0x18) ||| (instr &&& 0x07)).setWidth 8

def decodeLdsSts (instr secondWord : Word) : OpsLdsSts where
  d := ((instr >>> 4) &&& 0x1F).setWidth 8
  addr := secondWord

end AvrEmulator
