import AvrEmulator.Library.Layout
import AvrEmulator.Executor.Dispatch

/-! The reference encoding: one layout for each instruction form, transcribed
from the comments beside the rows of the opcode table. -/

namespace AvrEmulator

/-- The operand letters of the layouts. -/
inductive Field where
  | d | r | K | A | b | k | s | q
  deriving DecidableEq, Repr

/-- The instruction forms, aliases left out. -/
inductive Form where
  | ADC | ADD | AND | CP | CPC | CPSE | EOR | MOV | MUL | OR | SBC | SUB
  | ANDI | CPI | LDI | ORI | SBCI | SUBI | SER
  | ASR | COM | DEC | INC | LSR | NEG | POP | PUSH | ROR | SWAP | LPM_Z | LPM_ZInc
  | MULS | MOVW | MULSU | FMUL | FMULS | FMULSU
  | ADIW | SBIW
  | BSET | BCLR | BLD | BST | SBRC | SBRS
  | CBI | SBI | SBIC | SBIS
  | IN | OUT
  | BRBC | BRBS | RJMP | RCALL | JMP | CALL
  | LD_X | LD_XInc | LD_XDec | LDD_Y | LD_YInc | LD_YDec | LDD_Z | LD_ZInc | LD_ZDec
  | ST_X | ST_XInc | ST_XDec | STD_Y | ST_YInc | ST_YDec | STD_Z | ST_ZInc | ST_ZDec
  | LDS | STS
  | LPM | IJMP | ICALL | RET | RETI | NOP | SLEEP | WDR | BREAK | SPM
  deriving DecidableEq, Repr

namespace Form

abbrev O : Slot Field := .bit false
abbrev I : Slot Field := .bit true
abbrev d : Slot Field := .field .d
abbrev r : Slot Field := .field .r
abbrev K : Slot Field := .field .K
abbrev A : Slot Field := .field .A
abbrev b : Slot Field := .field .b
abbrev k : Slot Field := .field .k
abbrev s : Slot Field := .field .s
abbrev q : Slot Field := .field .q

/-- The first word. -/
def layout : Form → List (Slot Field)
  | ADC => [O,O,O,I, I,I,r,d, d,d,d,d, r,r,r,r]
  | ADD => [O,O,O,O, I,I,r,d, d,d,d,d, r,r,r,r]
  | AND => [O,O,I,O, O,O,r,d, d,d,d,d, r,r,r,r]
  | CP => [O,O,O,I, O,I,r,d, d,d,d,d, r,r,r,r]
  | CPC => [O,O,O,O, O,I,r,d, d,d,d,d, r,r,r,r]
  | CPSE => [O,O,O,I, O,O,r,d, d,d,d,d, r,r,r,r]
  | EOR => [O,O,I,O, O,I,r,d, d,d,d,d, r,r,r,r]
  | MOV => [O,O,I,O, I,I,r,d, d,d,d,d, r,r,r,r]
  | MUL => [I,O,O,I, I,I,r,d, d,d,d,d, r,r,r,r]
  | OR => [O,O,I,O, I,O,r,d, d,d,d,d, r,r,r,r]
  | SBC => [O,O,O,O, I,O,r,d, d,d,d,d, r,r,r,r]
  | SUB => [O,O,O,I, I,O,r,d, d,d,d,d, r,r,r,r]
  | ANDI => [O,I,I,I, K,K,K,K, d,d,d,d, K,K,K,K]
  | CPI => [O,O,I,I, K,K,K,K, d,d,d,d, K,K,K,K]
  | LDI => [I,I,I,O, K,K,K,K, d,d,d,d, K,K,K,K]
  | ORI => [O,I,I,O, K,K,K,K, d,d,d,d, K,K,K,K]
  | SBCI => [O,I,O,O, K,K,K,K, d,d,d,d, K,K,K,K]
  | SUBI => [O,I,O,I, K,K,K,K, d,d,d,d, K,K,K,K]
  | SER => [I,I,I,O, I,I,I,I, d,d,d,d, I,I,I,I]
  | ASR => [I,O,O,I, O,I,O,d, d,d,d,d, O,I,O,I]
  | COM => [I,O,O,I, O,I,O,d, d,d,d,d, O,O,O,O]
  | DEC => [I,O,O,I, O,I,O,d, d,d,d,d, I,O,I,O]
  | INC => [I,O,O,I, O,I,O,d, d,d,d,d, O,O,I,I]
  | LSR => [I,O,O,I, O,I,O,d, d,d,d,d, O,I,I,O]
  | NEG => [I,O,O,I, O,I,O,d, d,d,d,d, O,O,O,I]
  | POP => [I,O,O,I, O,O,O,d, d,d,d,d, I,I,I,I]
  | PUSH => [I,O,O,I, O,O,I,d, d,d,d,d, I,I,I,I]
  | ROR => [I,O,O,I, O,I,O,d, d,d,d,d, O,I,I,I]
  | SWAP => [I,O,O,I, O,I,O,d, d,d,d,d, O,O,I,O]
  | LPM_Z => [I,O,O,I, O,O,O,d, d,d,d,d, O,I,O,O]
  | LPM_ZInc => [I,O,O,I, O,O,O,d, d,d,d,d, O,I,O,I]
  | MULS => [O,O,O,O, O,O,I,O, d,d,d,d, r,r,r,r]
  | MOVW => [O,O,O,O, O,O,O,I, d,d,d,d, r,r,r,r]
  | MULSU => [O,O,O,O, O,O,I,I, O,d,d,d, O,r,r,r]
  | FMUL => [O,O,O,O, O,O,I,I, O,d,d,d, I,r,r,r]
  | FMULS => [O,O,O,O, O,O,I,I, I,d,d,d, O,r,r,r]
  | FMULSU => [O,O,O,O, O,O,I,I, I,d,d,d, I,r,r,r]
  | ADIW => [I,O,O,I, O,I,I,O, K,K,d,d, K,K,K,K]
  | SBIW => [I,O,O,I, O,I,I,I, K,K,d,d, K,K,K,K]
  | BSET => [I,O,O,I, O,I,O,O, O,s,s,s, I,O,O,O]
  | BCLR => [I,O,O,I, O,I,O,O, I,s,s,s, I,O,O,O]
  | BLD => [I,I,I,I, I,O,O,d, d,d,d,d, O,b,b,b]
  | BST => [I,I,I,I, I,O,I,d, d,d,d,d, O,b,b,b]
  | SBRC => [I,I,I,I, I,I,O,r, r,r,r,r, O,b,b,b]
  | SBRS => [I,I,I,I, I,I,I,r, r,r,r,r, O,b,b,b]
  | CBI => [I,O,O,I, I,O,O,O, A,A,A,A, A,b,b,b]
  | SBI => [I,O,O,I, I,O,I,O, A,A,A,A, A,b,b,b]
  | SBIC => [I,O,O,I, I,O,O,I, A,A,A,A, A,b,b,b]
  | SBIS => [I,O,O,I, I,O,I,I, A,A,A,A, A,b,b,b]
  | IN => [I,O,I,I, O,A,A,d, d,d,d,d, A,A,A,A]
  | OUT => [I,O,I,I, I,A,A,r, r,r,r,r, A,A,A,A]
  | BRBC => [I,I,I,I, O,I,k,k, k,k,k,k, k,s,s,s]
  | BRBS => [I,I,I,I, O,O,k,k, k,k,k,k, k,s,s,s]
  | RJMP => [I,I,O,O, k,k,k,k, k,k,k,k, k,k,k,k]
  | RCALL => [I,I,O,I, k,k,k,k, k,k,k,k, k,k,k,k]
  | JMP => [I,O,O,I, O,I,O,k, k,k,k,k, I,I,O,k]
  | CALL => [I,O,O,I, O,I,O,k, k,k,k,k, I,I,I,k]
  | LD_X => [I,O,O,I, O,O,O,d, d,d,d,d, I,I,O,O]
  | LD_XInc => [I,O,O,I, O,O,O,d, d,d,d,d, I,I,O,I]
  | LD_XDec => [I,O,O,I, O,O,O,d, d,d,d,d, I,I,I,O]
  | LDD_Y => [I,O,q,O, q,q,O,d, d,d,d,d, I,q,q,q]
  | LD_YInc => [I,O,O,I, O,O,O,d, d,d,d,d, I,O,O,I]
  | LD_YDec => [I,O,O,I, O,O,O,d, d,d,d,d, I,O,I,O]
  | LDD_Z => [I,O,q,O, q,q,O,d, d,d,d,d, O,q,q,q]
  | LD_ZInc => [I,O,O,I, O,O,O,d, d,d,d,d, O,O,O,I]
  | LD_ZDec => [I,O,O,I, O,O,O,d, d,d,d,d, O,O,I,O]
  | ST_X => [I,O,O,I, O,O,I,r, r,r,r,r, I,I,O,O]
  | ST_XInc => [I,O,O,I, O,O,I,r, r,r,r,r, I,I,O,I]
  | ST_XDec => [I,O,O,I, O,O,I,r, r,r,r,r, I,I,I,O]
  | STD_Y => [I,O,q,O, q,q,I,r, r,r,r,r, I,q,q,q]
  | ST_YInc => [I,O,O,I, O,O,I,r, r,r,r,r, I,O,O,I]
  | ST_YDec => [I,O,O,I, O,O,I,r, r,r,r,r, I,O,I,O]
  | STD_Z => [I,O,q,O, q,q,I,r, r,r,r,r, O,q,q,q]
  | ST_ZInc => [I,O,O,I, O,O,I,r, r,r,r,r, O,O,O,I]
  | ST_ZDec => [I,O,O,I, O,O,I,r, r,r,r,r, O,O,I,O]
  | LDS => [I,O,O,I, O,O,O,d, d,d,d,d, O,O,O,O]
  | STS => [I,O,O,I, O,O,I,d, d,d,d,d, O,O,O,O]
  | LPM => [I,O,O,I, O,I,O,I, I,I,O,O, I,O,O,O]
  | IJMP => [I,O,O,I, O,I,O,O, O,O,O,O, I,O,O,I]
  | ICALL => [I,O,O,I, O,I,O,I, O,O,O,O, I,O,O,I]
  | RET => [I,O,O,I, O,I,O,I, O,O,O,O, I,O,O,O]
  | RETI => [I,O,O,I, O,I,O,I, O,O,O,I, I,O,O,O]
  | NOP => [O,O,O,O, O,O,O,O, O,O,O,O, O,O,O,O]
  | SLEEP => [I,O,O,I, O,I,O,I, I,O,O,O, I,O,O,O]
  | WDR => [I,O,O,I, O,I,O,I, I,O,I,O, I,O,O,O]
  | BREAK => [I,O,O,I, O,I,O,I, I,O,O,I, I,O,O,O]
  | SPM => [I,O,O,I, O,I,O,I, I,I,I,O, I,O,O,O]

/-- The second word, which carries the low 16 bits of `k`. -/
def second : Form → List (Slot Field)
  | JMP | CALL | LDS | STS => List.replicate 16 k
  | _ => []

/-- Every operand is in the range its field documents. -/
def InRange (f : Form) (v : Field → Nat) : Prop :=
  ∀ x, v x < 2 ^ (Layout.width x f.layout + Layout.width x f.second)

/-- A field split over two words has its high bits in the first. -/
def word1 (f : Form) (v : Field → Nat) : Word :=
  Layout.encode 16 f.layout fun x => v x >>> Layout.width x f.second

def word2 (f : Form) (v : Field → Nat) : Word := Layout.encode 16 f.second v

def words (f : Form) : Nat := if f.second = [] then 1 else 2

/-- An operand byte. -/
def byte (n : Nat) : Byte := BitVec.ofNat 8 n

def opsRdRr (v : Field → Nat) : OpsRdRr := ⟨byte (v .d), byte (v .r)⟩
def opsRdK8 (v : Field → Nat) : OpsRdK8 := ⟨byte (16 + v .d), byte (v .K)⟩
def opsRd (v : Field → Nat) : OpsRd := ⟨byte (v .d)⟩
def opsRdRrMpy (v : Field → Nat) : OpsRdRrMpy := ⟨byte (16 + v .d), byte (16 + v .r)⟩
def opsRd06K6 (v : Field → Nat) : OpsRd06K6 := ⟨byte (24 + 2 * v .d), byte (v .K)⟩
def opsRd06Rr06 (v : Field → Nat) : OpsRd06Rr06 := ⟨byte (v .d), byte (v .r)⟩
def opsBOnly (v : Field → Nat) : OpsBOnly := ⟨byte (v .s)⟩
def opsRdB (v : Field → Nat) : OpsRdB := ⟨byte (v .d), byte (v .b)⟩
def opsRrB (v : Field → Nat) : OpsRrB := ⟨byte (v .r), byte (v .b)⟩
def opsIOB (v : Field → Nat) : OpsIOB := ⟨byte (v .A), byte (v .b)⟩
def opsRdIO (v : Field → Nat) : OpsRdIO := ⟨byte (v .d), byte (v .A)⟩
def opsIORr (v : Field → Nat) : OpsIORr := ⟨byte (v .A), byte (v .r)⟩
def opsK7 (v : Field → Nat) : OpsK7 := ⟨(BitVec.ofNat 7 (v .k)).signExtend 8, byte (v .s)⟩
def opsK02 (v : Field → Nat) : OpsK02 := ⟨(BitVec.ofNat 12 (v .k)).signExtend 16⟩
def opsK22 (v : Field → Nat) : OpsK22 := ⟨BitVec.ofNat 32 (v .k)⟩
def opsLd (v : Field → Nat) (mode : Byte) : OpsLdSt := ⟨byte (v .d), mode⟩
def opsSt (v : Field → Nat) (mode : Byte) : OpsLdSt := ⟨byte (v .r), mode⟩
def opsLdd (v : Field → Nat) : OpsLdd := ⟨byte (v .d), byte (v .q)⟩
def opsStd (v : Field → Nat) : OpsLdd := ⟨byte (v .r), byte (v .q)⟩
def opsLdsSts (v : Field → Nat) : OpsLdsSts := ⟨byte (v .d), BitVec.ofNat 16 (v .k)⟩

/-- The form's execute function on its operands. -/
def execute (v : Field → Nat) : Form → Emu Unit
  | ADC => onCpu (executeADC (opsRdRr v))
  | ADD => onCpu (executeADD (opsRdRr v))
  | AND => onCpu (executeAND (opsRdRr v))
  | CP => onCpu (executeCP (opsRdRr v))
  | CPC => onCpu (executeCPC (opsRdRr v))
  | CPSE => executeCPSE (opsRdRr v)
  | EOR => onCpu (executeEOR (opsRdRr v))
  | MOV => onCpu (executeMOV (opsRdRr v))
  | MUL => onCpu (executeMUL (opsRdRr v))
  | OR => onCpu (executeOR (opsRdRr v))
  | SBC => onCpu (executeSBC (opsRdRr v))
  | SUB => onCpu (executeSUB (opsRdRr v))
  | ANDI => onCpu (executeANDI (opsRdK8 v))
  | CPI => onCpu (executeCPI (opsRdK8 v))
  | LDI => onCpu (executeLDI (opsRdK8 v))
  | ORI => onCpu (executeORI (opsRdK8 v))
  | SBCI => onCpu (executeSBCI (opsRdK8 v))
  | SUBI => onCpu (executeSUBI (opsRdK8 v))
  | SER => onCpu (executeSER ⟨byte (16 + v .d), 0xFF⟩)
  | ASR => onCpu (executeASR (opsRd v))
  | COM => onCpu (executeCOM (opsRd v))
  | DEC => onCpu (executeDEC (opsRd v))
  | INC => onCpu (executeINC (opsRd v))
  | LSR => onCpu (executeLSR (opsRd v))
  | NEG => onCpu (executeNEG (opsRd v))
  | POP => executePOP (opsRd v)
  | PUSH => executePUSH (opsRd v)
  | ROR => onCpu (executeROR (opsRd v))
  | SWAP => onCpu (executeSWAP (opsRd v))
  | LPM_Z => executeLPM (opsRd v) 0
  | LPM_ZInc => executeLPM (opsRd v) 1
  | MULS => onCpu (executeMULS (opsRd06Rr06 v))
  | MOVW => onCpu (executeMOVW (opsRd06Rr06 v))
  | MULSU => onCpu (executeMULSU (opsRdRrMpy v))
  | FMUL => onCpu (executeFMUL (opsRdRrMpy v))
  | FMULS => onCpu (executeFMULS (opsRdRrMpy v))
  | FMULSU => onCpu (executeFMULSU (opsRdRrMpy v))
  | ADIW => onCpu (executeADIW (opsRd06K6 v))
  | SBIW => onCpu (executeSBIW (opsRd06K6 v))
  | BSET => onCpu (executeBSET (opsBOnly v))
  | BCLR => onCpu (executeBCLR (opsBOnly v))
  | BLD => onCpu (executeBLD (opsRdB v))
  | BST => onCpu (executeBST (opsRdB v))
  | SBRC => executeSBRC (opsRrB v)
  | SBRS => executeSBRS (opsRrB v)
  | CBI => executeCBI (opsIOB v)
  | SBI => executeSBI (opsIOB v)
  | SBIC => executeSBIC (opsIOB v)
  | SBIS => executeSBIS (opsIOB v)
  | IN => executeIN <| opsRdIO v
  | OUT => executeOUT (opsIORr v)
  | BRBC => onCpu (executeBRBC (opsK7 v))
  | BRBS => onCpu (executeBRBS (opsK7 v))
  | RJMP => onCpu (executeRJMP (opsK02 v))
  | RCALL => executeRCALL (opsK02 v)
  | JMP => onCpu (executeJMP (opsK22 v))
  | CALL => executeCALL (opsK22 v)
  | LD_X => executeLD_X (opsLd v 0)
  | LD_XInc => executeLD_X (opsLd v 1)
  | LD_XDec => executeLD_X (opsLd v 2)
  | LDD_Y => executeLDD_Y (opsLdd v)
  | LD_YInc => executeLD_Y (opsLd v 1)
  | LD_YDec => executeLD_Y (opsLd v 2)
  | LDD_Z => executeLDD_Z (opsLdd v)
  | LD_ZInc => executeLD_Z (opsLd v 1)
  | LD_ZDec => executeLD_Z (opsLd v 2)
  | ST_X => executeST_X (opsSt v 0)
  | ST_XInc => executeST_X (opsSt v 1)
  | ST_XDec => executeST_X (opsSt v 2)
  | STD_Y => executeSTD_Y (opsStd v)
  | ST_YInc => executeST_Y (opsSt v 1)
  | ST_YDec => executeST_Y (opsSt v 2)
  | STD_Z => executeSTD_Z (opsStd v)
  | ST_ZInc => executeST_Z (opsSt v 1)
  | ST_ZDec => executeST_Z (opsSt v 2)
  | LDS => executeLDS (opsLdsSts v)
  | STS => executeSTS (opsLdsSts v)
  | LPM => executeLPM ⟨0⟩ 0
  | IJMP => onCpu executeIJMP
  | ICALL => executeICALL
  | RET => executeRET
  | RETI => executeRETI
  | NOP => onCpu executeNOP
  | SLEEP => onCpu executeSLEEP
  | WDR => onCpu executeWDR
  | BREAK => onCpu executeBREAK
  | SPM => onCpu executeSPM

end Form

end AvrEmulator
