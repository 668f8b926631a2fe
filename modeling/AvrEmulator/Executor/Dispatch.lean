import AvrEmulator.Executor.Arithmetic
import AvrEmulator.Executor.Transfer
import AvrEmulator.Executor.Control

/-! Instruction dispatch (`executeInstruction`). -/

namespace AvrEmulator

/-- What the selected executor does. Every decoded operation has one, so the
source's `default` branch has no operation left to take it. -/
def dispatch (op : Opcode) (instr secondWord : Word) : Emu Unit :=
  match op.op with
  | .ADC => onCpu (executeADC (decodeRdRr instr))
  | .ADD => onCpu (executeADD (decodeRdRr instr))
  | .ADIW => onCpu (executeADIW (decodeRd06K6 instr))
  | .ASR => onCpu (executeASR (decodeRd instr))
  | .DEC => onCpu (executeDEC (decodeRd instr))
  | .INC => onCpu (executeINC (decodeRd instr))
  | .MUL => onCpu (executeMUL (decodeRdRr instr))
  | .MULS => onCpu (executeMULS (decodeRd06Rr06 instr))
  | .MULSU => onCpu (executeMULSU (decodeRdRrMpy instr))
  | .FMUL => onCpu (executeFMUL (decodeRdRrMpy instr))
  | .FMULS => onCpu (executeFMULS (decodeRdRrMpy instr))
  | .FMULSU => onCpu (executeFMULSU (decodeRdRrMpy instr))
  | .NEG => onCpu (executeNEG (decodeRd instr))
  | .SBIW => onCpu (executeSBIW (decodeRd06K6 instr))
  | .SBC => onCpu (executeSBC (decodeRdRr instr))
  | .SBCI => onCpu (executeSBCI (decodeRdK8 instr))
  | .SUB => onCpu (executeSUB (decodeRdRr instr))
  | .SUBI => onCpu (executeSUBI (decodeRdK8 instr))
  | .AND => onCpu (executeAND (decodeRdRr instr))
  | .ANDI => onCpu (executeANDI (decodeRdK8 instr))
  | .CBR => onCpu (executeANDI (decodeRdK8 instr))
  | .CLR => onCpu (executeEOR (decodeRdRr instr))
  | .COM => onCpu (executeCOM (decodeRd instr))
  | .EOR => onCpu (executeEOR (decodeRdRr instr))
  | .OR => onCpu (executeOR (decodeRdRr instr))
  | .ORI => onCpu (executeORI (decodeRdK8 instr))
  | .SBR => onCpu (executeORI (decodeRdK8 instr))
  | .SER => onCpu (executeSER (decodeRdK8 instr))
  | .SWAP => onCpu (executeSWAP (decodeRd instr))
  | .LSL => onCpu (executeADD (decodeRdRr instr))
  | .LSR => onCpu (executeLSR (decodeRd instr))
  | .ROL => onCpu (executeADC (decodeRdRr instr))
  | .ROR => onCpu (executeROR (decodeRd instr))
  | .CP => onCpu (executeCP (decodeRdRr instr))
  | .CPC => onCpu (executeCPC (decodeRdRr instr))
  | .CPI => onCpu (executeCPI (decodeRdK8 instr))
  | .CPSE => executeCPSE (decodeRdRr instr)
  | .TST => onCpu (executeAND (decodeRdRr instr))
  | .MOV => onCpu (executeMOV (decodeRdRr instr))
  | .MOVW => onCpu (executeMOVW (decodeRd06Rr06 instr))
  | .LDI => onCpu (executeLDI (decodeRdK8 instr))
  | .LD_X => executeLD_X (decodeLdSt instr)
  | .LD_Y =>
    if op.fmt = .LDD_family then executeLDD_Y (decodeLdd instr)
    else executeLD_Y (decodeLdSt instr)
  | .LD_Z =>
    if op.fmt = .LDD_family then executeLDD_Z (decodeLdd instr)
    else executeLD_Z (decodeLdSt instr)
  | .LDS => executeLDS (decodeLdsSts instr secondWord)
  | .LPM =>
    if op.fmt = .NONE then executeLPM ⟨0⟩ 0
    else executeLPM (decodeRd instr) ((instr &&& 0x01).setWidth 8)
  | .IN => executeIN <| decodeRdIO instr
  | .OUT => executeOUT (decodeIORr instr)
  | .POP => executePOP (decodeRd instr)
  | .PUSH => executePUSH (decodeRd instr)
  | .ST_X => executeST_X (decodeLdSt instr)
  | .ST_Y =>
    if op.fmt = .LDD_family then executeSTD_Y (decodeLdd instr)
    else executeST_Y (decodeLdSt instr)
  | .ST_Z =>
    if op.fmt = .LDD_family then executeSTD_Z (decodeLdd instr)
    else executeST_Z (decodeLdSt instr)
  | .STS => executeSTS (decodeLdsSts instr secondWord)
  | .BRBC | .BRCC | .BRGE | .BRHC | .BRID | .BRNE | .BRPL | .BRSH | .BRTC | .BRVC =>
    onCpu (executeBRBC (decodeK7 instr))
  | .BRBS | .BRCS | .BREQ | .BRHS | .BRIE | .BRLO | .BRLT | .BRMI | .BRTS | .BRVS =>
    onCpu (executeBRBS (decodeK7 instr))
  | .RJMP => onCpu (executeRJMP (decodeK02 instr))
  | .JMP => onCpu (executeJMP (decodeK22 instr secondWord))
  | .IJMP => onCpu executeIJMP
  | .RCALL => executeRCALL (decodeK02 instr)
  | .CALL => executeCALL (decodeK22 instr secondWord)
  | .ICALL => executeICALL
  | .RET => executeRET
  | .RETI => executeRETI
  | .SBIC => executeSBIC (decodeIOB instr)
  | .SBIS => executeSBIS (decodeIOB instr)
  | .SBRC => executeSBRC (decodeRrB instr)
  | .SBRS => executeSBRS (decodeRrB instr)
  | .BSET => onCpu (executeBSET (decodeBOnly instr))
  | .BCLR => onCpu (executeBCLR (decodeBOnly instr))
  | .BLD => onCpu (executeBLD (decodeRdB instr))
  | .BST => onCpu (executeBST (decodeRdB instr))
  | .CBI => executeCBI (decodeIOB instr)
  | .SBI => executeSBI (decodeIOB instr)
  | .SEC | .SEZ | .SEN | .SEV | .SES | .SEH | .SET | .SEI =>
    onCpu (executeBSET (decodeBOnly instr))
  | .CLC | .CLZ | .CLN | .CLV | .CLS | .CLH | .CLT | .CLI =>
    onCpu (executeBCLR (decodeBOnly instr))
  | .NOP => onCpu executeNOP
  | .SLEEP => onCpu executeSLEEP
  | .WDR => onCpu executeWDR
  | .BREAK => onCpu executeBREAK
  | .SPM_E => onCpu executeSPM

/-- `false` is the unimplemented-opcode result. -/
def executeInstruction (op : Opcode) (instr secondWord : Word) : Emu Bool := do
  dispatch op instr secondWord
  return true

end AvrEmulator
