import AvrEmulator.Executor.Dispatch

/-! One walk over all executors: a property that sequencing keeps and that every access
to the machine has is a property of every instruction. -/

namespace AvrEmulator

open Checked

theorem field_le (x m : Word) : ((x &&& m).setWidth 8).toNat ≤ m.toNat := by
  rw [BitVec.toNat_setWidth, BitVec.toNat_and]
  exact (Nat.mod_le _ _).trans Nat.and_le_right

theorem offset_le (x m k : Word) : (((x &&& m) + k).setWidth 8).toNat ≤ m.toNat + k.toNat := by
  rw [BitVec.toNat_setWidth, BitVec.toNat_add, BitVec.toNat_and]
  have := Nat.and_le_right (n := x.toNat) (m := m.toNat)
  exact (Nat.mod_le _ _).trans ((Nat.mod_le _ _).trans (Nat.add_le_add_right this _))

theorem decodeRd_lt (instr : Word) : (decodeRd instr).d.toNat < 32 :=
  Nat.lt_succ_of_le (field_le _ 0x1F)

theorem decodeRdRr_lt (instr : Word) :
    (decodeRdRr instr).d.toNat < 32 ∧ (decodeRdRr instr).r.toNat < 32 := by
  refine ⟨decodeRd_lt instr, ?_⟩
  have hi : ((instr >>> 5) &&& 0x10).toNat < 2 ^ 5 := by
    rw [BitVec.toNat_and]
    exact Nat.lt_of_le_of_lt Nat.and_le_right (by decide)
  have lo : (instr &&& 0x0F).toNat < 2 ^ 5 := by
    rw [BitVec.toNat_and]
    exact Nat.lt_of_le_of_lt Nat.and_le_right (by decide)
  show ((((instr >>> 5) &&& 0x10) ||| (instr &&& 0x0F)).setWidth 8).toNat < 32
  rw [BitVec.toNat_setWidth, BitVec.toNat_or]
  exact Nat.lt_of_le_of_lt (Nat.mod_le _ _) (Nat.or_lt_two_pow hi lo)

theorem decodeRdK8_lt (instr : Word) : (decodeRdK8 instr).d.toNat < 32 :=
  Nat.lt_succ_of_le (offset_le _ 0x0F 16)

theorem decodeRdRrMpy_lt (instr : Word) :
    (decodeRdRrMpy instr).d.toNat < 32 ∧ (decodeRdRrMpy instr).r.toNat < 32 :=
  ⟨Nat.lt_of_le_of_lt (offset_le _ 0x07 16) (by decide),
    Nat.lt_of_le_of_lt (offset_le _ 0x07 16) (by decide)⟩

theorem decodeRd06K6_lt (instr : Word) : (decodeRd06K6 instr).d.toNat + 1 < 32 := by
  have field : ((instr >>> 4) &&& 0x03).toNat ≤ 3 := by
    rw [BitVec.toNat_and]
    exact Nat.and_le_right
  show (((24 : Word) + (((instr >>> 4) &&& 0x03) <<< 1)).setWidth 8).toNat + 1 < 32
  generalize (instr >>> 4) &&& 0x03 = x at field
  bv_omega

theorem decodeRd06Rr06_lt (instr : Word) :
    (decodeRd06Rr06 instr).d.toNat < 16 ∧ (decodeRd06Rr06 instr).r.toNat < 16 :=
  ⟨Nat.lt_succ_of_le (field_le _ 0x0F), Nat.lt_succ_of_le (field_le _ 0x0F)⟩

/-! ## Code on the CPU state -/

/-- A property that sequencing keeps, and that accesses inside the register file, reads
inside flash and SRAM, and changes of PC, SP or SREG have. -/
structure CpuWalk (C : (α : Type) → Cpu α → Prop) : Prop where
  pure {α : Type} (a : α) : C α (Pure.pure a)
  bind {α β : Type} {x : Cpu α} {f : α → Cpu β} : C α x → (∀ a, C β (f a)) → C β (x >>= f)
  state : C AvrState MonadState.get
  pc (g : AvrState → Word) : C Unit (modify fun s => { s with pc := g s })
  sp (g : AvrState → Word) : C Unit (modify fun s => { s with sp := g s })
  sreg (g : AvrState → Byte) : C Unit (modify fun s => { s with sreg := g s })
  regAt {i : Nat} : i < 32 → C Byte (AvrEmulator.regAt i)
  setRegAt {i : Nat} (value : Byte) : i < 32 → C Unit (AvrEmulator.setRegAt i value)
  flashAt {i : Nat} : i < avrFlashSize → C Byte (AvrEmulator.flashAt i)
  sramAt {i : Nat} : i < avrSramSize → C Byte (AvrEmulator.sramAt i)

namespace CpuWalk

variable {C : (α : Type) → Cpu α → Prop} {α : Type} {d r : Nat}

theorem readsOne (h : CpuWalk C) {k : Byte → Cpu α} (hd : d < 32) (hk : ∀ a, C α (k a)) :
    C α (do k (← AvrEmulator.regAt d)) :=
  h.bind (h.regAt hd) hk

theorem readsTwo (h : CpuWalk C) {k : Byte → Byte → Cpu α} (hd : d < 32) (hr : r < 32)
    (hk : ∀ a b, C α (k a b)) : C α (do k (← AvrEmulator.regAt d) (← AvrEmulator.regAt r)) :=
  h.bind (h.regAt hd) fun a => h.bind (h.regAt hr) fun b => hk a b

theorem putFlags (h : CpuWalk C) (keep : Byte) (f : Flags) :
    C Unit (AvrEmulator.putFlags keep f) := h.sreg _

theorem putResult (h : CpuWalk C) (keep : Byte) {d : Byte} (result : Byte × Flags)
    (hd : d.toNat < 32) : C Unit (AvrEmulator.putResult keep d result) :=
  h.bind (h.setRegAt _ hd) fun _ => h.putFlags _ _

theorem putProduct (h : CpuWalk C) (result16 : Word) :
    C Unit (AvrEmulator.putProduct result16) :=
  h.bind (h.setRegAt _ (by decide)) fun _ =>
    h.bind (h.setRegAt _ (by decide)) fun _ => h.putFlags _ _

theorem pairAt (h : CpuWalk C) {d : Byte} (hd : d.toNat + 1 < 32) :
    C Word (AvrEmulator.pairAt d) :=
  h.readsTwo (Nat.lt_of_succ_lt hd) hd fun _ _ => h.pure _

theorem putPair (h : CpuWalk C) {d : Byte} (result16 : Word) (v c : Bool)
    (hd : d.toNat + 1 < 32) : C Unit (AvrEmulator.putPair d result16 v c) :=
  h.bind (h.setRegAt _ (Nat.lt_of_succ_lt hd)) fun _ =>
    h.bind (h.setRegAt _ hd) fun _ => h.putFlags _ _

theorem readRegWord (h : CpuWalk C) {reg : Byte} (hr : reg.toNat + 1 < 32) :
    C Word (AvrEmulator.readRegWord reg) :=
  h.readsTwo (Nat.lt_of_succ_lt hr) hr fun _ _ => h.pure _

theorem writeRegWord (h : CpuWalk C) {reg : Byte} (value : Word) (hr : reg.toNat + 1 < 32) :
    C Unit (AvrEmulator.writeRegWord reg value) :=
  h.bind (h.setRegAt _ (Nat.lt_of_succ_lt hr)) fun _ => h.setRegAt _ hr

theorem enterIndirect (h : CpuWalk C) {pair : Byte} (mode : Byte) (hp : pair.toNat + 1 < 32) :
    C Word (AvrEmulator.enterIndirect pair mode) := by
  apply h.bind (h.readRegWord hp)
  intro pointer
  split
  · exact h.bind (h.writeRegWord _ hp) fun _ => h.pure _
  · exact h.pure _

theorem leaveIndirect (h : CpuWalk C) {pair : Byte} (mode : Byte) (pointer : Word)
    (hp : pair.toNat + 1 < 32) : C Unit (AvrEmulator.leaveIndirect pair mode pointer) := by
  unfold AvrEmulator.leaveIndirect
  split
  · exact h.writeRegWord _ hp
  · exact h.pure _

theorem fetchWord (h : CpuWalk C) {i : Nat} (hi : i + 1 < avrFlashSize) :
    C Word (AvrEmulator.fetchWord i) :=
  h.bind (h.flashAt (Nat.lt_of_succ_lt hi)) fun _ => h.bind (h.flashAt hi) fun _ => h.pure _

theorem setPc (h : CpuWalk C) (pc : Word) : C Unit (AvrEmulator.setPc pc) := h.pc _

theorem addPc (h : CpuWalk C) (bytes : Word) : C Unit (AvrEmulator.addPc bytes) := h.pc _

theorem executeMOVW (h : CpuWalk C) {ops : OpsRd06Rr06}
    (hops : ops.d.toNat < 16 ∧ ops.r.toNat < 16) : C Unit (AvrEmulator.executeMOVW ops) := by
  have double {x : Byte} (hx : x.toNat < 16) : (x * 2).toNat + 1 < 32 := by bv_omega
  have d := double hops.1
  have r := double hops.2
  exact h.bind (h.regAt (Nat.lt_of_succ_lt r)) fun _ =>
    h.bind (h.setRegAt _ (Nat.lt_of_succ_lt d)) fun _ =>
      h.bind (h.regAt r) fun _ => h.setRegAt _ d

theorem branchIf (h : CpuWalk C) (taken : Bool) (ops : OpsK7)
    (extra : C Unit (AvrEmulator.setExtraCycles 1)) : C Unit (AvrEmulator.branchIf taken ops) := by
  apply h.bind h.state
  intro s
  split
  · exact h.bind (h.addPc _) fun _ => extra
  · exact h.pure _

theorem executeIJMP (h : CpuWalk C) : C Unit AvrEmulator.executeIJMP :=
  h.bind (h.readRegWord (by decide)) fun _ => h.setPc _

theorem executeBLD (h : CpuWalk C) {ops : OpsRdB} (hd : ops.d.toNat < 32) :
    C Unit (AvrEmulator.executeBLD ops) := by
  refine h.readsOne hd fun rd => h.bind h.state fun s => ?_
  split <;> exact h.setRegAt _ hd

theorem executeBST (h : CpuWalk C) {ops : OpsRdB} (hd : ops.d.toNat < 32) :
    C Unit (AvrEmulator.executeBST ops) := by
  apply h.readsOne hd
  intro rd
  split <;> exact h.sreg _

end CpuWalk

/-! ## Code on the machine -/

/-- A property that sequencing keeps and that everything an executor does beside a
data-space store, a skip and the extra cycle has, provided its CPU code has `C`. -/
structure EmuWalk (C : (α : Type) → Cpu α → Prop) (P : (α : Type) → Emu α → Prop) : Prop where
  cpu : CpuWalk C
  pure {α : Type} (a : α) : P α (Pure.pure a)
  bind {α β : Type} {x : Emu α} {f : α → Emu β} : P α x → (∀ a, P β (f a)) → P β (x >>= f)
  /-- A read to whose rest only the CPU state and Timer0 matter. -/
  read {α : Type} {f : Machine → Emu α} :
    (∀ m n, m.state = n.state → m.timer0 = n.timer0 → f m = f n) → (∀ m, P α (f m)) →
      P α (MonadState.get >>= f)
  onCpu {α : Type} {x : Cpu α} : C α x → P α (AvrEmulator.onCpu x)
  callUartRead (io : Byte) : P Byte (AvrEmulator.callUartRead io)
  faultDataAddr (addr : Word) (access : String) : P Unit (AvrEmulator.faultDataAddr addr access)
  faultStack (detail : String) : P Unit (AvrEmulator.faultStack detail)
  faultLpm (addr : Word) : P Unit (AvrEmulator.faultLpm addr)

theorem sram_bound {addr : Word} (h : ¬ (!dataAddrOk addr) = true) : addr.toNat < avrSramSize := by
  have ok : dataAddrOk addr = true := by simpa using h
  have inside : addr ≤ 0x08FF := of_decide_eq_true ok
  show addr.toNat < 2304
  bv_omega

namespace EmuWalk

variable {C : (α : Type) → Cpu α → Prop} {P : (α : Type) → Emu α → Prop}

theorem setSp (h : EmuWalk C P) (sp : Word) : P Unit (AvrEmulator.setSp sp) :=
  h.onCpu (h.cpu.sp fun _ => sp)

theorem regAt (h : EmuWalk C P) {i : Nat} (hi : i < 32) :
    P Byte (AvrEmulator.onCpu (AvrEmulator.regAt i)) := h.onCpu (h.cpu.regAt hi)

theorem setRegAt (h : EmuWalk C P) {i : Nat} (value : Byte) (hi : i < 32) :
    P Unit (AvrEmulator.onCpu (AvrEmulator.setRegAt i value)) := h.onCpu (h.cpu.setRegAt _ hi)

theorem readDataByte (h : EmuWalk C P) (addr : Word) :
    P Byte (AvrEmulator.readDataByte addr) := by
  apply h.read (fun m n state timer => by simp only [state, timer])
  intro m
  split
  next low => exact h.regAt (by bv_omega)
  split
  · exact h.pure _
  split
  · exact h.pure _
  split
  · exact h.pure _
  split
  · exact h.pure _
  split
  · exact h.callUartRead _
  split
  · exact h.callUartRead _
  split
  · exact h.bind (h.faultDataAddr _ _) fun _ => h.pure _
  next inside => exact h.onCpu (h.cpu.sramAt (sram_bound inside))

theorem popByte (h : EmuWalk C P) : P Byte AvrEmulator.popByte := by
  apply h.read (fun m n same _ => by simp only [same])
  intro m
  split
  · exact h.bind (h.faultStack _) fun _ => h.pure _
  · exact h.bind (h.setSp _) fun _ => h.readDataByte _

theorem popWord (h : EmuWalk C P) : P Word AvrEmulator.popWord :=
  h.bind h.popByte fun _ => h.bind h.popByte fun _ => h.pure _

theorem load (h : EmuWalk C P) {d : Nat} (addr : Word) (hd : d < 32) :
    P Unit (do AvrEmulator.onCpu (AvrEmulator.setRegAt d (← AvrEmulator.readDataByte addr))) :=
  h.bind (h.readDataByte _) fun _ => h.setRegAt _ hd

theorem loadIndirect (h : EmuWalk C P) {pair : Byte} {ops : OpsLdSt}
    (hp : pair.toNat + 1 < 32) (hd : ops.d.toNat < 32) :
    P Unit (AvrEmulator.loadIndirect pair ops) :=
  h.bind (h.onCpu (h.cpu.enterIndirect _ hp)) fun _ => h.bind (h.readDataByte _) fun _ =>
    h.bind (h.setRegAt _ hd) fun _ => h.onCpu (h.cpu.leaveIndirect _ _ hp)

theorem loadDisplaced (h : EmuWalk C P) {pair : Byte} {ops : OpsLdd}
    (hp : pair.toNat + 1 < 32) (hd : ops.d.toNat < 32) :
    P Unit (AvrEmulator.loadDisplaced pair ops) :=
  h.bind (h.onCpu (h.cpu.readRegWord hp)) fun _ => h.load _ hd

theorem executeLPM (h : EmuWalk C P) {ops : OpsRd} (mode : Byte) (hd : ops.d.toNat < 32) :
    P Unit (AvrEmulator.executeLPM ops mode) := by
  apply h.bind (h.onCpu (h.cpu.readRegWord (by decide)))
  intro pointer
  split
  · exact h.faultLpm _
  next inside =>
    refine h.bind (h.onCpu (h.cpu.flashAt (Nat.not_le.mp inside))) fun value =>
      h.bind (h.setRegAt _ hd) fun _ => ?_
    split
    · exact h.onCpu (h.cpu.writeRegWord _ (by decide))
    · exact h.pure _

theorem skipIf (h : EmuWalk C P) (taken : Bool) (context : String)
    (skip : P Unit (AvrEmulator.skipNextInstruction context))
    (extra : C Unit (AvrEmulator.setExtraCycles 1)) :
    P Unit (AvrEmulator.skipIf taken context) := by
  unfold AvrEmulator.skipIf
  split
  · exact h.bind skip fun _ => h.onCpu extra
  · exact h.pure _

theorem getIOBit (h : EmuWalk C P) (io bit : Byte) : P Bool (AvrEmulator.getIOBit io bit) :=
  h.bind (h.readDataByte _) fun _ => h.pure _

section Stores

variable (h : EmuWalk C P) (write : ∀ addr value, P Unit (AvrEmulator.writeDataByte addr value))
include h write

theorem pushByte (value : Byte) : P Unit (AvrEmulator.pushByte value) := by
  apply h.read (fun m n same _ => by simp only [same])
  intro m
  split
  · exact h.faultStack _
  · exact h.bind (write _ _) fun _ => h.onCpu (h.cpu.sp fun s => s.sp - 1)

theorem pushPc : P Unit AvrEmulator.pushPc :=
  h.read (fun m n same _ => by simp only [same]) fun _ =>
    h.bind (h.pushByte write _) fun _ => h.pushByte write _

theorem storeIndirect {pair : Byte} {ops : OpsLdSt} (hp : pair.toNat + 1 < 32)
    (hd : ops.d.toNat < 32) : P Unit (AvrEmulator.storeIndirect pair ops) :=
  h.bind (h.onCpu (h.cpu.enterIndirect _ hp)) fun _ => h.bind (h.regAt hd) fun _ =>
    h.bind (write _ _) fun _ => h.onCpu (h.cpu.leaveIndirect _ _ hp)

theorem store {d : Nat} (addr : Word) (hd : d < 32) :
    P Unit (do AvrEmulator.writeDataByte addr (← AvrEmulator.onCpu (AvrEmulator.regAt d))) :=
  h.bind (h.regAt hd) fun _ => write _ _

theorem storeDisplaced {pair : Byte} {ops : OpsLdd} (hp : pair.toNat + 1 < 32)
    (hd : ops.d.toNat < 32) : P Unit (AvrEmulator.storeDisplaced pair ops) :=
  h.bind (h.onCpu (h.cpu.readRegWord hp)) fun _ => h.store write _ hd

theorem updateIO (io : Byte) (f : Byte → Byte) :
    P Unit (do
      AvrEmulator.writeDataByte (ioDataAddr io)
        (f (← AvrEmulator.readDataByte (ioDataAddr io)))) :=
  h.bind (h.readDataByte _) fun _ => write _ _

end Stores

end EmuWalk

/-! ## Instructions -/

/-- The instructions that store to the data space. -/
def AvrOp.stores : AvrOp → Bool
  | .ST_X | .ST_Y | .ST_Z | .STS | .OUT | .PUSH | .RCALL | .CALL | .ICALL | .CBI | .SBI => true
  | _ => false

/-- The instructions that may skip the next one. -/
def AvrOp.skips : AvrOp → Bool
  | .CPSE | .SBIC | .SBIS | .SBRC | .SBRS => true
  | _ => false

def AvrOp.branches : AvrOp → Bool
  | .BRBC | .BRCC | .BRGE | .BRHC | .BRID | .BRNE | .BRPL | .BRSH | .BRTC | .BRVC
  | .BRBS | .BRCS | .BREQ | .BRHS | .BRIE | .BRLO | .BRLT | .BRMI | .BRTS | .BRVS => true
  | _ => false

/-- The operand extractors keep every executor inside the register file, so what stores,
skips, the extra cycle, SPM and everything else have, every instruction has. Stores do not
matter to an instruction that makes none, and so with the others. -/
theorem dispatch_walk {C : (α : Type) → Cpu α → Prop} {P : (α : Type) → Emu α → Prop}
    (h : EmuWalk C P) (op : Opcode) (instr secondWord : Word)
    (write : op.op.stores = true → ∀ addr value, P Unit (writeDataByte addr value))
    (skip : op.op.skips = true → ∀ context, P Unit (skipNextInstruction context))
    (extra : (op.op.skips || op.op.branches) = true → C Unit (setExtraCycles 1))
    (program : op.op = .SPM_E → C Unit executeSPM) : P Unit (dispatch op instr secondWord) := by
  have c := h.cpu
  have d := decodeRd_lt instr
  have ⟨rd, rr⟩ := decodeRdRr_lt instr
  have ⟨md, mr⟩ := decodeRdRrMpy_lt instr
  have k8 := decodeRdK8_lt instr
  have pair := decodeRd06K6_lt instr
  have nibbles := decodeRd06Rr06_lt instr
  have x : (26 : Byte).toNat + 1 < 32 := by decide
  have y : (28 : Byte).toNat + 1 < 32 := by decide
  have z : (30 : Byte).toNat + 1 < 32 := by decide
  obtain ⟨mask, code, op, fmt, words, cycles, mnemonic⟩ := op
  cases op
  -- Branches, jumps and SREG bits touch no array.
  case BRBC | BRCC | BRGE | BRHC | BRID | BRNE | BRPL | BRSH | BRTC | BRVC | BRBS | BRCS | BREQ |
      BRHS | BRIE | BRLO | BRLT | BRMI | BRTS | BRVS => exact h.onCpu (c.branchIf _ _ (extra rfl))
  case BSET | BCLR | SEC | SEZ | SEN | SEV | SES | SEH | SET | SEI | CLC | CLZ | CLN | CLV | CLS |
      CLH | CLT | CLI => exact h.onCpu (c.sreg _)
  case NOP | SLEEP | WDR | BREAK => exact h.onCpu (c.pure _)
  case RJMP => exact h.onCpu (c.addPc _)
  case JMP => exact h.onCpu (c.setPc _)
  case IJMP => exact h.onCpu c.executeIJMP
  case RCALL => exact h.bind (h.pushPc (write rfl)) fun _ => h.onCpu (c.addPc _)
  case CALL => exact h.bind (h.pushPc (write rfl)) fun _ => h.onCpu (c.setPc _)
  case ICALL => exact h.bind (h.pushPc (write rfl)) fun _ => h.onCpu c.executeIJMP
  case RET => exact h.bind h.popWord fun _ => h.onCpu (c.setPc _)
  case RETI =>
    exact h.bind h.popWord fun _ => h.bind (h.onCpu (c.setPc _)) fun _ =>
      h.onCpu (c.sreg _)
  case CPSE =>
    exact h.bind (h.regAt rd) fun _ =>
      h.bind (h.regAt rr) fun _ => h.skipIf _ _ (skip rfl _) (extra rfl)
  case SBIC | SBIS => exact h.bind (h.getIOBit _ _) fun _ => h.skipIf _ _ (skip rfl _) (extra rfl)
  case SBRC | SBRS => exact h.bind (h.regAt d) fun _ => h.skipIf _ _ (skip rfl _) (extra rfl)
  case CBI | SBI => exact h.updateIO (write rfl) _ _
  case BLD => exact h.onCpu (c.executeBLD d)
  case BST => exact h.onCpu (c.executeBST d)
  -- Two registers in, one register and the flags out.
  case ADD | SUB | LSL | AND | EOR | OR | TST | CLR =>
    exact h.onCpu (c.readsTwo rd rr fun _ _ => c.putResult _ _ rd)
  case ADC | SBC | ROL =>
    exact h.onCpu (c.readsTwo rd rr fun _ _ => c.bind c.state fun _ => c.putResult _ _ rd)
  case CP => exact h.onCpu (c.readsTwo rd rr fun _ _ => c.putFlags _ _)
  case CPC => exact h.onCpu (c.readsTwo rd rr fun _ _ => c.bind c.state fun _ => c.putFlags _ _)
  case MUL => exact h.onCpu (c.readsTwo rd rr fun _ _ => c.putProduct _)
  case MULSU | FMUL | FMULS | FMULSU =>
    exact h.onCpu (c.readsTwo md mr fun _ _ => c.putProduct _)
  case MULS =>
    exact h.onCpu (c.readsTwo (Nat.add_lt_add_right nibbles.1 16)
      (Nat.add_lt_add_right nibbles.2 16) fun _ _ => c.putProduct _)
  case MOV => exact h.onCpu (c.readsOne rr fun _ => c.setRegAt _ rd)
  case MOVW => exact h.onCpu (c.executeMOVW nibbles)
  -- One register.
  case INC | DEC | NEG | COM | ASR | LSR =>
    exact h.onCpu (c.readsOne d fun _ => c.putResult _ _ d)
  case ROR => exact h.onCpu (c.readsOne d fun _ => c.bind c.state fun _ => c.putResult _ _ d)
  case SWAP => exact h.onCpu (c.readsOne d fun _ => c.setRegAt _ d)
  case SUBI | ANDI | CBR | ORI | SBR =>
    exact h.onCpu (c.readsOne k8 fun _ => c.putResult _ _ k8)
  case SBCI => exact h.onCpu (c.readsOne k8 fun _ => c.bind c.state fun _ => c.putResult _ _ k8)
  case CPI => exact h.onCpu (c.readsOne k8 fun _ => c.putFlags _ _)
  case LDI | SER => exact h.setRegAt _ k8
  case ADIW | SBIW => exact h.onCpu (c.bind (c.pairAt pair) fun _ => c.putPair _ _ _ pair)
  -- Memory.
  case LD_X => exact h.loadIndirect x d
  case ST_X => exact h.storeIndirect (write rfl) x d
  case LD_Y =>
    unfold dispatch
    dsimp only
    split
    · exact h.loadDisplaced y d
    · exact h.loadIndirect y d
  case LD_Z =>
    unfold dispatch
    dsimp only
    split
    · exact h.loadDisplaced z d
    · exact h.loadIndirect z d
  case ST_Y =>
    unfold dispatch
    dsimp only
    split
    · exact h.storeDisplaced (write rfl) y d
    · exact h.storeIndirect (write rfl) y d
  case ST_Z =>
    unfold dispatch
    dsimp only
    split
    · exact h.storeDisplaced (write rfl) z d
    · exact h.storeIndirect (write rfl) z d
  case LDS => exact h.load _ d
  case IN => exact h.load _ d
  case STS => exact h.store (write rfl) _ d
  case OUT => exact h.store (write rfl) _ d
  case LPM =>
    unfold dispatch
    dsimp only
    split
    · exact h.executeLPM _ (by decide)
    · exact h.executeLPM _ d
  case SPM_E => exact h.onCpu (program rfl)
  case POP => exact h.bind h.popByte fun _ => h.setRegAt _ d
  case PUSH => exact h.bind (h.regAt d) fun _ => h.pushByte (write rfl) _

/-- As `CpuWalk`, with every change of anything but the two program memories. -/
structure CpuRules (C : (α : Type) → Cpu α → Prop) : Prop where
  pure {α : Type} (a : α) : C α (Pure.pure a)
  bind {α β : Type} {x : Cpu α} {f : α → Cpu β} : C α x → (∀ a, C β (f a)) → C β (x >>= f)
  state : C AvrState MonadState.get
  change {g : AvrState → AvrState} :
    (∀ s, (g s).flash = s.flash ∧ (g s).eeprom = s.eeprom) → C Unit (modify g)
  regAt {i : Nat} : i < 32 → C Byte (AvrEmulator.regAt i)
  setRegAt {i : Nat} (value : Byte) : i < 32 → C Unit (AvrEmulator.setRegAt i value)
  flashAt {i : Nat} : i < avrFlashSize → C Byte (AvrEmulator.flashAt i)
  sramAt {i : Nat} : i < avrSramSize → C Byte (AvrEmulator.sramAt i)

namespace CpuRules

variable {C : (α : Type) → Cpu α → Prop}

theorem all : CpuRules fun _ _ => True where
  pure _ := trivial
  bind _ _ := trivial
  state := trivial
  change _ := trivial
  regAt _ := trivial
  setRegAt _ _ := trivial
  flashAt _ := trivial
  sramAt _ := trivial

theorem walk (h : CpuRules C) : CpuWalk C where
  pure := h.pure
  bind := h.bind
  state := h.state
  pc _ := h.change fun _ => ⟨rfl, rfl⟩
  sp _ := h.change fun _ => ⟨rfl, rfl⟩
  sreg _ := h.change fun _ => ⟨rfl, rfl⟩
  regAt := h.regAt
  setRegAt := h.setRegAt
  flashAt := h.flashAt
  sramAt := h.sramAt

theorem readRegWord (h : CpuRules C) {reg : Byte} (hr : reg.toNat + 1 < 32) :
    C Word (AvrEmulator.readRegWord reg) := h.walk.readRegWord hr

theorem fetchWord (h : CpuRules C) {i : Nat} (hi : i + 1 < avrFlashSize) :
    C Word (AvrEmulator.fetchWord i) := h.walk.fetchWord hi

theorem setPc (h : CpuRules C) (pc : Word) : C Unit (AvrEmulator.setPc pc) := h.walk.setPc pc

theorem addPc (h : CpuRules C) (bytes : Word) : C Unit (AvrEmulator.addPc bytes) :=
  h.walk.addPc bytes

end CpuRules

/-- As `EmuWalk`, with every fault and every report. -/
structure EmuRules (C : (α : Type) → Cpu α → Prop) (P : (α : Type) → Emu α → Prop) : Prop where
  cpu : CpuRules C
  pure {α : Type} (a : α) : P α (Pure.pure a)
  bind {α β : Type} {x : Emu α} {f : α → Emu β} : P α x → (∀ a, P β (f a)) → P β (x >>= f)
  /-- A read to whose rest only the CPU state and Timer0 matter. -/
  read {α : Type} {f : Machine → Emu α} :
    (∀ m n, m.state = n.state → m.timer0 = n.timer0 → f m = f n) → (∀ m, P α (f m)) →
      P α (MonadState.get >>= f)
  onCpu {α : Type} {x : Cpu α} : C α x → P α (AvrEmulator.onCpu x)
  callUartRead (io : Byte) : P Byte (AvrEmulator.callUartRead io)
  report (g : Machine → ErrorState) : P Unit (modify fun m => { m with error := g m })
  signal (g : Machine → ErrorState) :
    P Unit (modify fun m => { m with fault := true, error := g m })

namespace EmuRules

variable {C : (α : Type) → Cpu α → Prop} {P : (α : Type) → Emu α → Prop}

theorem memorySignalFault (h : EmuRules C P) : P Unit AvrEmulator.memorySignalFault :=
  h.signal Machine.error

theorem walk (h : EmuRules C P) : EmuWalk C P where
  cpu := h.cpu.walk
  pure := h.pure
  bind := h.bind
  read := h.read
  onCpu := h.onCpu
  callUartRead := h.callUartRead
  faultDataAddr _ _ := h.signal _
  faultStack _ := h.signal _
  faultLpm _ := h.bind (h.report _) fun _ => h.memorySignalFault

theorem setSp (h : EmuRules C P) (sp : Word) : P Unit (AvrEmulator.setSp sp) := h.walk.setSp sp

theorem readDataByte (h : EmuRules C P) (addr : Word) : P Byte (AvrEmulator.readDataByte addr) :=
  h.walk.readDataByte addr

theorem skipNextInstruction (h : EmuRules C P) (context : String) :
    P Unit (AvrEmulator.skipNextInstruction context) := by
  apply h.read (fun m n same _ => by simp only [same])
  intro m
  dsimp only
  split
  · exact h.bind (h.report _) fun _ => h.memorySignalFault
  next inside =>
    apply h.bind (h.onCpu (h.cpu.fetchWord (Nat.not_le.mp inside)))
    intro nextInstr
    split
    · exact h.bind (h.report _) fun _ => h.memorySignalFault
    · exact h.onCpu (h.cpu.addPc _)

theorem pushPc (h : EmuRules C P)
    (write : ∀ addr value, P Unit (AvrEmulator.writeDataByte addr value)) :
    P Unit AvrEmulator.pushPc := h.walk.pushPc write

end EmuRules

theorem dispatch_rules {C : (α : Type) → Cpu α → Prop} {P : (α : Type) → Emu α → Prop}
    (h : EmuRules C P) (op : Opcode) (instr secondWord : Word)
    (write : op.op.stores = true → ∀ addr value, P Unit (writeDataByte addr value))
    (program : op.op = .SPM_E → C Unit executeSPM) : P Unit (dispatch op instr secondWord) :=
  dispatch_walk h.walk op instr secondWord write (fun _ => h.skipNextInstruction)
    (fun _ => h.cpu.change fun _ => ⟨rfl, rfl⟩) program

end AvrEmulator
