import Mathlib.Tactic.IntervalCases
import AvrEmulator.Executor.Dispatch

/-! What the logic instructions do to SREG, against the contract their comments
give: V cleared, N, Z and S from the result, C, H, T and I preserved. -/

namespace AvrEmulator

inductive LogicKind where
  | and | or | eor
  deriving DecidableEq, Repr

def LogicKind.byte : LogicKind → Byte → Byte → Byte
  | .and, a, b => a &&& b
  | .or, a, b => a ||| b
  | .eor, a, b => a ^^^ b

def LogicKind.bit : LogicKind → Bool → Bool → Bool
  | .and, a, b => a && b
  | .or, a, b => a || b
  | .eor, a, b => a ^^ b

theorem LogicKind.msb_byte (k : LogicKind) (a b : Byte) :
    (k.byte a b).msb = k.bit a.msb b.msb := by
  cases k <;> simp [byte, bit]

/-- A logic instruction works on two registers or on a register and a constant. -/
structure LogicForm where
  kind : LogicKind
  immediate : Bool
  deriving DecidableEq, Repr

def logicForm : AvrOp → Option LogicForm
  | .AND | .TST => some ⟨.and, false⟩
  | .ANDI | .CBR => some ⟨.and, true⟩
  | .OR => some ⟨.or, false⟩
  | .ORI | .SBR => some ⟨.or, true⟩
  | .EOR | .CLR => some ⟨.eor, false⟩
  | _ => none

namespace LogicForm

/-- `dddd` counts from R16 beside a constant, `d dddd` from R0 beside a register. -/
def dest (f : LogicForm) (w : Word) : Nat :=
  if f.immediate then 16 + (w.extractLsb' 4 4).toNat else (w.extractLsb' 4 5).toNat

/-- The register `r rrrr` or the constant `KKKK KKKK`. -/
def second (f : LogicForm) (w : Word) (s : AvrState) : Byte :=
  if f.immediate then w.extractLsb' 8 4 ++ w.extractLsb' 0 4
  else s.reg (w.extractLsb' 9 1 ++ w.extractLsb' 0 4).toNat

def result (f : LogicForm) (w : Word) (s : AvrState) : Byte :=
  f.kind.byte (s.reg (f.dest w)) (f.second w s)

theorem dest_lt (f : LogicForm) (w : Word) : f.dest w < 32 := by
  unfold dest
  split <;> omega

end LogicForm

/-- The documented effect of a logic instruction. -/
structure LogicContract (s s' : AvrState) (d : Nat) (result : Byte) : Prop where
  dest : s'.reg d = result
  flagN : s'.getFlag .N = result.msb
  flagZ : s'.getFlag .Z = decide (result = 0)
  flagV : s'.getFlag .V = false
  flagS : s'.getFlag .S = (s'.getFlag .N ^^ s'.getFlag .V)
  kept : ∀ b ∈ [SregBit.C, .H, .T, .I], s'.getFlag b = s.getFlag b
  others : ∀ i, i ≠ d → s'.reg i = s.reg i
  frame : s' = { s with r := s'.r, sreg := s'.sreg }

theorem logical_n (x : Byte) : (logical x).2.n = x.msb := decide_and_sign x

/-- With mask 0xE4 the old N stays and the old C goes. -/
theorem getFlag_withLogical (s : AvrState) (d result8 : Byte) (b : SregBit) :
    (s.withResult 0xE4 d (logical result8)).getFlag b =
      match b with
      | .C => false
      | .Z => decide (result8 = 0)
      | .N => s.getFlag .N || result8.msb
      | .V => false
      | .S => result8.msb
      | .H => s.getFlag .H
      | .T => s.getFlag .T
      | .I => s.getFlag .I := by
  rw [AvrState.getFlag_withResult]
  have hn : (logical result8).2.get .N = result8.msb := logical_n result8
  have hs : (logical result8).2.get .S = result8.msb := logical_n result8
  cases b
  case N => rw [hn]; simp [SregBit.index]
  case S => rw [hs]; simp [SregBit.index]
  all_goals simp [SregBit.index, logical, Flags.get]

/-- The contract holds of what the executors do exactly when there was no carry
to keep and no stale N to drop. -/
theorem logicContract_withLogical (s : AvrState) {d : Byte} (result8 : Byte) (hd : d.toNat < 32) :
    LogicContract s (s.withResult 0xE4 d (logical result8)) d.toNat result8 ↔
      s.getFlag .C = false ∧ (s.getFlag .N = true → result8.msb = true) := by
  constructor
  · intro h
    have hc := h.kept .C (by simp)
    have hn := h.flagN
    rw [getFlag_withLogical] at hc hn
    refine ⟨hc.symm, ?_⟩
    intro old
    simp only [old, Bool.true_or] at hn
    exact hn.symm
  · rintro ⟨hc, hn⟩
    have n : (s.getFlag .N || result8.msb) = result8.msb := by
      cases old : s.getFlag .N
      · rfl
      · rw [hn old]; rfl
    refine ⟨?_, ?_, ?_, ?_, ?_, ?_, ?_, rfl⟩
    · exact AvrState.reg_setReg_self s result8 hd
    · rw [getFlag_withLogical]; exact n
    · rw [getFlag_withLogical]
    · rw [getFlag_withLogical]
    · simp only [getFlag_withLogical, n, Bool.xor_false]
    · intro b hb
      rw [getFlag_withLogical]
      cases b <;> simp_all
    · intro i hi
      exact AvrState.reg_setReg_of_ne s result8 hi

theorem decodeRdRr_d (w : Word) : (decodeRdRr w).d.toNat = (w.extractLsb' 4 5).toNat := by
  have h : (w >>> 4) &&& 0x1F = (w.extractLsb' 4 5).setWidth 16 := by
    ext i hi
    interval_cases i <;> simp
  change (((w >>> 4) &&& 0x1F).setWidth 8).toNat = _
  rw [h]
  simp only [BitVec.toNat_setWidth]
  omega

theorem decodeRdRr_r (w : Word) :
    (decodeRdRr w).r.toNat = (w.extractLsb' 9 1 ++ w.extractLsb' 0 4).toNat := by
  have h : ((w >>> 5) &&& 0x10) ||| (w &&& 0x0F) =
      (w.extractLsb' 9 1 ++ w.extractLsb' 0 4).setWidth 16 := by
    apply BitVec.eq_of_getLsbD_eq
    intro i hi
    rw [BitVec.getLsbD_setWidth, BitVec.getLsbD_append]
    interval_cases i <;> simp
  change ((((w >>> 5) &&& 0x10) ||| (w &&& 0x0F)).setWidth 8).toNat = _
  rw [h]
  simp only [BitVec.toNat_setWidth]
  omega

theorem decodeRdK8_d (w : Word) : (decodeRdK8 w).d.toNat = 16 + (w.extractLsb' 4 4).toNat := by
  have h : (w >>> 4) &&& 0x0F = (w.extractLsb' 4 4).setWidth 16 := by
    ext i hi
    interval_cases i <;> simp
  change ((((w >>> 4) &&& 0x0F) + 16).setWidth 8).toNat = _
  rw [h]
  simp only [BitVec.toNat_setWidth, BitVec.toNat_add, show (16 : Word).toNat = 16 from rfl]
  omega

theorem decodeRdK8_k (w : Word) :
    (decodeRdK8 w).k = w.extractLsb' 8 4 ++ w.extractLsb' 0 4 := by
  apply BitVec.eq_of_getLsbD_eq
  intro i hi
  rw [BitVec.getLsbD_append]
  unfold decodeRdK8
  interval_cases i <;> simp

namespace LogicForm

/-- The one program that all logic instructions are. -/
def execute (f : LogicForm) (w : Word) : Cpu Unit :=
  if f.immediate then do
    let rd ← regAt (decodeRdK8 w).d.toNat
    putLogical (decodeRdK8 w).d (f.kind.byte rd (decodeRdK8 w).k)
  else do
    let rd ← regAt (decodeRdRr w).d.toNat
    let rr ← regAt (decodeRdRr w).r.toNat
    putLogical (decodeRdRr w).d (f.kind.byte rd rr)

theorem dispatch_eq {row : Opcode} {f : LogicForm} (hf : logicForm row.op = some f)
    (w second : Word) : dispatch row w second = onCpu (f.execute w) := by
  unfold logicForm at hf
  split at hf
  all_goals cases hf
  all_goals
    next hop =>
      simp only [dispatch, hop]
      rfl

/-- The register an instruction writes, as the operand extractors give it. -/
def destByte (f : LogicForm) (w : Word) : Byte :=
  if f.immediate then (decodeRdK8 w).d else (decodeRdRr w).d

theorem destByte_toNat (f : LogicForm) (w : Word) : (f.destByte w).toNat = f.dest w := by
  unfold destByte dest
  split
  · exact decodeRdK8_d w
  · exact decodeRdRr_d w

theorem run_execute (f : LogicForm) (w : Word) (s : AvrState) :
    (f.execute w).run s =
      some ((), s.withResult 0xE4 (f.destByte w) (logical (f.result w s))) := by
  obtain ⟨k, immediate⟩ := f
  cases immediate with
  | true =>
    have hd : (decodeRdK8 w).d.toNat < 32 := by rw [decodeRdK8_d]; omega
    change (regAt (decodeRdK8 w).d.toNat >>= fun rd => _).run s = _
    rw [Checked.run_bind_of (run_regAt hd), putLogical, run_putResult _ _ _ hd, decodeRdK8_d,
      decodeRdK8_k]
    rfl
  | false =>
    have hd : (decodeRdRr w).d.toNat < 32 := by rw [decodeRdRr_d]; omega
    have hr : (decodeRdRr w).r.toNat < 32 := by rw [decodeRdRr_r]; omega
    change (regAt (decodeRdRr w).d.toNat >>= fun rd => _).run s = _
    rw [Checked.run_bind_of (run_regAt hd), Checked.run_bind_of (run_regAt hr), putLogical,
      run_putResult _ _ _ hd, decodeRdRr_d, decodeRdRr_r]
    rfl

end LogicForm

theorem run_logic {row : Opcode} {f : LogicForm} (hf : logicForm row.op = some f)
    (w second : Word) (m : Machine) :
    (executeInstruction row w second).run m = some (true,
      m.setState (m.state.withResult 0xE4 (f.destByte w) (logical (f.result w m.state)))) := by
  rw [executeInstruction, LogicForm.dispatch_eq hf,
    Checked.run_bind_of (run_onCpu (f.run_execute w m.state))]
  rfl

/-- Every word that decodes to a logic instruction runs and reports success.
The contract holds of its effect exactly when C was clear and N was clear or is
set by the operands' sign bits. -/
theorem logic_contract_iff {w : Word} {row : Opcode} {f : LogicForm}
    (_ : decodeInstruction w = some row) (hf : logicForm row.op = some f) (second : Word)
    (m : Machine) :
    ∃ s', (executeInstruction row w second).run m = some (true, m.setState s') ∧
      (LogicContract m.state s' (f.dest w) (f.result w m.state) ↔
        m.state.getFlag .C = false ∧ (m.state.getFlag .N = true →
          f.kind.bit (m.state.reg (f.dest w)).msb (f.second w m.state).msb = true)) := by
  refine ⟨_, run_logic hf w second m, ?_⟩
  have bound : (f.destByte w).toNat < 32 := by
    rw [f.destByte_toNat]
    exact f.dest_lt w
  have contract := logicContract_withLogical m.state (f.result w m.state) bound
  rw [f.destByte_toNat] at contract
  rw [contract, LogicForm.result, LogicKind.msb_byte]

/-- Two negative operands, and every flag but C. -/
def negatives : AvrState := { (AvrState.zero.setReg 16 0xF0).setReg 17 0x9C with sreg := 0xFE }

/-- AND R16, R17. -/
theorem and_meets_contract : ∃ row s', decodeInstruction 0x2301 = some row ∧
    (executeInstruction row 0x2301 0).run (.initial negatives) =
      some (true, (Machine.initial negatives).setState s') ∧
    LogicContract negatives s' 16 0x90 := by
  have found : decodeInstruction 0x2301 = some ⟨0xFC00, 0x2000, .AND, .Rd_Rr, 1, 1, "AND"⟩ := by
    decide
  obtain ⟨s', run, contract⟩ :=
    logic_contract_iff (f := ⟨.and, false⟩) found rfl 0 (.initial negatives)
  exact ⟨_, s', found, run, contract.mpr (by decide)⟩

/-- AND R0, R0 after an instruction that produced a carry. -/
theorem and_drops_carry :
    let s := { AvrState.zero with sreg := 0x01 }
    ∃ row s', decodeInstruction 0x2000 = some row ∧ row.op = .AND ∧
      (executeInstruction row 0x2000 0).run (.initial s) =
        some (true, (Machine.initial s).setState s') ∧
      s'.getFlag .C ≠ s.getFlag .C ∧ ¬ LogicContract s s' 0 0 := by
  refine ⟨⟨0xFC00, 0x2000, .AND, .Rd_Rr, 1, 1, "AND"⟩, _, by decide, rfl, rfl, by decide, ?_⟩
  intro h
  exact absurd (h.kept .C (by simp)) (by decide)

end AvrEmulator
