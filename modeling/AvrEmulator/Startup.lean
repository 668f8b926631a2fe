import AvrEmulator.DecodeForms
import AvrEmulator.Routine
import AvrEmulator.Stack

/-! The code that the C runtime puts in front of `main`: it copies initial values from flash
to SRAM and clears the rest. -/

namespace AvrEmulator

open Transition StackSpec

theorem AvrState.ClockAt.trans {a b c : AvrState} {n k : Nat} (first : a.ClockAt b n)
    (rest : b.ClockAt c k) : a.ClockAt c (n + k) := by
  have first : b.cycleCount = _ := first
  have rest : c.cycleCount = _ := rest
  rw [AvrState.ClockAt, rest, first, BitVec.add_assoc, BitVec.ofNat_add]

/-- A register from 16 up, and a constant. -/
def upperConstant (d : Nat) (k : Byte) : Field → Nat
  | .d => d - 16
  | .K => k.toNat
  | _ => 0

theorem upper_in_range {f : Form} (upper : f = .LDI ∨ f = .CPI) {d : Nat} (high : d < 32)
    (k : Byte) : f.InRange (upperConstant d k) := by
  have dest : d - 16 < 16 := by omega
  have constant := k.isLt
  rcases upper with rfl | rfl <;> intro x <;> cases x <;>
    first | exact dest | exact constant | exact Nat.two_pow_pos _

theorem upper_operands {d : Nat} (low : 16 ≤ d) (high : d < 32) (k : Byte) :
    (Form.opsRdK8 (upperConstant d k)).d.toNat = d ∧ (Form.opsRdK8 (upperConstant d k)).k = k := by
  constructor
  · change (BitVec.ofNat 8 (16 + (d - 16))).toNat = _
    rw [BitVec.toNat_ofNat]
    omega
  · change BitVec.ofNat 8 k.toNat = k
    simp

def ldi (p : Nat × Byte) : Word := Form.LDI.word1 (upperConstant p.1 p.2)

def cpi (p : Nat × Byte) : Word := Form.CPI.word1 (upperConstant p.1 p.2)

section Constants

variable {s : AvrState} {a : Word} {ws : List Word}

/-- LDI takes a cycle, under its own row or that of SER. -/
theorem executes_ldi {i : Nat} {p : Nat × Byte} (masked : s.getFlag .I = false)
    (code : s.CodeAt a ws) (here : ws[i]? = some (ldi p))
    (pc : s.pc = a + BitVec.ofNat 16 (2 * i)) (low : 16 ≤ p.1) (high : p.1 < 32) :
    Executes s ((s.begun.setReg p.1 p.2).charged 1) := by
  have range := upper_in_range (.inl rfl) high p.2
  obtain ⟨row, member, found, hit⟩ := Form.LDI.decode_word1 (upperConstant p.1 p.2)
  have rows : ∀ row ∈ Form.LDI.rows, row.words ≠ 2 ∧ row.cyclesMin.toNat = 1 := by decide +kernel
  obtain ⟨short, one⟩ := rows row member
  obtain ⟨dest, constant⟩ := upper_operands low high p.2
  have effect :
      ViewEffect Machine.state (dispatch row (ldi p) 0) s.begun (s.begun.setReg p.1 p.2) := by
    have same := Form.LDI.dispatch_word1 range member hit
    rw [show Form.LDI.word2 (upperConstant p.1 p.2) = 0 from rfl] at same
    rw [ldi, same]
    apply ViewEffect.onCpu
    rw [executeLDI, dest, constant, run_setRegAt _ high]
  have executes := executes_at masked code here pc found short effect
  rw [one] at executes
  exact executes

/-- What a block of LDIs leaves. -/
structure Loaded (constants : List (Nat × Byte)) (s s' : AvrState) : Prop where
  rest : Spares (constants.map Prod.fst) s s'
  values : ∀ p ∈ constants, s'.reg p.1 = p.2
  sram : s'.sram = s.sram
  pc : s'.pc = s.pc + BitVec.ofNat 16 (2 * constants.length)
  clock : s.ClockAt s' constants.length

theorem loaded_one (s : AvrState) (p : Nat × Byte) (high : p.1 < 32) :
    Loaded [p] s ((s.begun.setReg p.1 p.2).charged 1) := by
  have value : ((s.begun.setReg p.1 p.2).charged 1).reg p.1 = p.2 :=
    s.begun.reg_setReg_self p.2 high
  refine ⟨⟨?_, fun _ _ => rfl, rfl, rfl, rfl⟩, ?_, rfl, rfl, rfl⟩
  · intro i other
    exact s.begun.reg_setReg_of_ne p.2 fun same => other (by rw [same]; simp)
  · rw [List.forall_mem_singleton]
    exact value

theorem Loaded.cons {p : Nat × Byte} {constants : List (Nat × Byte)} {s t u : AvrState}
    (first : Loaded [p] s t) (rest : Loaded constants t u)
    (new : p.1 ∉ constants.map Prod.fst) : Loaded (p :: constants) s u where
  rest := (first.rest.weaken (by simp)).trans (rest.rest.weaken (by simp))
  values := by
    rw [List.forall_mem_cons]
    exact ⟨(rest.rest.reg p.1 new).trans (first.values p (by simp)), rest.values⟩
  sram := rest.sram.trans first.sram
  pc := by
    have length : 2 * (p :: constants).length = 2 + 2 * constants.length := by
      rw [List.length_cons]
      omega
    rw [rest.pc, first.pc, length, BitVec.ofNat_add, ← BitVec.add_assoc]
    rfl
  clock := by
    rw [List.length_cons, Nat.add_comm]
    exact first.clock.trans rest.clock

/-- A block of LDIs to different registers. -/
theorem loads_constants {constants : List (Nat × Byte)} {i : Nat}
    (masked : s.getFlag .I = false) (code : s.CodeAt a ws)
    (here : ∀ j (h : j < constants.length), ws[i + j]? = some (ldi constants[j]))
    (pc : s.pc = a + BitVec.ofNat 16 (2 * i)) (upper : ∀ p ∈ constants, 16 ≤ p.1 ∧ p.1 < 32)
    (distinct : (constants.map Prod.fst).Nodup) :
    ∃ s', Steps Executes constants.length s s' ∧ Loaded constants s s' := by
  induction constants generalizing s i with
  | nil =>
    refine ⟨s, .none s, .refl s, by simp, rfl, ?_, ?_⟩
    · exact (BitVec.add_zero _).symm
    · exact (BitVec.add_zero _).symm
  | cons p constants ih =>
    obtain ⟨low, high⟩ := upper p List.mem_cons_self
    have first : Executes s ((s.begun.setReg p.1 p.2).charged 1) :=
      executes_ldi masked code (here 0 (by simp)) pc low high
    have one := loaded_one s p high
    generalize (s.begun.setReg p.1 p.2).charged 1 = t at first one
    have behind : t.pc = a + BitVec.ofNat 16 (2 * (i + 1)) := by
      rw [one.pc, pc, Nat.mul_succ, BitVec.ofNat_add, BitVec.add_assoc]
      rfl
    have off : t.getFlag .I = false := (one.rest.flags .I (by simp)).trans masked
    have later : ∀ j (h : j < constants.length), ws[i + 1 + j]? = some (ldi constants[j]) := by
      intro j h
      have next := here (j + 1) (by simpa using h)
      rw [Nat.add_assoc, Nat.add_comm 1]
      exact next
    rw [List.map_cons, List.nodup_cons] at distinct
    obtain ⟨u, steps, rest⟩ := ih off (code.same one.rest.flash) later behind
      (fun q member => upper q (List.mem_cons_of_mem p member)) distinct.2
    exact ⟨u, .some first steps, one.cons rest distinct.1⟩

end Constants

/-- CPC R27, Rh -/
def cpcHigh (h : Fin 32) : Word := 0x05B0 ||| ((BitVec.ofNat 16 h.val &&& 0x10) <<< 5) |||
  (BitVec.ofNat 16 h.val &&& 0x0F)

theorem cpcHigh_operands : ∀ h : Fin 32,
    decodeInstruction (cpcHigh h) = some ⟨0xFC00, 0x0400, .CPC, .Rd_Rr, 1, 1, "CPC"⟩ ∧
    Arithmetic.dest .CPC (cpcHigh h) = 27 ∧
    ((cpcHigh h).extractLsb' 9 1 ++ (cpcHigh h).extractLsb' 0 4).toNat = h.val := by
  decide +kernel

/-- Z after a comparison by bytes. -/
structure Compared (x y : Word) (s s' : AvrState) : Prop where
  rest : Spares [] s s'
  sram : s'.sram = s.sram
  zero : s'.getFlag .Z = true ↔ x = y
  pc : s'.pc = s.pc + 4
  clock : s.ClockAt s' 2

section Test

variable {s : AvrState} {a : Word} {ws : List Word} {i : Nat}

theorem arithmetic_step {op : Arithmetic} {row : Opcode} {w : Word}
    (masked : s.getFlag .I = false) (code : s.CodeAt a ws) (here : ws[i]? = some w)
    (pc : s.pc = a + BitVec.ofNat 16 (2 * i)) (found : decodeInstruction w = some row)
    (short : row.words ≠ 2) (hop : arithmetic row.op = some op)
    (compares : op.written w s.begun = []) :
    ∃ s', Executes s s' ∧ Spares [] s s' ∧ s'.sram = s.sram ∧ s'.pc = s.pc + 2 ∧
      s.ClockAt s' row.cyclesMin.toNat ∧
      ∀ b, s'.getFlag b = ((op.flags [.ADC, .SBC, .SBCI, .CPC] w s.begun).get b).getD
        (s.getFlag b) := by
  obtain ⟨s₁, effect, contract⟩ := arithmetic_effect row hop w s.begun
  have executes := executes_at masked code here pc found short effect
  have frame := contract.frame
  refine ⟨_, executes, Spares.around (.of_contract contract ?_), ?_, ?_, ?_, contract.flags⟩
  · rw [compares]
    exact List.Subset.refl _
  · change s₁.sram = _
    rw [frame]
    rfl
  · change s₁.pc = _
    rw [frame]
    rfl
  · rw [frame]
    rfl

theorem cpi_operands {d : Nat} (low : 16 ≤ d) (high : d < 32) (k : Byte) (s : AvrState) :
    Arithmetic.dest .CPI (cpi (d, k)) = d ∧ Arithmetic.second .CPI (cpi (d, k)) s = k := by
  have fields := Form.decodeRdK8_word1 (upper_in_range (.inr rfl) high k)
    (show Form.CPI ∈ _ by decide)
  obtain ⟨dest, constant⟩ := upper_operands low high k
  rw [← fields] at dest constant
  exact ⟨(decodeRdK8_d _).symm.trans dest, (decodeRdK8_k _).symm.trans constant⟩

/-- The high bytes decide where the low bytes are equal, which leaves no borrow. -/
theorem compared_zero {x y : Word} {c : Bool}
    (carry : lowByte x = lowByte y → c = false) :
    (decide (lowByte x - lowByte y = 0) &&
      decide (highByte x - highByte y - carryByte c = 0)) = true ↔ x = y := by
  simp only [Bool.and_eq_true, decide_eq_true_eq]
  constructor
  · rintro ⟨low, high⟩
    have low : lowByte x = lowByte y := by bv_omega
    rw [carry low] at high
    have high : highByte x - highByte y - 0 = 0 := high
    have high : highByte x = highByte y := by bv_omega
    rw [← join_split x, ← join_split y, low, high]
  · rintro rfl
    rw [carry rfl]
    simp [carryByte]

theorem low_pointer (s : AvrState) (i : Nat) : lowByte (s.pointer i) = s.reg i := by
  apply BitVec.eq_of_getLsbD_eq
  intro j hj
  rw [lowByte, BitVec.getLsbD_setWidth, BitVec.getLsbD_and, AvrState.pointer,
    BitVec.getLsbD_append]
  interval_cases j <;> simp

theorem high_pointer (s : AvrState) (i : Nat) : highByte (s.pointer i) = s.reg (i + 1) := by
  apply BitVec.eq_of_getLsbD_eq
  intro j hj
  rw [highByte, BitVec.getLsbD_setWidth, BitVec.getLsbD_ushiftRight, AvrState.pointer,
    BitVec.getLsbD_append]
  interval_cases j <;> simp

/-- CPI and CPC compare X with a constant whose high byte is in a register. -/
theorem compares_pointer {h : Fin 32} {stop : Word} (masked : s.getFlag .I = false)
    (code : s.CodeAt a ws) (first : ws[i]? = some (cpi (26, lowByte stop)))
    (second : ws[i + 1]? = some (cpcHigh h)) (pc : s.pc = a + BitVec.ofNat 16 (2 * i))
    (upper : s.reg h.val = highByte stop) :
    ∃ s', Steps Executes 2 s s' ∧ Compared (s.pointer 26) stop s s' := by
  obtain ⟨row, member, found, -⟩ := Form.CPI.decode_word1 (upperConstant 26 (lowByte stop))
  have rows : ∀ row ∈ Form.CPI.rows, row.words ≠ 2 ∧ arithmetic row.op = some .CPI ∧
      row.cyclesMin.toNat = 1 := by
    decide +kernel
  obtain ⟨short, hop, one⟩ := rows row member
  obtain ⟨t, executes, rest, sram, next, clock, flags⟩ :=
    arithmetic_step masked code first pc found short hop rfl
  obtain ⟨dest, constant⟩ :=
    cpi_operands (show 16 ≤ 26 by decide) (by decide) (lowByte stop) s.begun
  have off : t.getFlag .I = false := (rest.flags .I (by simp)).trans masked
  have behind : t.pc = a + BitVec.ofNat 16 (2 * (i + 1)) := by
    rw [next, pc, Nat.mul_succ, BitVec.ofNat_add, BitVec.add_assoc]
    rfl
  obtain ⟨found', dest', source⟩ := cpcHigh_operands h
  obtain ⟨u, executes', rest', sram', next', clock', flags'⟩ :=
    arithmetic_step off (code.same rest.flash) second behind found' (by decide) rfl rfl
  rw [one] at clock
  refine ⟨u, .some executes (.some executes' (.none u)), rest.trans rest', sram'.trans sram, ?_, ?_,
    clock.trans clock'⟩
  · have zero : t.getFlag .Z = decide (lowByte (s.pointer 26) - lowByte stop = 0) := by
      rw [flags .Z, low_pointer]
      change (true && decide (s.reg (Arithmetic.dest .CPI _) - Arithmetic.second .CPI _ _ = 0)) = _
      rw [dest, constant, Bool.true_and]
    have carry : lowByte (s.pointer 26) = lowByte stop → t.getFlag .C = false := by
      intro same
      rw [low_pointer] at same
      rw [flags .C]
      change borrowOut 7 (s.reg (Arithmetic.dest .CPI _)) (Arithmetic.second .CPI _ _)
        (s.reg (Arithmetic.dest .CPI _) - Arithmetic.second .CPI _ _) = false
      rw [dest, constant, same, BitVec.sub_self]
      simp [borrowOut]
    rw [← compared_zero carry, ← zero, flags' .Z]
    change (t.getFlag .Z && decide (t.reg (Arithmetic.dest .CPC _) - t.reg _ -
      carryByte (t.getFlag .C) = 0)) = true ↔ _
    rw [dest', source, rest.reg 27 (by simp), rest.reg h.val (by simp), upper, high_pointer]
  · rw [next', next, BitVec.add_assoc]
    rfl

end Test

section Move

variable {s : AvrState} {a : Word} {ws : List Word} {i : Nat}

theorem withPointer_pointer (s : AvrState) {i : Nat} (room : i + 1 < 32) (p : Word) :
    (s.withPointer i p).pointer i = p := by
  have low : (s.withPointer i p).reg i = lowByte p := by
    rw [AvrState.withPointer, AvrState.reg_setReg_of_ne _ _ (by omega)]
    exact AvrState.reg_setReg_self _ _ (by omega)
  have high : (s.withPointer i p).reg (i + 1) = highByte p := AvrState.reg_setReg_self _ _ room
  rw [AvrState.pointer, low, high, join_split]

theorem withPointer_spares (s : AvrState) (i : Nat) (p : Word) :
    Spares [i, i + 1] s (s.withPointer i p) := by
  refine ⟨?_, fun _ _ => rfl, rfl, rfl, rfl⟩
  intro j other
  simp only [List.mem_cons, List.not_mem_nil, or_false, not_or] at other
  rw [AvrState.withPointer, AvrState.reg_setReg_of_ne _ _ other.2,
    AvrState.reg_setReg_of_ne _ _ other.1]

/-- LPM R0, Z+ -/
theorem executes_lpm (masked : s.getFlag .I = false) (code : s.CodeAt a ws)
    (here : ws[i]? = some 0x9005) (pc : s.pc = a + BitVec.ofNat 16 (2 * i))
    (inside : (s.pointer 30).toNat < avrFlashSize) :
    ∃ t, Executes s t ∧ Spares [0, 30, 31] s t ∧ t.reg 0 = s.flash.peek (s.pointer 30).toNat ∧
      t.pointer 30 = s.pointer 30 + 1 ∧ t.sram = s.sram ∧ t.pc = s.pc + 2 ∧ s.ClockAt t 3 := by
  have found : decodeInstruction 0x9005 =
      some ⟨0xFE0F, 0x9005, .LPM, .Rd_only, 1, 3, "LPM Rd,Z+"⟩ := by
    decide +kernel
  have executes := executes_at masked code here pc found (by decide)
    (lpm_effect rfl (by decide) inside)
  refine ⟨_, executes, Spares.around ?_, ?_, ?_, rfl, rfl, rfl⟩
  · have load : Spares [0] s.begun (s.begun.setReg 0 (s.flash.peek (s.pointer 30).toNat)) := by
      refine ⟨?_, fun _ _ => rfl, rfl, rfl, rfl⟩
      intro j other
      exact AvrState.reg_setReg_of_ne _ _ (by simpa using other)
    exact (load.weaken (by simp)).trans ((withPointer_spares _ 30 _).weaken (by simp))
  · have low := (withPointer_spares (s.begun.setReg 0 (s.flash.peek (s.pointer 30).toNat)) 30
      (s.pointer 30 + 1)).reg 0 (by simp)
    exact low.trans (AvrState.reg_setReg_self _ _ (by decide))
  · exact withPointer_pointer _ (by decide) _

/-- ST X+, Rd -/
theorem executes_st {w : Word} (register : w = 0x920D ∨ w = 0x921D)
    (masked : s.getFlag .I = false) (code : s.CodeAt a ws) (here : ws[i]? = some w)
    (pc : s.pc = a + BitVec.ofNat 16 (2 * i)) (low : 0x0100 ≤ s.pointer 26)
    (high : s.pointer 26 ≤ 0x08FF) :
    ∃ t, Executes s t ∧ Spares [26, 27] s t ∧ t.pointer 26 = s.pointer 26 + 1 ∧
      t.sram = (s.stored (s.pointer 26) (s.reg (w.extractLsb' 4 5).toNat)).sram ∧
      t.pc = s.pc + 2 ∧ s.ClockAt t 2 := by
  have found : decodeInstruction w =
      some ⟨0xFE0C, 0x920C, .ST_X, .LD_family, 1, 2, "ST X"⟩ := by
    rcases register with rfl | rfl <;> decide +kernel
  have mode : (decodeLdSt w).mode = 1 := by
    rcases register with rfl | rfl <;> decide
  have executes := executes_at masked code here pc found (by decide)
    (st_x_effect rfl mode low high)
  have stored (v : Byte) : Spares [26, 27] s.begun (s.begun.stored (s.pointer 26) v) ∧
      (s.begun.stored (s.pointer 26) v).sram = (s.stored (s.pointer 26) v).sram ∧
      (s.begun.stored (s.pointer 26) v).pc = s.pc + 2 ∧
      (s.begun.stored (s.pointer 26) v).cycleCount = s.cycleCount ∧
      (s.begun.stored (s.pointer 26) v).extraCycles = 0 := by
    unfold AvrState.stored
    split <;> exact ⟨.same rfl rfl rfl rfl rfl, rfl, rfl, rfl, rfl⟩
  change Executes s (((s.begun.stored (s.pointer 26) (s.reg (w.extractLsb' 4 5).toNat)).withPointer
    26 (s.pointer 26 + 1)).charged 2) at executes
  obtain ⟨rest, sram, next, count, extra⟩ := stored (s.reg (w.extractLsb' 4 5).toNat)
  refine ⟨_, executes, Spares.around (rest.trans (withPointer_spares _ 26 _)), ?_, sram, next, ?_⟩
  · exact withPointer_pointer _ (by decide) _
  · generalize s.reg (w.extractLsb' 4 5).toNat = v at count extra
    change (s.begun.stored (s.pointer 26) v).cycleCount +
      BitVec.ofNat 64 (2 + (s.begun.stored (s.pointer 26) v).extraCycles.toNat) = _
    rw [count, extra]
    rfl

end Move

end AvrEmulator
