import AvrEmulator.ByteChain
import AvrEmulator.Executor.Control

/-! Multi-byte comparison, subtraction and addition on the numbers themselves. -/

namespace AvrEmulator

open Numeral CarryStep

def AvrState.branch (s : AvrState) (k : Byte) : AvrState :=
  { s with pc := s.pc + k.signExtend 16 * 2, extraCycles := 1 }

/-- BRBS on the flag branches exactly when `p` holds and BRBC on it exactly when
it does not. -/
def BranchesOn (s : AvrState) (bit : SregBit) (p : Prop) : Prop :=
  ∀ k : Byte,
    let ops : OpsK7 := ⟨k, BitVec.ofNat 8 bit.index⟩
    (p → (executeBRBS ops).run s = some ((), s.branch k) ∧
      (executeBRBC ops).run s = some ((), s)) ∧
    (¬ p → (executeBRBS ops).run s = some ((), s) ∧
      (executeBRBC ops).run s = some ((), s.branch k))

theorem run_branchIf (taken : Bool) (ops : OpsK7) (s : AvrState) :
    (branchIf taken ops).run s =
      some ((), if sregBit s.sreg ops.s.toNat = taken then s.branch ops.k else s) := by
  change (if sregBit s.sreg ops.s.toNat = taken then _ else _ : Cpu Unit).run s = _
  split <;> rfl

theorem branchesOn_of_flag {s : AvrState} {bit : SregBit} {p : Prop}
    (h : s.getFlag bit = true ↔ p) : BranchesOn s bit p := by
  intro k ops
  have flag : sregBit s.sreg ops.s.toNat = s.getFlag bit := by
    have small : bit.index < 2 ^ 8 := Nat.lt_trans bit.index_lt (by decide)
    rw [AvrState.getFlag, BitVec.toNat_ofNat, Nat.mod_eq_of_lt small]
  rw [executeBRBS, executeBRBC, run_branchIf, run_branchIf, flag]
  constructor
  · intro hp
    simp [h.mpr hp, ops]
  · intro hp
    have clear : s.getFlag bit = false := by simpa using fun set => hp (h.mp set)
    simp [clear, ops]

namespace ByteChain

variable {op : ByteChain} {hold : Prop} {held : List Nat} {m m' : Machine}
  {pairs : List (Byte × Byte)} {outs : List (Nat × Byte)}

theorem Chain.flags (h : Chain op hold true held m pairs outs m') (hne : pairs ≠ []) :
    ChainFlags op.step false true pairs m'.state.sreg := by
  rw [h.sreg]
  exact op.sregAfter_flags true m.state.sreg hne

theorem Chain.kept (h : Chain op hold true held m pairs outs m') {b : SregBit}
    (hb : b ∈ [SregBit.T, .I]) : m'.state.getFlag b = m.state.getFlag b := by
  rw [AvrState.getFlag_eq, AvrState.getFlag_eq, h.sreg, op.sregAfter_kept _ _ _ hb]

theorem step_of_ne_add (hop : op ≠ .add) : op.step = subStep := by
  cases op <;> first | rfl | exact absurd rfl hop

/-- A comparison or subtraction chain. Every initial part of a chain is a chain,
so T and I are as they were after every link. BRLO and BRSH test C, BRLT and
BRGE test S, BREQ and BRNE test Z. -/
theorem subtraction_chain_decides (hop : op ≠ .add) (hne : pairs ≠ [])
    (h : Chain op hold true [] m pairs outs m') :
    let a := pairs.map Prod.fst
    let b := pairs.map Prod.snd
    (m'.state.getFlag .C = true ↔ value a < value b) ∧
    (m'.state.getFlag .S = true ↔ signed a < signed b) ∧
    (m'.state.getFlag .Z = true ↔ value a = value b) ∧
    m'.state.getFlag .T = m.state.getFlag .T ∧ m'.state.getFlag .I = m.state.getFlag .I ∧
    (op ≠ .compare → (value (outs.map Prod.snd) : Int) =
        ((value a : Int) - value b) % 2 ^ (8 * pairs.length) ∧
      (hold → ∀ p ∈ outs, m'.state.reg p.1 = p.2)) ∧
    (∀ (op' : ByteChain) (hold' : Prop) (outs' : List (Nat × Byte)) (m'' : Machine),
      op' ≠ .add → Chain op' hold' true [] m pairs outs' m'' →
        m''.state.sreg = m'.state.sreg) ∧
    BranchesOn m'.state .C (value a < value b) ∧
    BranchesOn m'.state .S (signed a < signed b) ∧
    BranchesOn m'.state .Z (value a = value b) := by
  intro a b
  have flags := h.flags hne
  rw [step_of_ne_add hop] at flags
  have carry : m'.state.getFlag .C = true ↔ value a < value b := by
    rw [AvrState.getFlag_eq, flags.carry]
    exact subStep.carries_iff_lt rfl pairs
  have sign : m'.state.getFlag .S = true ↔ signed a < signed b := by
    rw [AvrState.getFlag_eq, flags.sign, signedTotal, Bool.toNat_false, Nat.cast_zero, add_zero,
      show subStep.sign = -1 from rfl, neg_one_mul, ← sub_eq_add_neg, sub_neg]
  have zero : m'.state.getFlag .Z = true ↔ value a = value b := by
    rw [AvrState.getFlag_eq, flags.zero, and_iff_right rfl]
    exact subStep.digits_zero_iff_eq rfl pairs
  refine ⟨carry, sign, zero, h.kept (by simp), h.kept (by simp), fun writes => ⟨?_, ?_⟩, ?_,
    branchesOn_of_flag carry, branchesOn_of_flag sign, branchesOn_of_flag zero⟩
  · rw [h.outs_eq writes, step_of_ne_add hop, carryInto, Bool.not_true, Bool.false_and,
      subStep.value_digits, show subStep.sign = -1 from rfl, neg_one_mul, ← sub_eq_add_neg]
  · exact fun undisturbed => (h.held_eq undisturbed).2
  · intro op' hold' outs' m'' hop' h'
    rw [h.sreg, h'.sreg, sregAfter_eq_compare hop, sregAfter_eq_compare hop']

/-- 0x8000 against 0x0001: greater as unsigned, less as signed. -/
theorem compare_most_negative : ∃ outs m',
    Chain .compare False true [] (.initial .zero) [(0x00, 0x01), (0x80, 0x00)] outs m' ∧
      m'.state.getFlag .C ≠ true ∧ m'.state.getFlag .S = true := by
  obtain ⟨outs, m', h⟩ :=
    exists_chain .compare true [] (.initial .zero) [(0x00, 0x01), (0x80, 0x00)]
  have decides := subtraction_chain_decides (by decide) (by decide) h
  exact ⟨outs, m', h, fun set => absurd (decides.1.mp set) (by decide),
    decides.2.1.mpr (by decide)⟩

/-- An addition chain; source and destination of a link may be one register. -/
theorem addition_chain_sums (hne : pairs ≠ []) (h : Chain .add hold true [] m pairs outs m') :
    let a := pairs.map Prod.fst
    let b := pairs.map Prod.snd
    let n := pairs.length
    value (outs.map Prod.snd) = (value a + value b) % 2 ^ (8 * n) ∧
    (m'.state.getFlag .C = true ↔ 2 ^ (8 * n) ≤ value a + value b) ∧
    (m'.state.getFlag .V = true ↔ ¬ FitsSigned (8 * n) (signed a + signed b)) ∧
    m'.state.getFlag .N = (BitVec.ofNat (8 * n) (value (outs.map Prod.snd))).msb ∧
    (m'.state.getFlag .S = true ↔ signed a + signed b < 0) ∧
    m'.state.getFlag .T = m.state.getFlag .T ∧ m'.state.getFlag .I = m.state.getFlag .I ∧
    (hold → ∀ p ∈ outs, m'.state.reg p.1 = p.2) := by
  intro a b n
  have flags := h.flags hne
  have total : addStep.signedTotal false pairs = signed a + signed b := by
    rw [signedTotal, Bool.toNat_false, Nat.cast_zero, add_zero, show addStep.sign = 1 from rfl,
      one_mul]
  have digits : outs.map Prod.snd = addStep.digits false pairs := h.outs_eq (by decide)
  refine ⟨?_, ?_, ?_, ?_, ?_, h.kept (by simp), h.kept (by simp), fun u => (h.held_eq u).2⟩
  · have sum := addStep.value_digits pairs
    rw [show addStep.sign = 1 from rfl, one_mul] at sum
    rw [digits]
    exact_mod_cast sum
  · rw [AvrState.getFlag_eq, flags.carry]
    exact addStep.carries_iff_ge rfl pairs
  · rw [AvrState.getFlag_eq, flags.overflow]
    exact not_congr (by rw [← total]; rfl)
  · rw [AvrState.getFlag_eq, Bool.eq_iff_iff, flags.negative, digits, BitVec.msb_eq_toInt,
      decide_eq_true_eq, signed, length_digits]
    rfl
  · rw [AvrState.getFlag_eq, flags.sign, ← total]
    rfl

/-- 0x7FFF + 0x0001 leaves the signed range and carries nothing out. -/
theorem add_to_most_positive : ∃ outs m',
    Chain .add False true [] (.initial .zero) [(0xFF, 0x01), (0x7F, 0x00)] outs m' ∧
      m'.state.getFlag .C ≠ true ∧ m'.state.getFlag .V = true := by
  obtain ⟨outs, m', h⟩ := exists_chain .add true [] (.initial .zero) [(0xFF, 0x01), (0x7F, 0x00)]
  have sums := addition_chain_sums (by decide) h
  refine ⟨outs, m', h, fun set => absurd (sums.2.1.mp set) (by decide), sums.2.2.1.mpr ?_⟩
  rintro ⟨-, small⟩
  exact absurd small (by decide)

end ByteChain

end AvrEmulator
