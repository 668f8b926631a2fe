import AvrEmulator.ByteFlags

/-! Chains of byte instructions that work on multi-byte integers, the carry
going from link to link in SREG. -/

namespace AvrEmulator

open Numeral

inductive ByteChain where
  | compare | subtract | subtractImmediate | add
  deriving DecidableEq, Repr

namespace ByteChain

/-- The operands of one link. A constant takes the place of the second register
in an immediate chain. -/
structure Operands where
  d : Byte
  r : Byte
  k : Byte

/-- CP, CPC, CPC, ... and so on. -/
def execute : ByteChain → Bool → Operands → Cpu Unit
  | .compare, true, o => executeCP ⟨o.d, o.r⟩
  | .compare, false, o => executeCPC ⟨o.d, o.r⟩
  | .subtract, true, o => executeSUB ⟨o.d, o.r⟩
  | .subtract, false, o => executeSBC ⟨o.d, o.r⟩
  | .subtractImmediate, true, o => executeSUBI ⟨o.d, o.k⟩
  | .subtractImmediate, false, o => executeSBCI ⟨o.d, o.k⟩
  | .add, true, o => executeADD ⟨o.d, o.r⟩
  | .add, false, o => executeADC ⟨o.d, o.r⟩

def second : ByteChain → Operands → AvrState → Byte
  | .subtractImmediate, o, _ => o.k
  | _, o, s => s.reg o.r.toNat

def step : ByteChain → CarryStep 8
  | .add => addStep
  | _ => subStep

def arithmetic : ByteChain → Byte → Byte → Byte → Bool → Byte × Flags
  | .add => addition
  | _ => subtraction

theorem arithmetic_flags (op : ByteChain) (a b : Byte) (c z : Bool) :
    LinkFlags op.step a b c z (op.arithmetic a b (carryByte c) z) := by
  cases op
  case add => exact addition_flags a b c z
  all_goals exact subtraction_flags a b c z

/-! What a link takes from SREG: the first one neither carry nor Z. -/

def carryInto (first : Bool) (sreg : Byte) : Bool := !first && sreg.getLsbD SregBit.C.index

def zeroInto (first : Bool) (sreg : Byte) : Bool := first || sreg.getLsbD SregBit.Z.index

def result (op : ByteChain) (first : Bool) (sreg a b : Byte) : Byte × Flags :=
  op.arithmetic a b (carryByte (carryInto first sreg)) (zeroInto first sreg)

/-- The state after a link. -/
def after (op : ByteChain) (first : Bool) (o : Operands) (s : AvrState) : AvrState :=
  let result := op.result first s.sreg (s.reg o.d.toNat) (op.second o s)
  if op = .compare then s.withFlags 0xC0 result.2 else s.withResult 0xC0 o.d result

theorem run_execute (op : ByteChain) (first : Bool) {o : Operands} (s : AvrState)
    (hd : o.d.toNat < 32) (hr : o.r.toNat < 32) :
    (op.execute first o).run s = some ((), op.after first o s) := by
  have carry : carryIn s.sreg = carryByte (carryInto false s.sreg) := by
    rw [carryIn_eq, AvrState.getFlag_eq]
    rfl
  have zero : s.getFlag .Z = zeroInto false s.sreg := by
    rw [AvrState.getFlag_eq]
    rfl
  have get {α : Type} (f : AvrState → Cpu α) : (get >>= f).run s = (f s).run s := rfl
  cases op <;> cases first
  case compare.true =>
    rw [execute, executeCP, Checked.run_bind_of (run_regAt hd), Checked.run_bind_of (run_regAt hr)]
    rfl
  case compare.false =>
    rw [execute, executeCPC, Checked.run_bind_of (run_regAt hd), Checked.run_bind_of (run_regAt hr),
      get, carry, zero]
    rfl
  case subtract.true =>
    rw [execute, executeSUB, Checked.run_bind_of (run_regAt hd), Checked.run_bind_of (run_regAt hr),
      run_putResult _ _ _ hd]
    rfl
  case subtract.false =>
    rw [execute, executeSBC, Checked.run_bind_of (run_regAt hd), Checked.run_bind_of (run_regAt hr),
      get, carry, zero, run_putResult _ _ _ hd]
    rfl
  case subtractImmediate.true =>
    rw [execute, executeSUBI, Checked.run_bind_of (run_regAt hd), run_putResult _ _ _ hd]
    rfl
  case subtractImmediate.false =>
    rw [execute, executeSBCI, Checked.run_bind_of (run_regAt hd), get, carry, zero,
      run_putResult _ _ _ hd]
    rfl
  case add.true =>
    rw [execute, executeADD, Checked.run_bind_of (run_regAt hd), Checked.run_bind_of (run_regAt hr),
      run_putResult _ _ _ hd]
    rfl
  case add.false =>
    rw [execute, executeADC, Checked.run_bind_of (run_regAt hd), Checked.run_bind_of (run_regAt hr),
      get, carry, zero, run_putResult _ _ _ hd]
    rfl

/-- A run of the chain over pairs of bytes. Between two links the machine may
change in any way that leaves SREG alone; with `hold` it also leaves alone the
registers in `held`, which the chain has written. Each link contributes the
register it writes with its content. -/
inductive Chain (op : ByteChain) (hold : Prop) : Bool → List Nat → Machine →
    List (Byte × Byte) → List (Nat × Byte) → Machine → Prop
  | done (first : Bool) (held : List Nat) (m : Machine) : Chain op hold first held m [] [] m
  | link {first : Bool} {held : List Nat} {m placed linked m' : Machine} {o : Operands}
      {pairs : List (Byte × Byte)} {outs : List (Nat × Byte)}
      (sreg : placed.state.sreg = m.state.sreg)
      (undisturbed : hold → ∀ i ∈ held, placed.state.reg i = m.state.reg i ∧ i ≠ o.d.toNat)
      (dest : o.d.toNat < 32) (source : o.r.toNat < 32)
      (ran : (onCpu (op.execute first o)).run placed = some ((), linked))
      (rest : Chain op hold false (o.d.toNat :: held) linked pairs outs m') :
      Chain op hold first held m
        ((placed.state.reg o.d.toNat, op.second o placed.state) :: pairs)
        ((o.d.toNat, linked.state.reg o.d.toNat) :: outs) m'

def sregAfter (op : ByteChain) : Bool → Byte → List (Byte × Byte) → Byte
  | _, sreg, [] => sreg
  | first, sreg, (a, b) :: ps =>
    sregAfter op false (packSreg 0xC0 sreg (op.result first sreg a b).2) ps

/-- The flags after a chain, against the whole numbers. -/
structure ChainFlags (f : CarryStep 8) (c z : Bool) (ps : List (Byte × Byte)) (sreg : Byte) :
    Prop where
  carry : sreg.getLsbD SregBit.C.index = f.carries c ps
  zero : sreg.getLsbD SregBit.Z.index = true ↔ z = true ∧ ∀ d ∈ f.digits c ps, d = 0
  negative : sreg.getLsbD SregBit.N.index = true ↔ signed (f.digits c ps) < 0
  overflow : sreg.getLsbD SregBit.V.index = true ↔
    ¬ FitsSigned (8 * ps.length) (f.signedTotal c ps)
  sign : sreg.getLsbD SregBit.S.index = true ↔ f.signedTotal c ps < 0

theorem packSreg_computed (sreg : Byte) (f : Flags) {b : SregBit}
    (hb : b ∈ [SregBit.C, .Z, .N, .V, .S]) :
    (packSreg 0xC0 sreg f).getLsbD b.index = f.get b := by
  rw [getLsbD_packSreg]
  cases b <;> simp_all [SregBit.index]

theorem packSreg_kept (sreg : Byte) (f : Flags) {b : SregBit} (hb : b ∈ [SregBit.T, .I]) :
    (packSreg 0xC0 sreg f).getLsbD b.index = sreg.getLsbD b.index := by
  rw [getLsbD_packSreg]
  cases b <;> simp_all [SregBit.index, Flags.get]

/-- Comparing and subtracting make the same SREG. -/
theorem sregAfter_eq_compare {op : ByteChain} (hop : op ≠ .add) (first : Bool) (sreg : Byte)
    (ps : List (Byte × Byte)) :
    op.sregAfter first sreg ps = ByteChain.compare.sregAfter first sreg ps := by
  have same : op.arithmetic = ByteChain.compare.arithmetic := by
    cases op <;> first | rfl | exact absurd rfl hop
  induction ps generalizing first sreg with
  | nil => rfl
  | cons p ps ih => rw [sregAfter, sregAfter, ih, result, result, same]

theorem sregAfter_kept (op : ByteChain) (first : Bool) (sreg : Byte) (ps : List (Byte × Byte))
    {b : SregBit} (hb : b ∈ [SregBit.T, .I]) :
    (op.sregAfter first sreg ps).getLsbD b.index = sreg.getLsbD b.index := by
  induction ps generalizing first sreg with
  | nil => rfl
  | cons p ps ih => rw [sregAfter, ih, packSreg_kept _ _ hb]

/-- The flags that a link hands to the next one. -/
theorem link_carry (op : ByteChain) (first : Bool) (sreg a b : Byte) :
    carryInto false (packSreg 0xC0 sreg (op.result first sreg a b).2) =
      op.step.carry a b (carryInto first sreg) := by
  have link := op.arithmetic_flags a b (carryInto first sreg) (zeroInto first sreg)
  rw [carryInto, packSreg_computed _ _ (by simp)]
  exact link.carry

theorem link_zero (op : ByteChain) (first : Bool) (sreg a b : Byte) :
    zeroInto false (packSreg 0xC0 sreg (op.result first sreg a b).2) =
      (zeroInto first sreg && decide (op.step.digit a b (carryInto first sreg) = 0)) := by
  have link := op.arithmetic_flags a b (carryInto first sreg) (zeroInto first sreg)
  rw [zeroInto, Bool.false_or, packSreg_computed _ _ (by simp), ← link.digit]
  exact link.zero

theorem sregAfter_flags (op : ByteChain) (first : Bool) (sreg : Byte) {ps : List (Byte × Byte)}
    (hps : ps ≠ []) :
    ChainFlags op.step (carryInto first sreg) (zeroInto first sreg) ps
      (op.sregAfter first sreg ps) := by
  induction ps generalizing first sreg with
  | nil => exact absurd rfl hps
  | cons p ps ih =>
    obtain ⟨a, b⟩ := p
    by_cases last : ps = []
    · subst last
      have link := op.arithmetic_flags a b (carryInto first sreg) (zeroInto first sreg)
      have bit {b' : SregBit} (hb : b' ∈ [SregBit.C, .Z, .N, .V, .S]) :
          (op.sregAfter first sreg [(a, b)]).getLsbD b'.index =
            (op.result first sreg a b).2.get b' := packSreg_computed _ _ hb
      have digit : op.step.digits (carryInto first sreg) [(a, b)] =
          [(op.result first sreg a b).1] := by
        rw [CarryStep.digits, CarryStep.digits, ← link.digit]
        rfl
      refine ⟨?_, ?_, ?_, ?_, ?_⟩
      · rw [bit (by simp)]
        exact link.carry
      · have z : (op.result first sreg a b).2.get .Z = _ := link.zero
        rw [bit (by simp), z, digit]
        simp [result]
      · rw [bit (by simp), digit]
        exact link.negative
      · rw [bit (by simp)]
        exact link.overflow
      · rw [bit (by simp)]
        exact link.sign
    · have rest := ih false (packSreg 0xC0 sreg (op.result first sreg a b).2) last
      rw [op.link_carry, op.link_zero] at rest
      have width : (0 : Nat) < 8 := by decide
      refine ⟨rest.carry, ?_, ?_, ?_, ?_⟩
      · rw [sregAfter, rest.zero]
        simp [CarryStep.digits, and_assoc]
      · rw [sregAfter, rest.negative, op.step.signed_digits_cons_neg width _ _ _ last]
      · rw [sregAfter, rest.overflow, List.length_cons,
          op.step.signedTotal_cons_fits width _ _ _ last]
      · rw [sregAfter, rest.sign, op.step.signedTotal_cons_neg width _ _ _ last]

/-! ## What a chain leaves behind -/

variable {op : ByteChain} {hold : Prop} {first : Bool} {held : List Nat} {m m' : Machine}
  {pairs : List (Byte × Byte)} {outs : List (Nat × Byte)}

theorem after_sreg (op : ByteChain) (first : Bool) (o : Operands) (s : AvrState) :
    (op.after first o s).sreg =
      packSreg 0xC0 s.sreg (op.result first s.sreg (s.reg o.d.toNat) (op.second o s)).2 := by
  unfold after
  split <;> rfl

theorem after_dest (hop : op ≠ .compare) {o : Operands} (s : AvrState) (hd : o.d.toNat < 32) :
    (op.after first o s).reg o.d.toNat =
      op.step.digit (s.reg o.d.toNat) (op.second o s) (carryInto first s.sreg) := by
  rw [after, if_neg hop, AvrState.withResult, AvrState.reg_withFlags,
    AvrState.reg_setReg_self _ _ hd]
  exact (op.arithmetic_flags _ _ _ _).digit

theorem after_reg_of_ne {o : Operands} (s : AvrState) {i : Nat} (hi : i ≠ o.d.toNat) :
    (op.after first o s).reg i = s.reg i := by
  unfold after
  split
  · rfl
  · exact AvrState.reg_setReg_of_ne s _ hi

theorem linked_eq {placed linked : Machine} {o : Operands} (hd : o.d.toNat < 32)
    (hr : o.r.toNat < 32) (ran : (onCpu (op.execute first o)).run placed = some ((), linked)) :
    linked.state = op.after first o placed.state := by
  rw [run_onCpu (op.run_execute first placed.state hd hr)] at ran
  cases ran
  rfl

theorem Chain.sreg (h : Chain op hold first held m pairs outs m') :
    m'.state.sreg = op.sregAfter first m.state.sreg pairs := by
  induction h with
  | done => rfl
  | link sreg _ dest source ran _ ih =>
    rw [ih, sregAfter, linked_eq dest source ran, after_sreg, sreg]

theorem Chain.outs_eq (h : Chain op hold first held m pairs outs m') (hop : op ≠ .compare) :
    outs.map Prod.snd = op.step.digits (carryInto first m.state.sreg) pairs := by
  induction h with
  | done => rfl
  | link sreg _ dest source ran _ ih =>
    rw [List.map_cons, ih, CarryStep.digits, linked_eq dest source ran, after_dest hop _ dest,
      after_sreg, op.link_carry, sreg]

/-- Undisturbed destinations still hold their bytes at the end. -/
theorem Chain.held_eq (h : Chain op hold first held m pairs outs m') (undisturbed : hold) :
    (∀ i ∈ held, m'.state.reg i = m.state.reg i) ∧ ∀ p ∈ outs, m'.state.reg p.1 = p.2 := by
  induction h with
  | done => simp
  | link sreg kept dest source ran _ ih =>
    have reached := linked_eq dest source ran
    obtain ⟨ihHeld, ihOuts⟩ := ih
    constructor
    · intro i hi
      obtain ⟨same, apart⟩ := kept undisturbed i hi
      rw [ihHeld i (List.mem_cons_of_mem _ hi), reached, after_reg_of_ne _ apart, same]
    · intro p hp
      rcases List.mem_cons.mp hp with rfl | hp
      · exact ihHeld _ List.mem_cons_self
      · exact ihOuts p hp

/-- Every list of bytes can be sent through every chain from every state. -/
theorem exists_chain (op : ByteChain) (first : Bool) (held : List Nat) (m : Machine)
    (pairs : List (Byte × Byte)) :
    ∃ outs m', Chain op False first held m pairs outs m' := by
  induction pairs generalizing first held m with
  | nil => exact ⟨[], m, .done first held m⟩
  | cons p pairs ih =>
    obtain ⟨a, b⟩ := p
    let o : Operands := ⟨16, 17, b⟩
    let placed := m.setState ((m.state.setReg 16 a).setReg 17 b)
    have ra : placed.state.reg 16 = a := by
      rw [show placed.state = (m.state.setReg 16 a).setReg 17 b from rfl,
        AvrState.reg_setReg_of_ne _ _ (by decide), AvrState.reg_setReg_self _ _ (by decide)]
    have rb : placed.state.reg 17 = b := AvrState.reg_setReg_self _ _ (by decide)
    have second : op.second o placed.state = b := by
      cases op
      case subtractImmediate => rfl
      all_goals exact rb
    have hd : o.d.toNat < 32 := show (16 : Byte).toNat < 32 by decide
    have hr : o.r.toNat < 32 := show (17 : Byte).toNat < 32 by decide
    have ran := run_onCpu (op.run_execute first placed.state hd hr)
    obtain ⟨outs, m', rest⟩ := ih false (o.d.toNat :: held) (placed.setState _)
    have sreg : placed.state.sreg = m.state.sreg := rfl
    have chain := Chain.link sreg (fun never => never.elim) hd hr ran rest
    rw [second, show o.d.toNat = 16 from rfl, ra] at chain
    exact ⟨_, m', chain⟩

end ByteChain

end AvrEmulator
