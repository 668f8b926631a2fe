import AvrEmulator.ArithmeticFlags
import AvrEmulator.Library.ShiftChain

/-! Multi-byte integers shifted by one bit, a byte at a time. The right shifts start at the
most significant byte, the left one at the least significant byte. -/

namespace AvrEmulator

open Numeral

inductive Shift where
  | logicalRight | arithmeticRight | left
  deriving DecidableEq, Repr

namespace Shift

/-- LSR or ASR and then RORs; LSL and then ROLs, which are ADD and ADC of a register and
itself. -/
def operation : Shift → Bool → Arithmetic
  | .logicalRight, true => .LSR
  | .arithmeticRight, true => .ASR
  | .left, true => .ADD
  | .left, false => .ADC
  | _, false => .ROR

def dest (w : Word) : Nat := (w.extractLsb' 4 5).toNat

/-- A word of the chain, with its row of the opcode table. -/
structure Link (shift : Shift) (first : Bool) (w : Word) (row : Opcode) : Prop where
  found : decodeInstruction w = some row
  operation : arithmetic row.op = some (shift.operation first)
  doubled : shift = .left → (w.extractLsb' 9 1 ++ w.extractLsb' 0 4).toNat = dest w

/-- What may happen between two links. -/
structure Harmless (kept : List Nat) (m placed : Machine) : Prop where
  flags : ∀ b ∈ [SregBit.C, .T, .I], placed.state.getFlag b = m.state.getFlag b
  registers : ∀ i ∈ kept, placed.state.reg i = m.state.reg i

/-- A run of the chain over numbered registers with their bytes, with steps of `between`
before each link. -/
inductive Chain (shift : Shift) (between : Machine → Machine → Prop) : Bool → Machine →
    List (Nat × Byte) → List (Nat × Byte) → Machine → Prop
  | done (first : Bool) (m : Machine) : Chain shift between first m [] [] m
  | link {first : Bool} {m placed linked m' : Machine} {w second : Word} {row : Opcode}
      {ins outs : List (Nat × Byte)} (reached : between m placed)
      (word : shift.Link first w row)
      (ran : (executeInstruction row w second).run placed = some (true, linked))
      (rest : Chain shift between false linked ins outs m') :
      Chain shift between first m ((dest w, placed.state.reg (dest w)) :: ins)
        ((dest w, linked.state.reg (dest w)) :: outs) m'

/-- What a link makes of a byte, and the bit it hands on. -/
def shifted (shift : Shift) (first c : Bool) (d : Byte) : Byte × Bool :=
  match shift, first with
  | .arithmeticRight, true => (d.sshiftRight 1, d.getLsbD 0)
  | .left, _ => (addStep.digit d d (!first && c), addStep.carry d d (!first && c))
  | _, _ => (halve (!first && c) d, d.getLsbD 0)

theorem halve_eq (c : Bool) (d : Byte) : halve c d = BitVec.ofBool c ++ d.extractLsb' 1 7 := by
  apply BitVec.eq_of_toNat_eq
  have bound := d.isLt
  have bit := c.toNat_le
  rw [halve_toNat, BitVec.toNat_append, BitVec.extractLsb'_toNat, BitVec.toNat_ofBool,
    Nat.shiftRight_eq_div_pow, ← Nat.shiftLeft_add_eq_or_of_lt (by omega), Nat.shiftLeft_eq]
  omega

theorem halve_false (d : Byte) : halve false d = d >>> 1 := by
  apply BitVec.eq_of_toNat_eq
  rw [halve_toNat, BitVec.toNat_ushiftRight, Nat.shiftRight_eq_div_pow, Bool.toNat_false,
    Nat.mul_zero, Nat.zero_add]

/-- The register of a link, the carry it leaves and what it leaves alone. -/
structure Linked (shift : Shift) (first : Bool) (i : Nat) (s s' : AvrState) : Prop where
  byte : s'.reg i = (shift.shifted first (s.getFlag .C) (s.reg i)).1
  carry : s'.getFlag .C = (shift.shifted first (s.getFlag .C) (s.reg i)).2
  kept : ∀ b ∈ [SregBit.T, .I], s'.getFlag b = s.getFlag b
  others : ∀ j, j ≠ i → s'.reg j = s.reg j

theorem operation_isWord (shift : Shift) (first : Bool) :
    (shift.operation first).isWord = false := by
  cases shift <;> cases first <;> rfl

theorem operation_written (shift : Shift) (first : Bool) (w : Word) (s : AvrState) :
    (shift.operation first).written w s =
      [(dest w, (shift.operation first).byteResult (s.reg (dest w))
        ((shift.operation first).second w s) (s.getFlag .C))] := by
  cases shift <;> cases first <;> rfl

/-- The sum of a register with itself, and the carry equation on it. -/
theorem addStep_doubled {d r : Byte} (same : r = d) (c : Bool) :
    d + r + carryByte c = addStep.digit d d c ∧
      carryOut 7 d r (d + r + carryByte c) = addStep.carry d d c := by
  subst same
  have digit : addStep.digit r r c = r + r + carryByte c := addition_eq r r (carryByte c) true
  rw [← digit]
  exact ⟨rfl, (addition_carry r r c true).symm⟩

/-- The operation's result and carry flag are what the link shifts. -/
theorem shifted_eq {shift : Shift} {first : Bool} {w : Word} {row : Opcode}
    (word : shift.Link first w row) (s : AvrState) :
    let op := shift.operation first
    let d := s.reg (dest w)
    op.byteResult d (op.second w s) (s.getFlag .C) = (shift.shifted first (s.getFlag .C) d).1 ∧
      (op.flags Arithmetic.chains w s).get .C =
        some (shift.shifted first (s.getFlag .C) d).2 := by
  intro op d
  have same (left : shift = .left) (add : op.operand = .register) : op.second w s = d := by
    rw [Arithmetic.second, if_neg (by rw [add]; decide), word.doubled left]
  cases shift <;> cases first
  case logicalRight.true => exact ⟨(halve_false d).symm, rfl⟩
  case logicalRight.false => exact ⟨(halve_eq _ d).symm, rfl⟩
  case arithmeticRight.true => exact ⟨rfl, rfl⟩
  case arithmeticRight.false => exact ⟨(halve_eq _ d).symm, rfl⟩
  case left.true =>
    obtain ⟨digit, carry⟩ := addStep_doubled (same rfl rfl) false
    have without : d + op.second w s + carryByte false = d + op.second w s := BitVec.add_zero _
    rw [without] at digit carry
    exact ⟨digit, congrArg some carry⟩
  case left.false =>
    obtain ⟨digit, carry⟩ := addStep_doubled (same rfl rfl) (s.getFlag .C)
    exact ⟨digit, congrArg some carry⟩

theorem run_link {shift : Shift} {first : Bool} {w : Word} {row : Opcode}
    (word : shift.Link first w row) (second : Word) (m : Machine) :
    ∃ s', (executeInstruction row w second).run m = some (true, m.setState s') ∧
      shift.Linked first (dest w) m.state s' := by
  have byte := shift.operation_isWord first
  refine ⟨(shift.operation first).after w m.state, ?_, ?_⟩
  · rw [executeInstruction, (shift.operation first).dispatch_eq word.operation,
      Checked.run_bind_of (run_onCpu ((shift.operation first).run_program byte w m.state))]
    rfl
  · have contract := (shift.operation first).contract_after byte w m.state
    have written := shift.operation_written first w m.state
    obtain ⟨result, carry⟩ := shifted_eq word m.state
    refine ⟨?_, ?_, ?_, ?_⟩
    · rw [← result]
      exact contract.results _ (by rw [written]; exact List.mem_singleton_self _)
    · rw [contract.flags, carry, Option.getD_some]
    · intro b hb
      rw [contract.flags]
      simp only [List.mem_cons, List.not_mem_nil, or_false] at hb
      rcases hb with rfl | rfl <;> rfl
    · intro j hj
      exact contract.others j (by rw [written]; simpa using hj)

/-- Bytes and last carry along a chain. -/
def shiftedAll (shift : Shift) : Bool → Bool → List Byte → List Byte × Bool
  | _, c, [] => ([], c)
  | first, c, d :: ds =>
    let here := shift.shifted first c d
    let rest := shift.shiftedAll false here.2 ds
    (here.1 :: rest.1, rest.2)

theorem shiftedAll_halves {shift : Shift} (right : shift ≠ .left) (c : Bool) (ds : List Byte) :
    shift.shiftedAll false c ds = (halves c ds, lastBit c ds) := by
  have halving (c : Bool) (d : Byte) : shift.shifted false c d = (halve c d, d.getLsbD 0) := by
    cases shift with
    | left => exact absurd rfl right
    | logicalRight => rfl
    | arithmeticRight => rfl
  induction ds generalizing c with
  | nil => rfl
  | cons d ds ih => rw [shiftedAll, halving, ih, halves, lastBit]

theorem shiftedAll_logicalRight (c : Bool) (ds : List Byte) (some_byte : ds ≠ []) :
    logicalRight.shiftedAll true c ds = (halves false ds, lastBit false ds) := by
  cases ds with
  | nil => exact absurd rfl some_byte
  | cons d ds =>
    rw [shiftedAll, shiftedAll_halves (by decide)]
    rfl

theorem shiftedAll_arithmeticRight (c : Bool) (d : Byte) (ds : List Byte) :
    arithmeticRight.shiftedAll true c (d :: ds) =
      (d.sshiftRight 1 :: halves (d.getLsbD 0) ds, lastBit (d.getLsbD 0) ds) := by
  rw [shiftedAll, shiftedAll_halves (by decide)]
  rfl

theorem shiftedAll_left (first c : Bool) (ds : List Byte) (some_byte : ds ≠ []) :
    left.shiftedAll first c ds =
      (addStep.digits (!first && c) (ds.map fun d => (d, d)),
        addStep.carries (!first && c) (ds.map fun d => (d, d))) := by
  induction ds generalizing first c with
  | nil => exact absurd rfl some_byte
  | cons d ds ih =>
    by_cases last : ds = []
    · subst last
      rfl
    · rw [shiftedAll, ih _ _ last]
      rfl

variable {shift : Shift} {kept : List Nat} {between : Machine → Machine → Prop} {first : Bool}
  {m m' : Machine} {ins outs : List (Nat × Byte)}

/-- What a link's run does, given that it ran. -/
theorem linked_of_run {w second : Word} {row : Opcode} {placed linked : Machine}
    (word : shift.Link first w row)
    (ran : (executeInstruction row w second).run placed = some (true, linked)) :
    shift.Linked first (dest w) placed.state linked.state := by
  obtain ⟨s', runs, does⟩ := run_link word second placed
  rw [runs] at ran
  cases ran
  exact does

theorem Chain.shifted (h : Chain shift between first m ins outs m')
    (harmless : ∀ m placed, between m placed → Harmless kept m placed) :
    (outs.map Prod.snd, m'.state.getFlag .C) =
      shift.shiftedAll first (m.state.getFlag .C) (ins.map Prod.snd) := by
  induction h with
  | done => rfl
  | link reached word ran _ ih =>
    have here := linked_of_run word ran
    have carried := (harmless _ _ reached).flags .C (by simp)
    rw [List.map_cons, List.map_cons, shiftedAll, ← carried, ← here.carry, ← ih, ← here.byte]

theorem Chain.kept_flags (h : Chain shift between first m ins outs m')
    (harmless : ∀ m placed, between m placed → Harmless kept m placed) :
    ∀ b ∈ [SregBit.T, .I], m'.state.getFlag b = m.state.getFlag b := by
  induction h with
  | done => exact fun _ _ => rfl
  | link reached word ran _ ih =>
    intro b hb
    rw [ih b hb, (linked_of_run word ran).kept b hb,
      (harmless _ _ reached).flags b (List.mem_cons_of_mem _ hb)]

theorem Chain.registers (h : Chain shift between first m ins outs m') :
    outs.map Prod.fst = ins.map Prod.fst := by
  induction h with
  | done => rfl
  | link _ _ _ _ ih => rw [List.map_cons, List.map_cons, ih]

theorem Chain.others (h : Chain shift between first m ins outs m')
    (harmless : ∀ m placed, between m placed → Harmless kept m placed) {i : Nat} (hi : i ∈ kept)
    (apart : i ∉ ins.map Prod.fst) : m'.state.reg i = m.state.reg i := by
  induction h with
  | done => rfl
  | link reached word ran _ ih =>
    rw [List.map_cons, List.mem_cons, not_or] at apart
    rw [ih apart.2, (linked_of_run word ran).others i apart.1,
      (harmless _ _ reached).registers i hi]

/-- Distinct registers that nothing else touches hold the integer before the chain and the
shifted one after it. -/
theorem Chain.held (h : Chain shift between first m ins outs m')
    (harmless : ∀ m placed, between m placed → Harmless kept m placed)
    (distinct : (ins.map Prod.fst).Nodup) (alone : ∀ p ∈ ins, p.1 ∈ kept) :
    (∀ p ∈ ins, m.state.reg p.1 = p.2) ∧ ∀ p ∈ outs, m'.state.reg p.1 = p.2 := by
  induction h with
  | done => simp
  | link reached word ran rest ih =>
    have quiet := (harmless _ _ reached).registers
    rw [List.map_cons, List.nodup_cons] at distinct
    rw [List.forall_mem_cons] at alone
    obtain ⟨starts, ends⟩ := ih distinct.2 alone.2
    rw [List.forall_mem_cons, List.forall_mem_cons]
    refine ⟨⟨(quiet _ alone.1).symm, ?_⟩, rest.others harmless alone.1 distinct.1, ends⟩
    intro p hp
    have apart : p.1 ≠ dest _ := fun same =>
      distinct.1 (List.mem_map.mpr ⟨p, hp, same⟩)
    rw [← starts p hp, (linked_of_run word ran).others _ apart, quiet _ (alone.2 p hp)]

/-! ## The integers -/

/-- The integers are little-endian lists of bytes, and the right shifts go down from the most
significant one. -/
structure Shifts (shift : Shift) (ins outs : List (Nat × Byte)) (s s' : AvrState) : Prop where
  logicalRight : shift = .logicalRight →
    value (outs.map Prod.snd).reverse = value (ins.map Prod.snd).reverse / 2 ∧
      s'.getFlag .C = (value (ins.map Prod.snd).reverse).testBit 0
  arithmeticRight : shift = .arithmeticRight →
    signed (outs.map Prod.snd).reverse = signed (ins.map Prod.snd).reverse / 2 ∧
      s'.getFlag .C = (value (ins.map Prod.snd).reverse).testBit 0
  left : shift = .left →
    value (outs.map Prod.snd) = 2 * value (ins.map Prod.snd) % 2 ^ (8 * ins.length) ∧
      s'.getFlag .C = (value (ins.map Prod.snd)).testBit (8 * ins.length - 1)
  flags : s'.getFlag .T = s.getFlag .T ∧ s'.getFlag .I = s.getFlag .I
  registers : outs.map Prod.fst = ins.map Prod.fst

theorem Chain.shifts (h : Chain shift between true m ins outs m')
    (harmless : ∀ m placed, between m placed → Harmless kept m placed) (some_byte : ins ≠ []) :
    shift.Shifts ins outs m.state m'.state := by
  have width : 0 < 8 := by decide
  have bytes : ins.map Prod.snd ≠ [] := by simpa using some_byte
  have shifted := h.shifted harmless
  have flags := h.kept_flags harmless
  refine ⟨?_, ?_, ?_, ⟨flags .T (by simp), flags .I (by simp)⟩, h.registers⟩
  · rintro rfl
    rw [shiftedAll_logicalRight _ _ bytes, Prod.mk.injEq] at shifted
    rw [shifted.1, shifted.2]
    exact value_halves width _
  · rintro rfl
    obtain ⟨d, ds, cons⟩ := List.exists_cons_of_ne_nil bytes
    rw [cons, shiftedAll_arithmeticRight, Prod.mk.injEq] at shifted
    rw [shifted.1, shifted.2, cons]
    exact signed_halves width d ds
  · rintro rfl
    rw [shiftedAll_left _ _ _ bytes, Prod.mk.injEq] at shifted
    have length : ins.length = (ins.map Prod.snd).length := (List.length_map _).symm
    rw [shifted.1, shifted.2, length]
    exact ⟨addStep.value_doubled _ rfl, addStep.carries_doubled _ rfl width bytes⟩

/-- The words of a chain. -/
def Links (shift : Shift) : Bool → List Word → Prop
  | _, [] => True
  | first, w :: ws => (∃ row, shift.Link first w row) ∧ shift.Links false ws

/-- The words of a chain run from every state, with nothing in between. -/
theorem exists_chain {ws : List Word} (words : shift.Links first ws) (m : Machine) :
    ∃ ins outs m', Chain shift Eq first m ins outs m' ∧ ins.map Prod.fst = ws.map dest := by
  induction ws generalizing first m with
  | nil => exact ⟨[], [], m, .done first m, rfl⟩
  | cons w ws ih =>
    obtain ⟨⟨row, word⟩, words⟩ := words
    obtain ⟨s', ran, -⟩ := run_link word 0 m
    obtain ⟨ins, outs, m', rest, dests⟩ := ih words (m.setState s')
    refine ⟨_, _, m', .link rfl word ran rest, ?_⟩
    rw [List.map_cons, List.map_cons, dests]

theorem harmless_eq (kept : List Nat) (m placed : Machine) (h : m = placed) :
    Harmless kept m placed := by
  subst h
  exact ⟨fun _ _ => rfl, fun _ _ => rfl⟩

/-- On distinct registers the words of a chain work on the integer those hold. -/
theorem exists_chain_on_registers {ws : List Word} (words : shift.Links first ws)
    (distinct : (ws.map dest).Nodup) (m : Machine) :
    ∃ outs m', Chain shift Eq first m (ws.map fun w => (dest w, m.state.reg (dest w))) outs m' ∧
      ∀ p ∈ outs, m'.state.reg p.1 = p.2 := by
  obtain ⟨ins, outs, m', h, dests⟩ := exists_chain words m
  have alone : ∀ p ∈ ins, p.1 ∈ ws.map dest := by
    intro p hp
    rw [← dests]
    exact List.mem_map_of_mem hp
  obtain ⟨starts, ends⟩ := h.held (harmless_eq _) (by rwa [dests]) alone
  have bytes : ins = ws.map fun w => (dest w, m.state.reg (dest w)) := calc
    ins = ins.map fun p => (p.1, m.state.reg p.1) := by
      rw [List.map_congr_left fun p hp => by rw [starts p hp], List.map_id']
    _ = (ins.map Prod.fst).map fun i => (i, m.state.reg i) := by rw [List.map_map]; rfl
    _ = ws.map fun w => (dest w, m.state.reg (dest w)) := by rw [dests, List.map_map]; rfl
  exact ⟨outs, m', bytes ▸ h, ends⟩

/-- Run one after the other from any state, the words of a chain shift the integer in their
registers. So do they when something harmless happens in between, as the loading and storing
of an integer that is longer than the registers. -/
theorem shift_chain_shifts {ws : List Word} (words : shift.Links true ws) (some_word : ws ≠ [])
    (distinct : (ws.map dest).Nodup) (m : Machine) :
    (∃ outs m', Chain shift Eq true m (ws.map fun w => (dest w, m.state.reg (dest w))) outs m' ∧
      shift.Shifts (ws.map fun w => (dest w, m.state.reg (dest w))) outs m.state m'.state ∧
      ∀ p ∈ outs, m'.state.reg p.1 = p.2) ∧
    ∀ kept between ins outs m', (∀ m placed, between m placed → Harmless kept m placed) →
      Chain shift between true m ins outs m' → ins ≠ [] →
        shift.Shifts ins outs m.state m'.state := by
  obtain ⟨outs, m', h, ends⟩ := exists_chain_on_registers words distinct m
  refine ⟨⟨outs, m', h, h.shifts (harmless_eq []) (by simpa using some_word), ends⟩, ?_⟩
  intro kept between ins outs m' harmless h
  exact h.shifts harmless

/-- ASR R17; ROR R16 on the most negative odd number of two bytes. -/
theorem asr_ror_shifts : ∃ outs m',
    Chain .arithmeticRight Eq true (.initial ((AvrState.zero.setReg 17 0x80).setReg 16 0x01))
      [(17, 0x80), (16, 0x01)] outs m' ∧
    signed (outs.map Prod.snd).reverse = -16384 ∧ m'.state.getFlag .C = true := by
  have words : arithmeticRight.Links true [0x9515, 0x9507] :=
    ⟨⟨⟨0xFE0F, 0x9405, .ASR, .Rd_only, 1, 1, "ASR"⟩, by decide +kernel, rfl, by decide⟩,
      ⟨⟨0xFE0F, 0x9407, .ROR, .Rd_only, 1, 1, "ROR"⟩, by decide +kernel, rfl, by decide⟩, trivial⟩
  obtain ⟨⟨outs, m', h, shifts, -⟩, -⟩ := shift_chain_shifts words (by decide) (by decide)
    (.initial ((AvrState.zero.setReg 17 0x80).setReg 16 0x01))
  obtain ⟨result, carry⟩ := shifts.arithmeticRight rfl
  exact ⟨outs, m', h, result, carry⟩

end Shift

end AvrEmulator
