import AvrEmulator.Routine

/-! The counted delay loops of the C library: how long they take to the cycle. -/

namespace AvrEmulator

open Transition

/-- DEC on a register or SBIW on a pair, and BRNE back to it. -/
inductive DelayLoop where
  | byte (d : Fin 32)
  | pair (p : Fin 4)

namespace DelayLoop

def word : DelayLoop → Word
  | byte d => 0x940A ||| (BitVec.ofNat 16 d.val <<< 4)
  | pair p => 0x9701 ||| (BitVec.ofNat 16 p.val <<< 4)

def code (l : DelayLoop) : List Word := [l.word, 0xF7F1]

def row : DelayLoop → Opcode
  | byte _ => ⟨0xFE0F, 0x940A, .DEC, .Rd_only, 1, 1, "DEC"⟩
  | pair _ => ⟨0xFF00, 0x9700, .SBIW, .Rd06_K6, 1, 2, "SBIW"⟩

def op : DelayLoop → Arithmetic
  | byte _ => .DEC
  | pair _ => .SBIW

/-- The counter's registers. -/
def registers : DelayLoop → List Nat
  | byte d => [d.val]
  | pair p => [24 + 2 * p.val, 24 + 2 * p.val + 1]

def size : DelayLoop → Nat
  | byte _ => 256
  | pair _ => 65536

def count (l : DelayLoop) (s : AvrState) : Nat :=
  match l with
  | byte d => (s.reg d.val).toNat
  | pair p => (s.pointer (24 + 2 * p.val)).toNat

/-- A counter of zero goes all the way round. -/
def rounds (l : DelayLoop) (s : AvrState) : Nat := if l.count s = 0 then l.size else l.count s

/-- The cycles of a round with its branch taken. -/
def period (l : DelayLoop) : Nat := l.row.cyclesMin.toNat + 2

theorem count_lt (l : DelayLoop) (s : AvrState) : l.count s < l.size := by
  cases l with
  | byte d => exact (s.reg d.val).isLt
  | pair p => exact (s.pointer (24 + 2 * p.val)).isLt

theorem rounds_spec (l : DelayLoop) (s : AvrState) :
    0 < l.rounds s ∧ l.rounds s ≤ l.size ∧ l.count s = l.rounds s % l.size := by
  have below := l.count_lt s
  unfold rounds
  split
  next zero =>
    rw [zero, Nat.mod_self]
    exact ⟨by omega, Nat.le_refl _, rfl⟩
  next some =>
    rw [Nat.mod_eq_of_lt below]
    exact ⟨by omega, by omega, rfl⟩

theorem found (l : DelayLoop) : decodeInstruction l.word = some l.row := by
  have byte : ∀ d : Fin 32, decodeInstruction (word (.byte d)) = some (row (.byte d)) := by
    decide +kernel
  have pair : ∀ p : Fin 4, decodeInstruction (word (.pair p)) = some (row (.pair p)) := by
    decide +kernel
  cases l with
  | byte d => exact byte d
  | pair p => exact pair p

theorem short (l : DelayLoop) : l.row.words ≠ 2 := by
  cases l <;> simp [row]

theorem count_congr (l : DelayLoop) {s s' : AvrState} (same : s'.r = s.r) :
    l.count s' = l.count s := by
  cases l <;> simp only [count, AvrState.pointer, AvrState.reg, same]

theorem step_down (l : DelayLoop) (k : Nat) :
    ((k + 1) % l.size + (l.size - 1)) % l.size = k % l.size := by
  cases l <;> simp only [size] <;> omega

/-- What the loop leaves alone. -/
structure Kept (l : DelayLoop) (s s' : AvrState) : Prop where
  rest : Spares l.registers s s'
  sram : s'.sram = s.sram

theorem Kept.refl (l : DelayLoop) (s : AvrState) : l.Kept s s := ⟨.refl s, rfl⟩

theorem Kept.trans {l : DelayLoop} {a b c : AvrState} (first : l.Kept a b) (rest : l.Kept b c) :
    l.Kept a c :=
  ⟨first.rest.trans rest.rest, rest.sram.trans first.sram⟩

theorem Kept.around {l : DelayLoop} {a b : AvrState} {cycles : Nat} (h : l.Kept a.begun b) :
    l.Kept a (b.charged cycles) :=
  ⟨h.rest.around, h.sram⟩

/-- One step down, with Z set where it ends at zero. -/
structure Counted (l : DelayLoop) (s s' : AvrState) : Prop where
  kept : l.Kept s s'
  count : l.count s' = (l.count s + (l.size - 1)) % l.size
  zero : s'.getFlag .Z = true ↔ l.count s' = 0
  pc : s'.pc = s.pc
  cycleCount : s'.cycleCount = s.cycleCount
  extraCycles : s'.extraCycles = s.extraCycles

theorem Counted.of_contract {l : DelayLoop} {s s' : AvrState}
    (contract : ArithmeticContract l.op [.ADC, .SBC, .SBCI, .CPC] l.word s s')
    (same : (l.op.written l.word s).map Prod.fst = l.registers)
    (count : l.count s' = (l.count s + (l.size - 1)) % l.size)
    (zero : s'.getFlag .Z = true ↔ l.count s' = 0) : l.Counted s s' := by
  have frame := contract.frame
  refine ⟨⟨.of_contract contract ?_, ?_⟩, count, zero, ?_, ?_, ?_⟩
  · rw [same]
    exact fun _ member => member
  all_goals rw [frame]

theorem byte_counted (d : Fin 32) (s : AvrState) :
    ∃ s', ViewEffect Machine.state (dispatch (row (.byte d)) (word (.byte d)) 0) s s' ∧
      Counted (.byte d) s s' := by
  have dest : Arithmetic.dest .DEC (word (.byte d)) = d.val := by
    revert d
    decide
  obtain ⟨s', effect, contract⟩ := arithmetic_effect (row (.byte d)) rfl (word (.byte d)) s
  have result : s'.reg d.val = s.reg d.val - 1 := by
    have written := contract.results (Arithmetic.dest .DEC (word (.byte d)), _) (.head _)
    rw [dest] at written
    exact written
  have zero : s'.getFlag .Z = true ↔ s'.reg d.val = 0 := by
    rw [contract.flags .Z, result, ← dest]
    exact decide_eq_true_iff
  refine ⟨s', effect, .of_contract contract (congrArg (fun i => [i]) dest) ?_ ?_⟩
  · change (s'.reg d.val).toNat = _
    rw [result, BitVec.toNat_sub, Nat.add_comm]
    rfl
  · rw [zero, ← BitVec.toNat_inj]
    rfl

theorem pair_counted (p : Fin 4) (s : AvrState) :
    ∃ s', ViewEffect Machine.state (dispatch (row (.pair p)) (word (.pair p)) 0) s s' ∧
      Counted (.pair p) s s' := by
  have operands : Arithmetic.dest .SBIW (word (.pair p)) = 24 + 2 * p.val ∧
      Arithmetic.wordConstant (word (.pair p)) = 1 := by
    revert p
    decide
  obtain ⟨s', effect, contract⟩ := arithmetic_effect (row (.pair p)) rfl (word (.pair p)) s
  have dest := operands.1
  have written : Arithmetic.written .SBIW (word (.pair p)) s =
      [(24 + 2 * p.val, (s.pointer (24 + 2 * p.val) - 1).extractLsb' 0 8),
        (24 + 2 * p.val + 1, (s.pointer (24 + 2 * p.val) - 1).extractLsb' 8 8)] := by
    rw [← dest, ← operands.2]
    rfl
  have results := contract.results
  rw [written, List.forall_mem_cons, List.forall_mem_singleton] at results
  obtain ⟨low, high⟩ := results
  have result : s'.pointer (24 + 2 * p.val) = s.pointer (24 + 2 * p.val) - 1 := by
    rw [AvrState.pointer, low, high]
    exact (BitVec.extractLsb'_append_extractLsb'_eq_extractLsb' (by decide)).trans
      BitVec.extractLsb'_eq_self
  have zero : s'.getFlag .Z = true ↔ s'.pointer (24 + 2 * p.val) = 0 := by
    rw [contract.flags .Z, result, ← dest, ← operands.2]
    exact decide_eq_true_iff
  refine ⟨s', effect, .of_contract contract ?_ ?_ ?_⟩
  · rw [show op (.pair p) = .SBIW from rfl, written]
    rfl
  · change (s'.pointer (24 + 2 * p.val)).toNat = _
    rw [result, BitVec.toNat_sub, Nat.add_comm]
    rfl
  · rw [zero, ← BitVec.toNat_inj]
    rfl

theorem counted (l : DelayLoop) (s : AvrState) :
    ∃ s', ViewEffect Machine.state (dispatch l.row l.word 0) s s' ∧ l.Counted s s' := by
  cases l with
  | byte d => exact byte_counted d s
  | pair p => exact pair_counted p s

/-- At the head of the loop with `k` rounds left, or behind it. The last branch is not
taken and saves a cycle. -/
structure Head (l : DelayLoop) (s₀ : AvrState) (k : Nat) (s : AvrState) : Prop where
  kept : l.Kept s₀ s
  most : k ≤ l.rounds s₀
  count : l.count s = k % l.size
  pc : s.pc = if k = 0 then s₀.pc + 4 else s₀.pc
  clock : s₀.ClockAt s (l.period * (l.rounds s₀ - k) - if k = 0 then 1 else 0)

/-- At the branch, with `k` rounds left after it. -/
structure Branch (l : DelayLoop) (s₀ : AvrState) (k : Nat) (s : AvrState) : Prop where
  kept : l.Kept s₀ s
  most : k < l.rounds s₀
  count : l.count s = k % l.size
  zero : s.getFlag .Z = true ↔ k = 0
  pc : s.pc = s₀.pc + 2
  clock : s₀.ClockAt s (l.period * (l.rounds s₀ - (k + 1)) + l.row.cyclesMin.toNat)

section Round

variable {l : DelayLoop} {s₀ : AvrState}

theorem start_head (l : DelayLoop) (s₀ : AvrState) : l.Head s₀ (l.rounds s₀) s₀ := by
  obtain ⟨pos, -, count⟩ := l.rounds_spec s₀
  refine ⟨.refl l s₀, Nat.le_refl _, count, ?_, ?_⟩
  · rw [if_neg (by omega)]
  · rw [AvrState.ClockAt, Nat.sub_self, Nat.mul_zero, Nat.zero_sub]
    exact (BitVec.add_zero _).symm

variable (masked : s₀.getFlag .I = false) (code : s₀.CodeAt s₀.pc l.code)
include masked code

theorem count_down (k : Nat) : Leads Executes 1 (l.Head s₀ (k + 1)) (l.Branch s₀ k) := by
  apply Leads.step
  intro s head
  obtain ⟨s', effect, down⟩ := l.counted s.begun
  have pc : s.pc = s₀.pc := head.pc
  have executes : Executes s (s'.charged l.row.cyclesMin.toNat) := by
    refine executes_at (i := 0) ?_ (code.same head.kept.rest.flash) rfl ?_ l.found l.short effect
    · rw [head.kept.rest.flags .I (by simp)]
      exact masked
    · rw [pc]
      exact (BitVec.add_zero _).symm
  obtain ⟨-, bound, -⟩ := l.rounds_spec s₀
  have most := head.most
  have count : l.count s' = k % l.size := by
    rw [down.count, l.count_congr (show s.begun.r = s.r from rfl), head.count, l.step_down]
  have clock : s'.cycleCount = s.cycleCount := down.cycleCount
  have extra : s'.extraCycles = 0 := down.extraCycles
  refine ⟨_, executes, ?_, most, ?_, ?_, ?_, ?_⟩
  · exact head.kept.trans down.kept.around
  · exact (l.count_congr rfl).trans count
  · refine down.zero.trans ?_
    rw [count, Nat.mod_eq_of_lt (by omega)]
  · exact down.pc.trans (congrArg (· + 2) pc)
  · have before := head.clock
    rw [if_neg (Nat.succ_ne_zero k), Nat.sub_zero, AvrState.ClockAt] at before
    change s'.cycleCount + BitVec.ofNat 64 (l.row.cyclesMin.toNat + s'.extraCycles.toNat) = _
    rw [clock, extra, before, BitVec.add_assoc, ← BitVec.ofNat_add]
    rfl

theorem branch_back (k : Nat) : Leads Executes 1 (l.Branch s₀ k) (l.Head s₀ k) := by
  apply Leads.step
  intro s branch
  have pc : s.pc = s₀.pc + 2 := branch.pc
  have off : s.getFlag .I = false := by
    rw [branch.kept.rest.flags .I (by simp)]
    exact masked
  have executes := executes_brne (i := 1) off (code.same branch.kept.rest.flash) rfl pc
    (by decide +kernel) (by decide)
  refine ⟨_, executes, ?_⟩
  have most := branch.most
  have before : s.cycleCount = _ := branch.clock
  have left : l.rounds s₀ - k = (l.rounds s₀ - (k + 1)) + 1 := by omega
  by_cases last : k = 0
  · rw [if_pos (branch.zero.mpr last)]
    refine ⟨?_, by omega, ?_, ?_, ?_⟩
    · exact branch.kept.trans (Kept.refl l s.begun).around
    · exact (l.count_congr rfl).trans branch.count
    · rw [if_pos last]
      change s.pc + 2 = _
      rw [pc, BitVec.add_assoc]
      rfl
    · have time : l.period * (l.rounds s₀ - k) - 1 =
          l.period * (l.rounds s₀ - (k + 1)) + l.row.cyclesMin.toNat + 1 := by
        rw [left, Nat.mul_succ]
        simp only [period]
        omega
      change s.cycleCount + BitVec.ofNat 64 1 = _
      rw [before, if_pos last, time, BitVec.add_assoc, ← BitVec.ofNat_add]
  · rw [if_neg (fun zero => last (branch.zero.mp zero))]
    refine ⟨?_, by omega, ?_, ?_, ?_⟩
    · exact branch.kept.trans (Kept.around ⟨.same rfl rfl rfl rfl rfl, rfl⟩)
    · exact (l.count_congr (branch_registers s _)).trans branch.count
    · rw [if_neg last]
      change s.pc + 2 + BitVec.signExtend 16 (decodeK7 0xF7F1).k * 2 = _
      rw [pc, show BitVec.signExtend 16 (decodeK7 0xF7F1).k * 2 = (-4 : Word) by decide]
      bv_omega
    · have time : l.period * (l.rounds s₀ - k) =
          l.period * (l.rounds s₀ - (k + 1)) + l.row.cyclesMin.toNat + 2 := by
        rw [left, Nat.mul_succ]
        simp only [period]
        omega
      rw [AvrState.ClockAt, branch_charged, before, if_neg last, Nat.sub_zero, time,
        BitVec.add_assoc, ← BitVec.ofNat_add]

/-- So many rounds of the loop. -/
theorem rounds_lead (rounds left : Nat) :
    Leads Executes (2 * rounds) (l.Head s₀ (left + rounds)) (l.Head s₀ left) :=
  Leads.loop (fun k => (count_down masked code k).seq (branch_back masked code k)) rounds left

/-- Before the last branch the loop is not left. -/
theorem inside {n : Nat} {s : AvrState} (early : n < 2 * l.rounds s₀)
    (steps : Steps Executes n s₀ s) : s.pc = s₀.pc ∨ s.pc = s₀.pc + 2 := by
  have start := l.start_head s₀
  obtain ⟨left, split⟩ : ∃ left, l.rounds s₀ = left + 1 + n / 2 :=
    ⟨l.rounds s₀ - 1 - n / 2, by omega⟩
  obtain ⟨head, first, at_head⟩ := rounds_lead masked code (n / 2) (left + 1) s₀ (split ▸ start)
  rcases Nat.mod_two_eq_zero_or_one n with even | odd
  · have same : n = 2 * (n / 2) := by omega
    rw [same] at steps
    rw [steps.unique executes_functional first, at_head.pc, if_neg (Nat.succ_ne_zero left)]
    exact .inl rfl
  · obtain ⟨branch, second, at_branch⟩ := count_down masked code left head at_head
    have same : n = 2 * (n / 2) + 1 := by omega
    rw [same] at steps
    rw [steps.unique executes_functional (first.trans second)]
    exact .inr at_branch.pc

/-- The loop ends. -/
theorem ends : ∃ s, Steps Executes (2 * l.rounds s₀) s₀ s ∧ l.Head s₀ 0 s := by
  have start := l.start_head s₀
  apply rounds_lead masked code (l.rounds s₀) 0
  rw [Nat.zero_add]
  exact start

end Round

/-! ## In the program -/

/-- The loop is done: the counter is at zero, and beside it only the clock, the program
counter and the flags of the last count have moved. -/
structure Over (l : DelayLoop) (s s' : AvrState) : Prop where
  pc : s'.pc = s.pc + 4
  clock : s.ClockAt s' (l.period * l.rounds s - 1)
  count : l.count s' = 0
  kept : l.Kept s s'

theorem Head.done {l : DelayLoop} {s s' : AvrState} (head : l.Head s 0 s') : l.Over s s' where
  pc := head.pc
  clock := head.clock
  count := head.count.trans (Nat.zero_mod _)
  kept := head.kept

end DelayLoop

/-- With interrupts off, whatever the host does meanwhile: the program stays in the loop for
two instructions a round, so many cycles a round less one, and comes out behind it. -/
theorem delay_loop_is_exact (l : DelayLoop) {p : Program} (masked : p.cpu.getFlag .I = false)
    (code : p.cpu.CodeAt p.cpu.pc l.code) :
    p.Passes (2 * l.rounds p.cpu) (fun s => s.pc = p.cpu.pc ∨ s.pc = p.cpu.pc + 2)
      (l.Over p.cpu) := by
  obtain ⟨s, steps, head⟩ := DelayLoop.ends masked code
  apply Program.passes steps head.done
  intro k s early steps
  exact DelayLoop.inside masked code early steps

/-- SBIW R24, 1 and BRNE, with three in the pair. -/
def waiting : Program :=
  .start (.initial ((Program.firmware [0x9701, 0xF7F1]).setReg 24 3)) true none

/-- Eleven cycles. -/
theorem waiting_ends : ∃ trace u, Run Program.step anything waiting trace u ∧
    executions trace = 6 ∧ u.cpu.pc = 4 ∧ u.cpu.cycleCount = 11 := by
  have code : waiting.cpu.CodeAt waiting.cpu.pc (DelayLoop.code (.pair 0)) := by decide +kernel
  have passes := delay_loop_is_exact (.pair 0) (by decide +kernel) code
  obtain ⟨trace, u, run, -, total, done⟩ := passes.ends rfl
  have rounds : DelayLoop.rounds (.pair 0) waiting.cpu = 3 := by decide +kernel
  have clock := done.clock
  rw [rounds] at total clock
  exact ⟨trace, u, run, total, done.pc, clock⟩

end AvrEmulator
