import AvrEmulator.Startup

/-! The two loops in front of `main`, over every region of SRAM. -/

namespace AvrEmulator

open Transition StackSpec

/-- A region of SRAM, up to but not including `stop`. -/
structure Region where
  start : Word
  stop : Word
  low : 0x0100 ≤ start
  ordered : start ≤ stop
  high : stop ≤ 0x0900

namespace Region

def length (r : Region) : Nat := r.stop.toNat - r.start.toNat

def cell (r : Region) (n : Nat) : Word := r.start + BitVec.ofNat 16 n

def Holds (r : Region) (i : Nat) : Prop := r.start.toNat ≤ i ∧ i < r.stop.toNat

instance (r : Region) (i : Nat) : Decidable (r.Holds i) := by
  unfold Holds
  infer_instance

theorem cell_toNat (r : Region) {n : Nat} (inside : n ≤ r.length) :
    (r.cell n).toNat = r.start.toNat + n := by
  have ordered : r.start.toNat ≤ r.stop.toNat := BitVec.le_def.mp r.ordered
  have high : r.stop.toNat ≤ 0x0900 := BitVec.le_def.mp r.high
  unfold length at inside
  rw [cell, BitVec.toNat_add, BitVec.toNat_ofNat]
  omega

theorem cell_inside (r : Region) {n : Nat} (inside : n < r.length) :
    0x0100 ≤ r.cell n ∧ r.cell n ≤ 0x08FF := by
  have low : 0x0100 ≤ r.start.toNat := BitVec.le_def.mp r.low
  have ordered : r.start.toNat ≤ r.stop.toNat := BitVec.le_def.mp r.ordered
  have high : r.stop.toNat ≤ 0x0900 := BitVec.le_def.mp r.high
  have address := r.cell_toNat (Nat.le_of_lt inside)
  unfold length at inside
  constructor
  · apply BitVec.le_def.mpr
    change 0x0100 ≤ (r.cell n).toNat
    omega
  · apply BitVec.le_def.mpr
    change (r.cell n).toNat ≤ 0x08FF
    omega

theorem cell_stop (r : Region) {n : Nat} (inside : n ≤ r.length) :
    r.cell n = r.stop ↔ n = r.length := by
  have ordered : r.start.toNat ≤ r.stop.toNat := BitVec.le_def.mp r.ordered
  rw [← BitVec.toNat_inj, r.cell_toNat inside]
  unfold length at *
  omega

theorem cell_succ (r : Region) (n : Nat) : r.cell (n + 1) = r.cell n + 1 := by
  rw [cell, BitVec.ofNat_add, ← BitVec.add_assoc]
  rfl

end Region

/-- The first cells of a region after bytes were stored there. Where Timer0 answers, SRAM
is not reached. -/
structure Filled (r : Region) (value : Nat → Byte) (n : Nat) (s s' : AvrState) : Prop where
  inside : ∀ j < n, s'.sram.peek (r.start.toNat + j) =
    if Shadowed (r.cell j) then s.sram.peek (r.start.toNat + j) else value j
  outside : ∀ i, i < r.start.toNat ∨ r.start.toNat + n ≤ i → s'.sram.peek i = s.sram.peek i

namespace Filled

variable {r : Region} {value : Nat → Byte} {n : Nat} {s t u : AvrState}

theorem none (r : Region) (value : Nat → Byte) (s : AvrState) : Filled r value 0 s s :=
  ⟨fun j below => absurd below (Nat.not_lt_zero j), fun _ _ => rfl⟩

theorem same (h : Filled r value n s t) (sram : u.sram = t.sram) : Filled r value n s u := by
  constructor
  · rw [sram]
    exact h.inside
  · rw [sram]
    exact h.outside

theorem store (h : Filled r value n s t) (room : n < r.length)
    (stored : u.sram = (t.stored (r.cell n) (value n)).sram) : Filled r value (n + 1) s u := by
  have address := r.cell_toNat (Nat.le_of_lt room)
  have bound : r.start.toNat + n < avrSramSize := by
    have high : r.stop.toNat ≤ 0x0900 := BitVec.le_def.mp r.high
    unfold Region.length at room
    change _ < 2304
    omega
  by_cases shadowed : Shadowed (r.cell n)
  · rw [AvrState.stored, if_pos shadowed] at stored
    constructor
    · intro j below
      rw [stored]
      rcases Nat.lt_succ_iff_lt_or_eq.mp below with old | rfl
      · exact h.inside j old
      · rw [if_pos shadowed]
        exact h.outside _ (.inr (Nat.le_refl _))
    · intro i beyond
      rw [stored]
      exact h.outside i (by omega)
  · rw [AvrState.stored, if_neg shadowed, address] at stored
    constructor
    · intro j below
      rw [stored]
      rcases Nat.lt_succ_iff_lt_or_eq.mp below with old | rfl
      · rw [Cells.peek_poke_of_ne _ _ (by omega)]
        exact h.inside j old
      · rw [Cells.peek_poke_self _ _ bound, if_neg shadowed]
    · intro i beyond
      rw [stored, Cells.peek_poke_of_ne _ _ (by omega)]
      exact h.outside i (by omega)

/-- SRAM once the whole region was stored. -/
theorem peek (h : Filled r value r.length s t) (i : Nat) :
    t.sram.peek i = if r.Holds i ∧ ¬ Shadowed (BitVec.ofNat 16 i) then value (i - r.start.toNat)
      else s.sram.peek i := by
  by_cases held : r.Holds i
  · obtain ⟨low, high⟩ := held
    have below : i - r.start.toNat < r.length := by
      unfold Region.length
      omega
    have cell : r.cell (i - r.start.toNat) = BitVec.ofNat 16 i := by
      have bound : r.stop.toNat ≤ 0x0900 := BitVec.le_def.mp r.high
      rw [← BitVec.toNat_inj, r.cell_toNat (Nat.le_of_lt below), BitVec.toNat_ofNat]
      omega
    have same : r.start.toNat + (i - r.start.toNat) = i := by omega
    have stored := h.inside _ below
    rw [same, cell] at stored
    rw [stored]
    by_cases shadowed : Shadowed (BitVec.ofNat 16 i)
    · rw [if_pos shadowed, if_neg fun both => both.2 shadowed]
    · rw [if_neg shadowed, if_pos ⟨⟨low, high⟩, shadowed⟩]
  · rw [if_neg fun both => held both.1]
    apply h.outside
    unfold Region.Holds at held
    unfold Region.length
    have ordered : r.start.toNat ≤ r.stop.toNat := BitVec.le_def.mp r.ordered
    omega

end Filled

/-- What one round of a sweep does before its test. -/
structure Round (r : Region) (value : Nat → Byte) (registers : List Nat) (test : Word)
    (cycles n : Nat) (s s' : AvrState) : Prop where
  rest : Spares registers s s'
  pointer : s'.pointer 26 = r.cell (n + 1)
  sram : s'.sram = (s.stored (r.cell n) (value n)).sram
  pc : s'.pc = test
  clock : s.ClockAt s' cycles

/-- A loop that stores a byte through X in each round, and then goes back unless X is at the
end of the region. -/
structure Sweep where
  region : Region
  value : Nat → Byte
  base : Word
  code : List Word
  /-- Where in the code a round begins, and where its test does. -/
  back : Nat
  test : Nat
  /-- The register with the high byte of the end. -/
  high : Fin 32
  branch : Word
  /-- The instructions and cycles of a round before its test. -/
  steps : Nat
  cycles : Nat
  registers : List Nat
  ready : Nat → AvrState → Prop
  compare : code[test]? = some (cpi (26, lowByte region.stop))
  carry : code[test + 1]? = some (cpcHigh high)
  loop : code[test + 2]? = some branch
  decoded : decodeInstruction branch = some brbc
  flag : branch.extractLsb' 0 3 = 1
  target : base + BitVec.ofNat 16 (2 * (test + 2)) + 2 + (decodeK7 branch).k.signExtend 16 * 2 =
    base + BitVec.ofNat 16 (2 * back)
  free : high.val ∉ registers
  kept : ∀ n s s', ready n s → Spares [] s s' → ready n s'
  body : ∀ n s, n < region.length → s.getFlag .I = false → s.CodeAt base code →
    s.pc = base + BitVec.ofNat 16 (2 * back) → s.pointer 26 = region.cell n → ready n s →
    ∃ s', Steps Executes steps s s' ∧
      Round region value registers (base + BitVec.ofNat 16 (2 * test)) cycles n s s' ∧
      ready (n + 1) s'

namespace Sweep

/-- At the test with `k` cells left. -/
structure AtTest (w : Sweep) (s₀ : AvrState) (k : Nat) (s : AvrState) : Prop where
  most : k ≤ w.region.length
  rest : Spares w.registers s₀ s
  pointer : s.pointer 26 = w.region.cell (w.region.length - k)
  filled : Filled w.region w.value (w.region.length - k) s₀ s
  ready : w.ready (w.region.length - k) s
  pc : s.pc = w.base + BitVec.ofNat 16 (2 * w.test)
  clock : s₀.ClockAt s ((w.cycles + 4) * (w.region.length - k))

/-- The region is stored, and the code behind the loop is next. -/
structure Done (w : Sweep) (s s' : AvrState) : Prop where
  rest : Spares w.registers s s'
  filled : Filled w.region w.value w.region.length s s'
  pc : s'.pc = w.base + BitVec.ofNat 16 (2 * (w.test + 3))
  clock : s.ClockAt s' ((w.cycles + 4) * w.region.length + 3)

section Loop

variable {w : Sweep} {s₀ : AvrState} (masked : s₀.getFlag .I = false)
  (code : s₀.CodeAt w.base w.code) (upper : s₀.reg w.high.val = highByte w.region.stop)
include masked code upper

/-- The comparison in front of the branch. -/
theorem tests {k : Nat} {s : AvrState} (here : w.AtTest s₀ k s) :
    ∃ t, Steps Executes 2 s t ∧ Spares [] s t ∧ t.sram = s.sram ∧
      t.pc = w.base + BitVec.ofNat 16 (2 * (w.test + 2)) ∧ s.ClockAt t 2 ∧
      (t.getFlag .Z = true ↔ k = 0) := by
  have off : s.getFlag .I = false := (here.rest.flags .I (by simp)).trans masked
  have high : s.reg w.high.val = highByte w.region.stop :=
    (here.rest.reg _ w.free).trans upper
  obtain ⟨t, steps, compared⟩ := compares_pointer off (code.same here.rest.flash) w.compare w.carry
    here.pc high
  refine ⟨t, steps, compared.rest, compared.sram, ?_, compared.clock, ?_⟩
  · rw [compared.pc, here.pc, Nat.mul_add 2 w.test 2, BitVec.ofNat_add, ← BitVec.add_assoc]
    rfl
  · have most := here.most
    rw [compared.zero, here.pointer, w.region.cell_stop (Nat.sub_le _ _)]
    omega

/-- The branch is taken while cells are left. -/
theorem round (k : Nat) :
    Leads Executes (3 + w.steps) (w.AtTest s₀ (k + 1)) (w.AtTest s₀ k) := by
  intro s here
  obtain ⟨t, compare, rest, sram, pc, clock, zero⟩ := tests masked code upper here
  have flash : t.flash = s₀.flash := rest.flash.trans here.rest.flash
  have off : t.getFlag .I = false :=
    (rest.flags .I (by simp)).trans ((here.rest.flags .I (by simp)).trans masked)
  have branch := executes_brne off (code.same flash) w.loop pc w.decoded w.flag
  rw [if_neg fun set => Nat.succ_ne_zero k (zero.mp set)] at branch
  obtain ⟨rest', sram', pc'⟩ := branch_spares t (decodeK7 w.branch).k
  have clock' : t.ClockAt _ 2 := branch_charged t (decodeK7 w.branch).k
  generalize (t.begun.branch (decodeK7 w.branch).k).charged 1 = u at branch rest' sram' pc' clock'
  have both := rest.trans rest'
  have most := here.most
  have room : w.region.length - (k + 1) < w.region.length := by omega
  have next : w.region.length - (k + 1) + 1 = w.region.length - k := by omega
  have pointer := both.pointer (i := 26) (by simp) (by simp)
  have masked' : u.getFlag .I = false := (rest'.flags .I (by simp)).trans off
  have start : u.pc = w.base + BitVec.ofNat 16 (2 * w.back) := by
    rw [pc', pc]
    exact w.target
  obtain ⟨v, body, done, ready⟩ := w.body _ u room masked' (code.same (rest'.flash.trans flash))
    start (pointer.trans here.pointer) (w.kept _ _ _ here.ready both)
  rw [next] at ready
  refine ⟨v, (compare.trans (.some branch (.none u))).trans body, by omega, ?_, ?_, ?_, ready,
    done.pc, ?_⟩
  · exact here.rest.trans ((both.weaken (by simp)).trans done.rest)
  · rw [done.pointer, next]
  · rw [← next]
    exact (here.filled.same (sram'.trans sram)).store room done.sram
  · have total := here.clock.trans (clock.trans (clock'.trans done.clock))
    have sum : 2 + (2 + w.cycles) = w.cycles + 4 := by omega
    rw [sum] at total
    rw [← next, Nat.mul_succ]
    exact total

/-- Once the region is stored the branch is not taken. -/
theorem leave : Leads Executes 3 (w.AtTest s₀ 0) (w.Done s₀) := by
  intro s here
  obtain ⟨t, compare, rest, sram, pc, clock, zero⟩ := tests masked code upper here
  have flash : t.flash = s₀.flash := rest.flash.trans here.rest.flash
  have off : t.getFlag .I = false :=
    (rest.flags .I (by simp)).trans ((here.rest.flags .I (by simp)).trans masked)
  have branch := executes_brne off (code.same flash) w.loop pc w.decoded w.flag
  rw [if_pos (zero.mpr rfl)] at branch
  refine ⟨_, compare.trans (.some branch (.none _)), ?_, ?_, ?_, ?_⟩
  · exact here.rest.trans ((rest.trans (Spares.refl t.begun).around).weaken (by simp))
  · exact here.filled.same sram
  · change t.pc + 2 = _
    rw [pc, Nat.mul_succ 2 (w.test + 2), BitVec.ofNat_add, ← BitVec.add_assoc]
    rfl
  · have last : t.ClockAt (t.begun.charged 1) 1 := rfl
    exact here.clock.trans (clock.trans last)

/-- From its test with X at the start, a sweep stores the whole region. -/
theorem sweeps (pointer : s₀.pointer 26 = w.region.start) (ready : w.ready 0 s₀)
    (pc : s₀.pc = w.base + BitVec.ofNat 16 (2 * w.test)) :
    ∃ s, Steps Executes ((3 + w.steps) * w.region.length + 3) s₀ s ∧ w.Done s₀ s := by
  have rounds := Leads.loop (round masked code upper) w.region.length 0
  rw [Nat.zero_add] at rounds
  apply rounds.seq (leave masked code upper)
  refine ⟨Nat.le_refl _, .refl s₀, ?_, ?_, ?_, pc, ?_⟩
  · rw [pointer, Nat.sub_self]
    exact (BitVec.add_zero _).symm
  · rw [Nat.sub_self]
    exact .none _ _ s₀
  · rw [Nat.sub_self]
    exact ready
  · rw [Nat.sub_self]
    exact (BitVec.add_zero _).symm

end Loop

end Sweep

end AvrEmulator
