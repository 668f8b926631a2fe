import AvrEmulator.Library.BoundedStack
import AvrEmulator.DataSpace

/-! The hardware stack against an abstract stack of 2048 bytes. -/

namespace AvrEmulator

inductive StackOp where
  | pushByte (value : Byte)
  | popByte
  | pushWord (value : Word)
  | popWord

/-- What an operation gives back. -/
inductive StackResult where
  | nothing
  | byte (value : Byte)
  | word (value : Word)
  deriving DecidableEq, Repr

def runStackOp : StackOp → Emu StackResult
  | .pushByte value => do
    pushByte value
    return .nothing
  | .popByte => return .byte (← popByte)
  | .pushWord value => do
    pushWord value
    return .nothing
  | .popWord => return .word (← popWord)

def runStackOps : List StackOp → Emu (List StackResult)
  | [] => return []
  | op :: ops => do
    let result ← runStackOp op
    return result :: (← runStackOps ops)

/-! ## The abstract stack -/

/-- The stack of bytes, whether an operation has faulted yet, and the greatest
depth reached: the pushes wrote exactly the slots below it. -/
structure StackSpec where
  stack : BoundedStack Byte 2048
  fault : Bool
  high : Nat

namespace StackSpec

def initial : StackSpec := ⟨.empty, false, 0⟩

def depth (s : StackSpec) : Nat := s.stack.depth

theorem depth_le (s : StackSpec) : s.depth ≤ 2048 := s.stack.depth_le

def push (s : StackSpec) (v : Byte) : StackSpec :=
  match s.stack.push? v with
  | some t => { s with stack := t, high := max s.high t.depth }
  | none => { s with fault := true }

def pop (s : StackSpec) : Byte × StackSpec :=
  match s.stack.pop? with
  | some (v, t) => (v, { s with stack := t })
  | none => (0, { s with fault := true })

def lowByte (w : Word) : Byte := (w &&& 0xFF).setWidth 8

def highByte (w : Word) : Byte := (w >>> 8).setWidth 8

def step (s : StackSpec) : StackOp → StackResult × StackSpec
  | .pushByte v => (.nothing, s.push v)
  | .popByte => (.byte s.pop.1, s.pop.2)
  | .pushWord w => (.nothing, (s.push (lowByte w)).push (highByte w))
  | .popWord => (.word (s.pop.1 ++ s.pop.2.pop.1), s.pop.2.pop.2)

def run (s : StackSpec) : List StackOp → List StackResult × StackSpec
  | [] => ([], s)
  | op :: ops => ((s.step op).1 :: ((s.step op).2.run ops).1, ((s.step op).2.run ops).2)

end StackSpec

/-- The address of the byte with `depth` bytes below it. -/
def slot (depth : Nat) : Word := 0x08FF - BitVec.ofNat 16 depth

namespace StackSpec

/-- A byte can go onto the next slot: the slot is not shadowed by a Timer0
register, or the byte is the 0 that a reset register holds. -/
def Clear (s : StackSpec) (v : Byte) : Prop := Shadowed (slot s.depth) → v = 0

def ClearOp (s : StackSpec) : StackOp → Prop
  | .pushByte v => s.Clear v
  | .pushWord w => s.Clear (lowByte w) ∧ (s.push (lowByte w)).Clear (highByte w)
  | .popByte => True
  | .popWord => True

/-- Every step of the run meets the condition. -/
def ClearRun (s : StackSpec) : List StackOp → Prop
  | [] => True
  | op :: ops => s.ClearOp op ∧ (s.step op).2.ClearRun ops

end StackSpec

/-- The machine's stack is the abstract stack, and nothing else has changed
since `m₀`: no register, no peripheral, no SRAM byte but the pushed slots. -/
structure StackRefines (m₀ m : Machine) (s : StackSpec) : Prop where
  sp : m.state.sp.toNat + s.depth = 0x08FF
  fault : m.fault = s.fault
  slots : ∀ i (h : i < s.stack.items.length), m.load (slot i) = s.stack.items[i]
  reached : s.depth ≤ s.high
  sram : ∀ i, i + s.high ≤ 0x08FF → m.state.sram.peek i = m₀.state.sram.peek i
  r : m.state.r = m₀.state.r
  sreg : m.state.sreg = m₀.state.sreg
  pc : m.state.pc = m₀.state.pc
  flash : m.state.flash = m₀.state.flash
  eeprom : m.state.eeprom = m₀.state.eeprom
  timer0 : m.timer0 = timer0Reset
  uart : m.uart = m₀.uart
  interrupts : m.interrupts = m₀.interrupts

theorem slot_toNat {depth : Nat} (h : depth ≤ 2048) : (slot depth).toNat = 0x08FF - depth := by
  have hd : (BitVec.ofNat 16 depth).toNat = depth := by
    rw [BitVec.toNat_ofNat]
    omega
  unfold slot
  rw [BitVec.toNat_sub, hd]
  simp
  omega

theorem slot_sram {depth : Nat} (h : depth < 2048) :
    0x0100 ≤ slot depth ∧ slot depth ≤ 0x08FF := by
  have := slot_toNat (Nat.le_of_lt h)
  constructor
  · rw [BitVec.le_def, this]
    simp
    omega
  · rw [BitVec.le_def, this]
    simp

theorem slot_inj {i j : Nat} (hi : i < 2048) (hj : j < 2048) (h : slot i = slot j) : i = j := by
  have hi' := slot_toNat (Nat.le_of_lt hi)
  have hj' := slot_toNat (Nat.le_of_lt hj)
  rw [h] at hi'
  omega

/-- A store to an SRAM address reaches one SRAM cell or one Timer0 register. -/
theorem store_sram_frame (m : Machine) {a : Word} (v : Byte) (lo : 0x0100 ≤ a) (hi : a ≤ 0x08FF) :
    ∃ sram timer0,
      m.store a v = { m with state := { m.state with sram := sram }, timer0 := timer0 } ∧
      ∀ i, i ≠ a.toNat → sram.peek i = m.state.sram.peek i := by
  by_cases hs : Shadowed a
  · obtain ⟨t, -, h⟩ := store_shadowed m v hs
    exact ⟨m.state.sram, t, h, fun _ _ => rfl⟩
  · exact ⟨_, m.timer0, store_sram m v lo hi hs, fun i hne => Cells.peek_poke_of_ne _ _ hne⟩

def Machine.withSp (m : Machine) (sp : Word) : Machine := m.setState { m.state with sp := sp }

theorem load_withSp (m : Machine) (sp : Word) {b : Word} (lo : 0x0100 ≤ b) :
    (m.withSp sp).load b = m.load b := by
  rw [load_sram _ lo, load_sram _ lo]
  rfl

/-- The machine after a stack fault with the given report. -/
def Machine.stackFault (m : Machine) (detail : String) : Machine :=
  { m with fault := true, error := m.error.emuErrorPc m.error.faultPc detail }

theorem pushByte_room {m : Machine} (v : Byte) (lo : 0x0100 ≤ m.state.sp)
    (hi : m.state.sp ≤ 0x08FF) :
    (pushByte v).run m = some ((), (m.store m.state.sp v).withSp (m.state.sp - 1)) := by
  have room : ¬ (m.state.sp < stackBottom ∨ m.state.sp > dataSpaceEnd) := by
    unfold stackBottom dataSpaceEnd
    bv_omega
  have write := writeDataByte_plain m v (.inr (.inr (.inr (.inr ⟨lo, hi⟩))))
  obtain ⟨sram, timer0, hstore, -⟩ := store_sram_frame m v lo hi
  simp only [pushByte, StateT.run_bind, StateT.run_get, Option.pure_def, Option.bind_eq_bind,
    Option.bind_some, room, ↓reduceIte, write, StateT.run_modify]
  rw [Machine.withSp, hstore]

theorem pushByte_fault {m : Machine} (v : Byte)
    (h : m.state.sp < 0x0100 ∨ m.state.sp > 0x08FF) :
    (pushByte v).run m =
      some ((), m.stackFault "stack overflow (SP would drop below 0x0100)") := by
  have full : m.state.sp < stackBottom ∨ m.state.sp > dataSpaceEnd := h
  simp only [pushByte, StateT.run_bind, StateT.run_get, Option.pure_def, Option.bind_eq_bind,
    Option.bind_some, full, ↓reduceIte, faultStack, StateT.run_modify]
  rfl

theorem popByte_room {m : Machine} (lo : 0x00FF ≤ m.state.sp) (hi : m.state.sp < 0x08FF) :
    popByte.run m =
      some (m.load (m.state.sp + 1), m.withSp (m.state.sp + 1)) := by
  have room : ¬ m.state.sp ≥ dataSpaceEnd := by
    unfold dataSpaceEnd
    bv_omega
  have lo' : 0x0100 ≤ m.state.sp + 1 := by bv_omega
  have hi' : m.state.sp + 1 ≤ 0x08FF := by bv_omega
  have read := readDataByte_plain (m.withSp (m.state.sp + 1)) (.inr (.inr (.inr (.inr ⟨lo', hi'⟩))))
  rw [load_withSp m _ lo'] at read
  simp only [popByte, StateT.run_bind, StateT.run_get, Option.pure_def, Option.bind_eq_bind,
    Option.bind_some, room, ↓reduceIte, setSp, StateT.run_modify]
  exact read

theorem popByte_fault {m : Machine} (h : 0x08FF ≤ m.state.sp) :
    popByte.run m = some (0, m.stackFault "stack underflow (SP above RAMEND 0x08FF)") := by
  have empty : m.state.sp ≥ dataSpaceEnd := h
  simp only [popByte, StateT.run_bind, StateT.run_get, Option.pure_def, Option.bind_eq_bind,
    Option.bind_some, empty, ↓reduceIte, faultStack, StateT.run_modify, StateT.run_pure]
  rfl

theorem StackSpec.push_room {s : StackSpec} (v : Byte) (h : s.depth < 2048) :
    (s.push v).stack.items = s.stack.items ++ [v] ∧ (s.push v).fault = s.fault ∧
      (s.push v).depth = s.depth + 1 ∧ (s.push v).high = max s.high (s.depth + 1) := by
  obtain ⟨t, ht, hitems⟩ := BoundedStack.push?_of_room v h
  have hdepth : t.depth = s.depth + 1 := by
    simp [BoundedStack.depth, StackSpec.depth, hitems]
  have hpush : s.push v = { s with stack := t, high := max s.high t.depth } := by
    simp only [push, ht]
  rw [hpush]
  exact ⟨hitems, rfl, hdepth, congrArg (max s.high) hdepth⟩

theorem StackSpec.push_full {s : StackSpec} (v : Byte) (h : s.depth = 2048) :
    s.push v = { s with fault := true } := by
  simp only [push, BoundedStack.push?_of_full v h]

theorem StackSpec.pop_empty {s : StackSpec} (h : s.depth = 0) :
    s.pop = (0, { s with fault := true }) := by
  simp only [pop, BoundedStack.pop?_of_empty h]

theorem StackSpec.pop_pos {s : StackSpec} (h : 0 < s.depth) :
    ∃ v t, s.pop = (v, { s with stack := t }) ∧ s.stack.items = t.items ++ [v] := by
  obtain ⟨v, t, ht, hitems⟩ := BoundedStack.pop?_of_pos h
  exact ⟨v, t, by simp only [pop, ht], hitems⟩

theorem StackRefines.slot_eq {m₀ m : Machine} {s : StackSpec} (h : StackRefines m₀ m s) :
    m.state.sp = slot s.depth := by
  have := h.sp
  apply BitVec.eq_of_toNat_eq
  rw [slot_toNat s.depth_le]
  omega

/-- Only the fault flag and the report differ after a stack fault. -/
theorem StackRefines.stackFault {m₀ m : Machine} {s : StackSpec} (h : StackRefines m₀ m s)
    (detail : String) : StackRefines m₀ (m.stackFault detail) { s with fault := true } :=
  { h with fault := rfl }

/-- A reset Timer0 absorbs a 0 stored over any of its registers. -/
theorem reset_absorbs_zero (io : Byte) : timer0Reset.Absorbs io 0 := by
  unfold Timer0.Absorbs
  split <;> first | exact ⟨rfl, rfl⟩ | decide

/-- A clear push obeys the storage law: it hits plain SRAM or changes nothing. -/
theorem StackRefines.store_law {m₀ m : Machine} {s : StackSpec} {v : Byte}
    (h : StackRefines m₀ m s) (clear : s.Clear v) (room : s.depth < 2048) :
    Quiet m (m.store m.state.sp v) ∧ ∀ b, 0x0100 ≤ b ∧ b ≤ 0x08FF →
      (m.store m.state.sp v).load b = if b = m.state.sp then v else m.load b := by
  have stack := slot_sram room
  rw [← h.slot_eq] at stack
  have plain (b : Word) (hb : 0x0100 ≤ b ∧ b ≤ 0x08FF) : Plain b := .inr (.inr (.inr (.inr hb)))
  have agrees (b : Word) : Agrees m.timer0 m.state.sp b v := by
    intro shadowed
    have zero : v = 0 := clear (h.slot_eq ▸ shadowed)
    rw [zero, h.timer0]
    exact ⟨reset_absorbs_zero _, fun _ _ => rfl⟩
  have law (b : Word) (hb : 0x0100 ≤ b ∧ b ≤ 0x08FF) :=
    (storageLaw_iff m v (plain _ stack) (plain b hb)).mp
      ((law_iff_agrees m v (plain _ stack) (plain b hb)).mpr (agrees b))
  exact ⟨(law _ stack).2, fun b hb => (law b hb).1⟩

theorem push_refines {m₀ m : Machine} {s : StackSpec} {v : Byte} (h : StackRefines m₀ m s)
    (clear : s.Clear v) :
    ∃ m', (pushByte v).run m = some ((), m') ∧ StackRefines m₀ m' (s.push v) := by
  have bound := s.depth_le
  have hsp := h.sp
  by_cases full : s.depth = 2048
  · have low : m.state.sp < 0x0100 := by bv_omega
    rw [StackSpec.push_full v full]
    exact ⟨_, pushByte_fault v (.inl low), h.stackFault _⟩
  · have room : s.depth < 2048 := by omega
    have length : s.stack.items.length = s.depth := rfl
    obtain ⟨hitems, hfault, hdepth, hhigh⟩ := StackSpec.push_room v room
    have hslot := h.slot_eq
    have ⟨lo, hi⟩ := slot_sram room
    rw [← hslot] at lo hi
    obtain ⟨quiet, law⟩ := h.store_law clear room
    obtain ⟨sram, timer0, hstore, hsram⟩ := store_sram_frame m v lo hi
    have kept := quiet.timer0
    rw [hstore] at law kept
    refine ⟨_, pushByte_room v lo hi, ?_⟩
    rw [hstore]
    constructor
    case sp =>
      have hpos : (m.state.sp - 1).toNat = m.state.sp.toNat - 1 := by bv_omega
      change (m.state.sp - 1).toNat + (s.push v).depth = 0x08FF
      omega
    case fault => exact h.fault.trans hfault.symm
    case slots =>
      intro i hi'
      have hi'' : i < s.stack.items.length + 1 := by simpa [hitems] using hi'
      have hib : i < 2048 := by omega
      rw [load_withSp _ _ (slot_sram hib).1, law _ (slot_sram hib)]
      simp only [hitems, hslot]
      by_cases top : i = s.depth
      · subst top
        simp [StackSpec.depth, BoundedStack.depth]
      · have inner : i < s.stack.items.length := by omega
        rw [if_neg (fun he => top (slot_inj hib room he)), h.slots i inner,
          List.getElem_append_left inner]
    case reached => rw [hdepth, hhigh]; omega
    case sram =>
      intro i hi'
      rw [hhigh] at hi'
      exact (hsram i (by omega)).trans (h.sram i (by omega))
    case timer0 => exact kept.trans h.timer0
    all_goals first
      | exact h.r | exact h.sreg | exact h.pc | exact h.flash | exact h.eeprom | exact h.uart
      | exact h.interrupts

theorem pop_refines {m₀ m : Machine} {s : StackSpec} (h : StackRefines m₀ m s) :
    ∃ m', popByte.run m = some (s.pop.1, m') ∧ StackRefines m₀ m' s.pop.2 := by
  have bound := s.depth_le
  have hsp := h.sp
  by_cases empty : s.depth = 0
  · have high : 0x08FF ≤ m.state.sp := by bv_omega
    rw [StackSpec.pop_empty empty]
    exact ⟨_, popByte_fault high, h.stackFault _⟩
  · obtain ⟨v, t, hpop, hitems⟩ := StackSpec.pop_pos (Nat.pos_of_ne_zero empty)
    have hdepth : s.depth = t.depth + 1 := by
      simp [StackSpec.depth, BoundedStack.depth, hitems]
    have lo : 0x00FF ≤ m.state.sp := by bv_omega
    have hi : m.state.sp < 0x08FF := by bv_omega
    have next : m.state.sp + 1 = slot t.depth := by
      apply BitVec.eq_of_toNat_eq
      rw [slot_toNat t.depth_le]
      bv_omega
    have value : m.load (m.state.sp + 1) = v := by
      have hlt : t.depth < s.stack.items.length := by
        simp [BoundedStack.depth, hitems]
      rw [next, h.slots _ hlt]
      simp [hitems, BoundedStack.depth]
    rw [hpop]
    refine ⟨_, value ▸ popByte_room lo hi, ?_⟩
    constructor
    case sp =>
      change (m.state.sp + 1).toNat + t.depth = 0x08FF
      bv_omega
    case slots =>
      intro i (hi' : i < t.items.length)
      have inner : i < s.stack.items.length := by
        simp only [hitems, List.length_append, List.length_singleton]
        omega
      have hib : i < 2048 := Nat.lt_of_lt_of_le inner s.stack.bound
      rw [load_withSp _ _ (slot_sram hib).1, h.slots i inner]
      simp [hitems, List.getElem_append_left hi']
    case reached =>
      have := h.reached
      change t.depth ≤ s.high
      omega
    all_goals first
      | exact h.fault | exact h.sram | exact h.r | exact h.sreg | exact h.pc | exact h.flash
      | exact h.eeprom | exact h.timer0 | exact h.uart | exact h.interrupts

theorem join_bytes (hi lo : Byte) : (hi.setWidth 16 <<< 8) ||| lo.setWidth 16 = hi ++ lo := by
  apply BitVec.eq_of_getLsbD_eq
  intro i h
  rw [BitVec.getLsbD_append]
  interval_cases i <;> simp

theorem join_split (w : Word) : StackSpec.highByte w ++ StackSpec.lowByte w = w := by
  rw [← join_bytes]
  ext i h
  interval_cases i <;> simp [StackSpec.highByte, StackSpec.lowByte]

theorem op_refines {m₀ m : Machine} {s : StackSpec} (op : StackOp) (h : StackRefines m₀ m s)
    (clear : s.ClearOp op) :
    ∃ m', (runStackOp op).run m = some ((s.step op).1, m') ∧
      StackRefines m₀ m' (s.step op).2 := by
  cases op with
  | pushByte v =>
    obtain ⟨m', hrun, href⟩ := push_refines h clear
    exact ⟨m', by rw [runStackOp, Checked.run_bind_of hrun]; rfl, href⟩
  | popByte =>
    obtain ⟨m', hrun, href⟩ := pop_refines h
    exact ⟨m', by rw [runStackOp, Checked.run_bind_of hrun]; rfl, href⟩
  | pushWord w =>
    obtain ⟨m₁, hlow, href₁⟩ := push_refines h clear.1
    obtain ⟨m₂, hhigh, href₂⟩ := push_refines href₁ clear.2
    have hrun : (pushWord w).run m = some ((), m₂) := (Checked.run_bind_of hlow _).trans hhigh
    exact ⟨m₂, by rw [runStackOp, Checked.run_bind_of hrun]; rfl, href₂⟩
  | popWord =>
    obtain ⟨m₁, hhi, href₁⟩ := pop_refines h
    obtain ⟨m₂, hlo, href₂⟩ := pop_refines href₁
    have hrun : popWord.run m = some (s.pop.1 ++ s.pop.2.pop.1, m₂) := by
      rw [popWord, Checked.run_bind_of hhi, Checked.run_bind_of hlo, join_bytes]
      rfl
    exact ⟨m₂, by rw [runStackOp, Checked.run_bind_of hrun]; rfl, href₂⟩

theorem run_refines {m₀ m : Machine} {s : StackSpec} (ops : List StackOp)
    (h : StackRefines m₀ m s) (clear : s.ClearRun ops) :
    ∃ m', (runStackOps ops).run m = some ((s.run ops).1, m') ∧
      StackRefines m₀ m' (s.run ops).2 := by
  induction ops generalizing m s with
  | nil => exact ⟨m, rfl, h⟩
  | cons op ops ih =>
    obtain ⟨m₁, hop, href₁⟩ := op_refines op h clear.1
    obtain ⟨m₂, hops, href₂⟩ := ih href₁ clear.2
    refine ⟨m₂, ?_, href₂⟩
    rw [runStackOps, Checked.run_bind_of hop, Checked.run_bind_of hops]
    rfl

/-- The state `clearState` and `timer0Reset` produce, with no fault pending. -/
structure StackStart (m : Machine) : Prop where
  state : ∃ s, m.state = clearState s
  timer0 : m.timer0 = timer0Reset
  fault : m.fault = false

theorem start_refines {m : Machine} (h : StackStart m) : StackRefines m m .initial := by
  obtain ⟨s, hs⟩ := h.state
  exact
    { sp := by rw [hs]; rfl
      fault := h.fault
      slots := fun i hi => absurd hi (Nat.not_lt_zero i)
      reached := Nat.le_refl _
      sram := fun _ _ => rfl
      r := rfl, sreg := rfl, pc := rfl, flash := rfl, eeprom := rfl
      timer0 := h.timer0, uart := rfl, interrupts := rfl }

theorem StackSpec.pop_push {s : StackSpec} (v : Byte) (h : s.depth < 2048) :
    (s.push v).pop.1 = v ∧ (s.push v).pop.2.stack = s.stack := by
  obtain ⟨t, ht, -⟩ := BoundedStack.push?_of_room v h
  simp only [push, ht, pop, BoundedStack.pop?_push? ht, and_self]

theorem StackSpec.pop_congr {s t : StackSpec} (h : s.stack = t.stack) : s.pop.1 = t.pop.1 := by
  unfold pop
  rw [h]
  cases t.stack.pop? <;> rfl

/-- A word comes back whole when both of its bytes fit. -/
theorem StackSpec.pop_word (s : StackSpec) (w : Word) (h : s.depth + 2 ≤ 2048) :
    ((s.step (.pushWord w)).2.step .popWord).1 = .word w := by
  obtain ⟨-, -, hdepth, -⟩ := push_room (s := s) (lowByte w) (by omega)
  obtain ⟨top, below⟩ := pop_push (s := s.push (lowByte w)) (highByte w) (by omega)
  obtain ⟨next, -⟩ := pop_push (s := s) (lowByte w) (by omega)
  simp only [step, top, pop_congr below, next, join_split]

/-! ## Whole runs -/

/-- The operations give what the abstract stack gives, and end in its state. -/
def RunRefines (m : Machine) (ops : List StackOp) : Prop :=
  ∃ m', (runStackOps ops).run m = some ((StackSpec.initial.run ops).1, m') ∧
    StackRefines m m' (StackSpec.initial.run ops).2

/-- A reset Timer0 reads 0 in place of a shadowed slot. -/
theorem StackRefines.shadowed_zero {m₀ m : Machine} {s : StackSpec} (h : StackRefines m₀ m s)
    {i : Nat} (hi : i < s.stack.items.length) (hs : Shadowed (slot i)) :
    s.stack.items[i] = 0 := by
  obtain ⟨t, ht⟩ := Option.isSome_iff_exists.mp
    ((Timer0.timer0Read_isSome timer0Reset (timerIo (slot i))).trans hs.2.2)
  have zero : t = 0 := by
    unfold Timer0.timer0Read at ht
    split at ht <;> first | exact (Option.some.inj ht).symm | cases ht
  rw [← h.slots i hi, load_sram m hs.1, h.timer0, ht, zero]
  rfl

theorem slot_full : ¬ Shadowed (slot 2048) := by decide

/-- A byte that the machine took onto its stack was clear to go there. -/
theorem clear_of_pushed {s : StackSpec} {v : Byte}
    (zero : ∀ i (h : i < (s.push v).stack.items.length), Shadowed (slot i) →
      (s.push v).stack.items[i] = 0) : s.Clear v := by
  intro shadowed
  by_cases full : s.depth = 2048
  · rw [full] at shadowed
    exact absurd shadowed slot_full
  · have bound := s.depth_le
    obtain ⟨hitems, -⟩ := StackSpec.push_room v (show s.depth < 2048 by omega)
    have hlt : s.depth < (s.push v).stack.items.length := by
      rw [hitems]
      simp [StackSpec.depth, BoundedStack.depth]
    rw [← zero _ hlt shadowed]
    simp [hitems, StackSpec.depth, BoundedStack.depth]

theorem StackSpec.push_keeps {s : StackSpec} (v : Byte) {i : Nat} (h : i < s.stack.items.length) :
    ∃ h' : i < (s.push v).stack.items.length, (s.push v).stack.items[i] = s.stack.items[i] := by
  by_cases full : s.depth = 2048
  · rw [push_full v full]
    exact ⟨h, rfl⟩
  · have bound := s.depth_le
    obtain ⟨hitems, -⟩ := push_room v (show s.depth < 2048 by omega)
    have h' : i < (s.push v).stack.items.length := by
      rw [hitems, List.length_append]
      omega
    exact ⟨h', by simp only [hitems, List.getElem_append_left h]⟩

theorem clear_of_refines {m₀ m : Machine} {s : StackSpec} (op : StackOp)
    (h : StackRefines m₀ m (s.step op).2) : s.ClearOp op := by
  cases op with
  | pushByte v => exact clear_of_pushed fun _ => h.shadowed_zero
  | popByte => trivial
  | pushWord w =>
    refine ⟨clear_of_pushed fun i hi shadowed => ?_, clear_of_pushed fun _ => h.shadowed_zero⟩
    obtain ⟨hi', same⟩ := StackSpec.push_keeps (StackSpec.highByte w) hi
    rw [← same]
    exact h.shadowed_zero hi' shadowed
  | popWord => trivial

theorem clear_take {s : StackSpec} {ops : List StackOp} (h : s.ClearRun ops) (k : Nat) :
    s.ClearRun (ops.take k) := by
  induction ops generalizing s k with
  | nil => simpa using h
  | cons op ops ih =>
    cases k with
    | zero => trivial
    | succ k => exact ⟨h.1, ih h.2 k⟩

theorem clear_of_run {m₀ m : Machine} {s : StackSpec} (ops : List StackOp)
    (h : ∀ k, ∃ m', (runStackOps (ops.take k)).run m = some ((s.run (ops.take k)).1, m') ∧
      StackRefines m₀ m' (s.run (ops.take k)).2) : s.ClearRun ops := by
  induction ops generalizing m s with
  | nil => trivial
  | cons op ops ih =>
    obtain ⟨m₁, hrun, href⟩ := h 1
    obtain ⟨result, m₂, hop, hnil⟩ := Checked.bind_inv hrun
    cases hnil
    refine ⟨clear_of_refines op href, ih (m := m₁) fun k => ?_⟩
    obtain ⟨m', hrun', href'⟩ := h (k + 1)
    refine ⟨m', ?_, href'⟩
    rw [List.take_succ_cons, runStackOps, Checked.run_bind_of hop] at hrun'
    obtain ⟨results, m₃, hops, hret⟩ := Checked.bind_inv hrun'
    cases hret
    exact hops

/-- Every prefix of a run of stack operations refines the abstract stack, exactly
when every byte pushed onto a slot that a Timer0 register shadows is 0. -/
theorem stack_refines_bounded_stack (m : Machine) (ops : List StackOp) (start : StackStart m) :
    ((∀ k, RunRefines m (ops.take k)) ↔ StackSpec.initial.ClearRun ops) ∧
    (∀ (s : StackSpec) (v : Byte), s.depth < 2048 →
      (s.push v).pop.1 = v ∧ (s.push v).pop.2.stack = s.stack) ∧
    (∀ (s : StackSpec) (w : Word), s.depth + 2 ≤ 2048 →
      ((s.step (.pushWord w)).2.step .popWord).1 = .word w) := by
  refine ⟨⟨clear_of_run ops, fun clear k => ?_⟩,
    fun s v h => StackSpec.pop_push v h, StackSpec.pop_word⟩
  exact run_refines _ (start_refines start) (clear_take clear k)

theorem stack_round_trip : RunRefines (Machine.initial (clearState .zero))
    [.pushByte 1, .pushWord 0x0203, .popWord, .popByte, .popByte] := by
  have clear : StackSpec.initial.ClearRun
      [.pushByte 1, .pushWord 0x0203, .popWord, .popByte, .popByte] :=
    ⟨fun h => absurd h (by decide), ⟨fun h => absurd h (by decide), fun h => absurd h (by decide)⟩,
      trivial, trivial, trivial, trivial⟩
  exact (stack_refines_bounded_stack _ _ ⟨⟨_, rfl⟩, rfl, rfl⟩).1.mpr clear 5

/-- The byte below 145 others lands on 0x086E, which is cut to the address of TIMSK0. -/
theorem deep_push_is_lost :
    StackStart (Machine.initial (clearState .zero)) ∧
      ¬ RunRefines (Machine.initial (clearState .zero)) (List.replicate 146 (.pushByte 1)) := by
  refine ⟨⟨⟨_, rfl⟩, rfl, rfl⟩, ?_⟩
  rintro ⟨m', -, href⟩
  have top : (StackSpec.initial.run (List.replicate 146 (.pushByte 1))).2.stack.items =
      List.replicate 146 1 := by decide +kernel
  have hlt : 145 <
      (StackSpec.initial.run (List.replicate 146 (.pushByte 1))).2.stack.items.length := by
    rw [top, List.length_replicate]
    decide
  have zero := href.shadowed_zero hlt (by decide)
  simp only [top, List.getElem_replicate] at zero
  exact absurd zero (by decide)

end AvrEmulator
