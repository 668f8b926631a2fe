import AvrEmulator.Stack
import AvrEmulator.Executor.Control

/-! Servicing interrupts: `interruptService`, with the raise and acknowledge
steps that `executeProgram` puts before and after it. -/

namespace AvrEmulator

def Timer0.Source.vector : Timer0.Source → InterruptVector
  | .overflow => .TIMER0_OVF
  | .compA => .TIMER0_COMPA
  | .compB => .TIMER0_COMPB

def raiseIf (raised : Bool) (vec : InterruptVector) (m : Machine) : Machine :=
  if raised then { m with interrupts := m.interrupts.interruptRaise vec } else m

/-- The three tests of the timer's flags, in the loop's order. -/
def raiseTimer0 (m : Machine) : Machine :=
  let m := raiseIf m.timer0.timer0OverflowPending .TIMER0_OVF m
  let m := raiseIf m.timer0.timer0CompAPending .TIMER0_COMPA m
  raiseIf m.timer0.timer0CompBPending .TIMER0_COMPB m

/-- The switch over the serviced vector. -/
def acknowledge (vec : InterruptVector) (m : Machine) : Machine :=
  if vec = .TIMER0_OVF then { m with timer0 := m.timer0.timer0AckOverflow }
  else if vec = .TIMER0_COMPA then { m with timer0 := m.timer0.timer0AckCompA }
  else if vec = .TIMER0_COMPB then { m with timer0 := m.timer0.timer0AckCompB }
  else m

def dropPending (vec : InterruptVector) : Emu Unit :=
  modify fun m => { m with interrupts := m.interrupts.drop vec }

/-- The dispatch sequence, once the vector's pending bit is cleared. -/
def enterHandler (vec : InterruptVector) : Emu Unit := do
  pushPc
  onCpu (modify fun s => s.clearFlag .I)
  onCpu (setPc (Interrupts.vectorAddr vec))

/-- Validate a vector and dispatch it. A vector outside flash or over erased
flash is dropped, with a message to stderr. -/
def takeUp (vec : InterruptVector) : Emu (Option InterruptVector) := do
  let vecAddr := Interrupts.vectorAddr vec
  if vecAddr.toNat + 1 ≥ avrFlashSize then
    dropPending vec
    return none
  let vecWord ← onCpu (fetchWord vecAddr.toNat)
  if vecWord = 0xFFFF then
    dropPending vec
    return none
  dropPending vec
  enterHandler vec
  return some vec

/-- The vector that was dispatched, `none` for the result `false`. -/
def interruptService : Emu (Option InterruptVector) := do
  let m ← get
  if !m.interrupts.bound then return none
  if !m.state.getFlag .I then return none
  if m.interrupts.highestPending = 0 then return none
  takeUp m.interrupts.highestPending

namespace Machine

/-- `flash[i] | (flash[i + 1] << 8)` inside flash. -/
def flashWord (m : Machine) (i : Nat) : Word :=
  (m.state.flash.peek i).setWidth 16 ||| ((m.state.flash.peek (i + 1)).setWidth 16 <<< 8)

/-- The vector that service looks at: the highest-priority pending one under I. -/
def candidate (m : Machine) : Option InterruptVector :=
  if m.interrupts.bound && m.state.getFlag .I && m.interrupts.highestPending ≠ 0 then
    some m.interrupts.highestPending
  else none

def programmed (m : Machine) (vec : InterruptVector) : Bool :=
  (Interrupts.vectorAddr vec).toNat + 1 < avrFlashSize &&
    m.flashWord (Interrupts.vectorAddr vec).toNat ≠ 0xFFFF

/-- The vector that service dispatches. -/
def dispatches (m : Machine) : Option InterruptVector := m.candidate.filter m.programmed

/-- The machine once the vector service looked at is no longer pending. -/
def settled (m : Machine) : Machine :=
  match m.candidate with
  | none => m
  | some vec => { m with interrupts := m.interrupts.drop vec }

end Machine

theorem run_fetchWord {m : Machine} {i : Nat} (h : i + 1 < avrFlashSize) :
    (onCpu (fetchWord i)).run m = some (m.flashWord i, m) := by
  have lo : (flashAt i).run m.state = some (m.state.flash.peek i, m.state) := by
    simp [flashAt, Cells.read?_eq _ (show i < avrFlashSize by omega)]
  have hi : (flashAt (i + 1)).run m.state = some (m.state.flash.peek (i + 1), m.state) := by
    simp [flashAt, Cells.read?_eq _ h]
  have word : (fetchWord i).run m.state = some (m.flashWord i, m.state) := by
    rw [fetchWord, Checked.run_bind_of lo, Checked.run_bind_of hi]
    rfl
  exact run_onCpu word

/-- The machine with one vector no longer pending. -/
def Machine.drop (m : Machine) (vec : InterruptVector) : Machine :=
  { m with interrupts := m.interrupts.drop vec }

theorem run_takeUp (vec : InterruptVector) (m : Machine) :
    (takeUp vec).run m =
      if m.programmed vec then ((enterHandler vec).run (m.drop vec)).map fun p => (some vec, p.2)
      else some (none, m.drop vec) := by
  have drop : (dropPending vec).run m = some ((), m.drop vec) := rfl
  by_cases bound : (Interrupts.vectorAddr vec).toNat + 1 ≥ avrFlashSize
  · have erased : m.programmed vec = false := by
      simp [Machine.programmed, Nat.not_lt.mpr bound]
    simp only [takeUp, bound, ↓reduceIte, erased, Bool.false_eq_true]
    rw [Checked.run_bind_of drop]
    rfl
  · have fetch := run_fetchWord (m := m) (Nat.not_le.mp bound)
    have word : m.programmed vec = true ↔
        m.flashWord (Interrupts.vectorAddr vec).toNat ≠ 0xFFFF := by
      simp [Machine.programmed, Nat.not_le.mp bound]
    simp only [takeUp, bound, ↓reduceIte]
    rw [Checked.run_bind_of fetch]
    by_cases erased : m.flashWord (Interrupts.vectorAddr vec).toNat = 0xFFFF
    · rw [if_pos erased, if_neg (fun set => word.mp set erased), Checked.run_bind_of drop]
      rfl
    · rw [if_neg erased, if_pos (word.mpr erased), Checked.run_bind_of drop, StateT.run_bind]
      cases (enterHandler vec).run (m.drop vec) <;> rfl

/-- Service enters the handler of the vector it dispatches and does nothing else;
otherwise it only forgets an unprogrammed candidate. -/
theorem run_interruptService (m : Machine) :
    interruptService.run m =
      match m.dispatches with
      | some vec => ((enterHandler vec).run m.settled).map fun p => (some vec, p.2)
      | none => some (none, m.settled) := by
  have start (f : Machine → Emu (Option InterruptVector)) : (get >>= f).run m = (f m).run m := rfl
  have idle (h : m.candidate = none) : m.dispatches = none ∧ m.settled = m := by
    simp [Machine.dispatches, Machine.settled, h]
  rw [interruptService, start]
  cases bound : m.interrupts.bound
  · obtain ⟨h₁, h₂⟩ := idle (by simp [Machine.candidate, bound])
    rw [h₁, h₂]
    rfl
  cases enabled : m.state.getFlag .I
  · obtain ⟨h₁, h₂⟩ := idle (by simp [Machine.candidate, enabled])
    rw [h₁, h₂]
    rfl
  by_cases empty : m.interrupts.highestPending = 0
  · obtain ⟨h₁, h₂⟩ := idle (by simp [Machine.candidate, empty])
    rw [h₁, h₂]
    simp only [Bool.not_true, Bool.false_eq_true, ↓reduceIte, empty]
    rfl
  · have candidate : m.candidate = some m.interrupts.highestPending := by
      simpa [Machine.candidate, bound, enabled] using empty
    have settled : m.settled = m.drop m.interrupts.highestPending := by
      simp only [Machine.settled, candidate]
      rfl
    simp only [Bool.not_true, Bool.false_eq_true, ↓reduceIte, empty]
    rw [run_takeUp, settled, Machine.dispatches, candidate]
    cases set : m.programmed m.interrupts.highestPending <;> simp [Option.filter, set]

theorem candidate_of_dispatches {m : Machine} {vec : InterruptVector}
    (h : m.dispatches = some vec) : m.candidate = some vec :=
  (Option.filter_eq_some_iff.mp h).1

theorem highestPending_of_candidate {m : Machine} {vec : InterruptVector}
    (h : m.candidate = some vec) :
    m.interrupts.highestPending = vec ∧ m.interrupts.highestPending ≠ 0 := by
  unfold Machine.candidate at h
  split at h
  next active =>
    simp only [Bool.and_eq_true, decide_eq_true_eq] at active
    exact ⟨Option.some.inj h, active.2⟩
  next => cases h

theorem candidate_pending {m : Machine} {vec : InterruptVector} (h : m.candidate = some vec) :
    m.interrupts.isPending vec = true := by
  obtain ⟨rfl, some⟩ := highestPending_of_candidate h
  exact Interrupts.isPending_highestPending some

/-- A dispatched vector is no longer pending. -/
theorem settled_of_dispatches {m : Machine} {vec : InterruptVector}
    (h : m.dispatches = some vec) : m.settled = m.drop vec := by
  rw [Machine.settled, candidate_of_dispatches h]
  rfl

theorem settled_frame (m : Machine) : ∃ i, m.settled = { m with interrupts := i } := by
  unfold Machine.settled
  split <;> exact ⟨_, rfl⟩

theorem settled_state (m : Machine) : m.settled.state = m.state := by
  obtain ⟨i, hi⟩ := settled_frame m
  rw [hi]

theorem settled_timer0 (m : Machine) : m.settled.timer0 = m.timer0 := by
  obtain ⟨i, hi⟩ := settled_frame m
  rw [hi]

theorem raiseIf_frame (raised : Bool) (vec : InterruptVector) (m : Machine) :
    ∃ i, raiseIf raised vec m = { m with interrupts := i } := by
  unfold raiseIf
  split <;> exact ⟨_, rfl⟩

theorem raiseTimer0_frame (m : Machine) : ∃ i, raiseTimer0 m = { m with interrupts := i } := by
  obtain ⟨i, hi⟩ := raiseIf_frame m.timer0.timer0OverflowPending .TIMER0_OVF m
  obtain ⟨j, hj⟩ :=
    raiseIf_frame m.timer0.timer0CompAPending .TIMER0_COMPA { m with interrupts := i }
  obtain ⟨k, hk⟩ :=
    raiseIf_frame m.timer0.timer0CompBPending .TIMER0_COMPB { m with interrupts := j }
  exact ⟨k, by simp only [raiseTimer0, hi, hj, hk]⟩

theorem acknowledge_interrupts (vec : InterruptVector) (m : Machine) :
    (acknowledge vec m).interrupts = m.interrupts := by
  unfold acknowledge
  repeat' split
  all_goals rfl

theorem acknowledge_state (vec : InterruptVector) (m : Machine) :
    (acknowledge vec m).state = m.state := by
  unfold acknowledge
  repeat' split
  all_goals rfl

/-! ## Entering a handler -/

namespace Machine

def StackRoom (m : Machine) : Prop := 0x0100 ≤ m.state.sp ∧ m.state.sp ≤ 0x08FF

instance (m : Machine) : Decidable m.StackRoom := by unfold StackRoom; infer_instance

/-- The machine after a byte was pushed or refused. -/
def pushed (m : Machine) (v : Byte) : Machine :=
  if m.StackRoom then (m.store m.state.sp v).withSp (m.state.sp - 1)
  else m.stackFault "stack overflow (SP would drop below 0x0100)"

/-- The machine after a word was pushed, low byte first. -/
def pushedWord (m : Machine) (value : Word) : Machine :=
  (m.pushed ((value &&& 0xFF).setWidth 8)).pushed ((value >>> 8).setWidth 8)

/-- The machine at the first instruction of a handler. -/
def entered (m : Machine) (vec : InterruptVector) : Machine :=
  let m := m.pushedWord m.state.pc
  m.setState { m.state.clearFlag .I with pc := Interrupts.vectorAddr vec }

end Machine

theorem run_pushByte (m : Machine) (v : Byte) : (pushByte v).run m = some ((), m.pushed v) := by
  unfold Machine.pushed
  by_cases room : m.StackRoom
  · rw [if_pos room]
    exact pushByte_room v room.1 room.2
  · rw [if_neg room]
    apply pushByte_fault
    unfold Machine.StackRoom at room
    bv_omega

theorem run_pushWord (m : Machine) (value : Word) :
    (pushWord value).run m = some ((), m.pushedWord value) := by
  rw [pushWord, Checked.run_bind_of (run_pushByte m _), run_pushByte]
  rfl

theorem run_pushPc (m : Machine) : pushPc.run m = some ((), m.pushedWord m.state.pc) := by
  have read : (get : Emu Machine).run m = some (m, m) := rfl
  rw [pushPc, Checked.run_bind_of read, run_pushWord]

theorem run_enterHandler (vec : InterruptVector) (m : Machine) :
    (enterHandler vec).run m = some ((), m.entered vec) := by
  have push := run_pushPc m
  generalize hp : m.pushedWord m.state.pc = pushed at push
  have clear : (onCpu (modify fun s => s.clearFlag .I)).run pushed =
      some ((), pushed.setState (pushed.state.clearFlag .I)) := rfl
  rw [enterHandler, Checked.run_bind_of push, Checked.run_bind_of clear, Machine.entered, hp]
  rfl

/-- A store changes the CPU state or Timer0 and nothing else. -/
theorem store_frame (m : Machine) (a : Word) (v : Byte) :
    ∃ state timer0, m.store a v = { m with state := state, timer0 := timer0 } := by
  unfold Machine.store
  repeat' split
  all_goals exact ⟨_, _, rfl⟩

theorem pushed_fault (m : Machine) (v : Byte) :
    (m.pushed v).fault = (m.fault || !decide m.StackRoom) := by
  obtain ⟨state, timer0, stored⟩ := store_frame m m.state.sp v
  unfold Machine.pushed
  split
  next room => simp [Machine.withSp, stored, room, Machine.setState]
  next full => simp [Machine.stackFault, full]

theorem pushed_sp (m : Machine) (v : Byte) :
    (m.pushed v).state.sp = if m.StackRoom then m.state.sp - 1 else m.state.sp := by
  unfold Machine.pushed
  split <;> rfl

/-- Pushing a word signals a fault unless there is room for two bytes. -/
theorem pushedWord_fault (m : Machine) (value : Word) : (m.pushedWord value).fault =
    (m.fault || !decide (0x0101 ≤ m.state.sp ∧ m.state.sp ≤ 0x08FF)) := by
  rw [Machine.pushedWord, pushed_fault, pushed_fault, Bool.or_assoc, ← Bool.not_and]
  congr 2
  rw [← Bool.decide_and, decide_eq_decide, Machine.StackRoom, Machine.StackRoom, pushed_sp]
  split
  next room =>
    unfold Machine.StackRoom at room
    bv_omega
  next full =>
    unfold Machine.StackRoom at full
    bv_omega

/-- With room for two bytes the return address changes SRAM, the Timer0 register
that shadows a slot, and SP. -/
theorem pushedWord_room {m : Machine} (value : Word)
    (room : 0x0101 ≤ m.state.sp ∧ m.state.sp ≤ 0x08FF) :
    ∃ sram timer0, m.pushedWord value = { m with
      state := { m.state with sram := sram, sp := m.state.sp - 2 }
      timer0 := timer0 } := by
  have pushed (m : Machine) (v : Byte) (room : m.StackRoom) : ∃ sram timer0, m.pushed v = { m with
      state := { m.state with sram := sram, sp := m.state.sp - 1 }
      timer0 := timer0 } := by
    obtain ⟨sram, timer0, stored, -⟩ := store_sram_frame m v room.1 room.2
    exact ⟨sram, timer0, by rw [Machine.pushed, if_pos room, stored]; rfl⟩
  have first : m.StackRoom := ⟨by bv_omega, room.2⟩
  obtain ⟨sram₁, timer₁, low⟩ := pushed m ((value &&& 0xFF).setWidth 8) first
  have second : (m.pushed ((value &&& 0xFF).setWidth 8)).StackRoom := by
    rw [low]
    have bounds := room
    constructor
    · show 0x0100 ≤ m.state.sp - 1
      bv_omega
    · show m.state.sp - 1 ≤ 0x08FF
      bv_omega
  obtain ⟨sram₂, timer₂, high⟩ := pushed _ ((value >>> 8).setWidth 8) second
  refine ⟨sram₂, timer₂, ?_⟩
  have sp : m.state.sp - 1 - 1 = m.state.sp - 2 := by bv_omega
  rw [Machine.pushedWord, high, low]
  simp only [sp]

end AvrEmulator
