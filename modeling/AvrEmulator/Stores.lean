import AvrEmulator.Executor.Frame
import AvrEmulator.Service

/-! The data-space stores an instruction is about to make: what an observer of stores sees
of an instruction, and what Timer0 does. -/

namespace AvrEmulator

open Checked

/-- The stores of a sequence of pushes. A refused push stores nothing. -/
def pushStores (sp : Word) : List Byte → List (Word × Byte)
  | [] => []
  | value :: values =>
    if 0x0100 ≤ sp ∧ sp ≤ 0x08FF then (sp, value) :: pushStores (sp - 1) values
    else pushStores sp values

def wordBytes (value : Word) : List Byte :=
  [(value &&& 0xFF).setWidth 8, (value >>> 8).setWidth 8]

namespace Machine

def indirectStore (m : Machine) (pair : Byte) (ops : OpsLdSt) : List (Word × Byte) :=
  match (enterIndirect pair ops.mode).run m.state with
  | some (pointer, s) => [(pointer, s.reg ops.d.toNat)]
  | none => []

def displacedStore (m : Machine) (pair : Byte) (ops : OpsLdd) : List (Word × Byte) :=
  match (readRegWord pair).run m.state with
  | some (pointer, s) => [(pointer + ops.q.setWidth 16, s.reg ops.d.toNat)]
  | none => []

/-- SBI and CBI store back what they read, one bit changed. -/
def ioStore (m : Machine) (ioAddr : Byte) (f : Byte → Byte) : List (Word × Byte) :=
  match (readDataByte (ioDataAddr ioAddr)).run m with
  | some (value, _) => [(ioDataAddr ioAddr, f value)]
  | none => []

def stores (m : Machine) (op : Opcode) (instr secondWord : Word) : List (Word × Byte) :=
  match op.op with
  | .ST_X => m.indirectStore 26 (decodeLdSt instr)
  | .ST_Y =>
    if op.fmt = .LDD_family then m.displacedStore 28 (decodeLdd instr)
    else m.indirectStore 28 (decodeLdSt instr)
  | .ST_Z =>
    if op.fmt = .LDD_family then m.displacedStore 30 (decodeLdd instr)
    else m.indirectStore 30 (decodeLdSt instr)
  | .STS =>
    let ops := decodeLdsSts instr secondWord
    [(ops.addr, m.state.reg ops.d.toNat)]
  | .OUT =>
    let ops := decodeIORr instr
    [(ops.a.setWidth 16 + 0x20, m.state.reg ops.r.toNat)]
  | .PUSH => pushStores m.state.sp [m.state.reg (decodeRd instr).d.toNat]
  | .RCALL | .CALL | .ICALL => pushStores m.state.sp (wordBytes m.state.pc)
  | .CBI =>
    let ops := decodeIOB instr
    m.ioStore ops.a fun value => value &&& ~~~((1 : Byte) <<< ops.b.toNat)
  | .SBI =>
    let ops := decodeIOB instr
    m.ioStore ops.a fun value => value ||| ((1 : Byte) <<< ops.b.toNat)
  | _ => []

end Machine

/-- A relation that composes along lists of stores: a data-space store takes it with itself,
and all else with no store. -/
structure StoreWalk (R : List (Word × Byte) → Machine → Machine → Prop) : Prop where
  quiet : EmuWalk (fun _ _ => True) fun _ x => Respects (R []) x
  skip : ∀ context, Respects (R []) (skipNextInstruction context)
  write : ∀ addr value, Respects (R [(addr, value)]) (writeDataByte addr value)
  append : ∀ {first second m₁ m₂ m₃}, R first m₁ m₂ → R second m₂ m₃ → R (first ++ second) m₁ m₃

theorem pushStores_cons (m : Machine) (value : Byte) (values : List Byte) :
    pushStores m.state.sp (value :: values) =
      pushStores m.state.sp [value] ++ pushStores (m.pushed value).state.sp values := by
  by_cases room : 0x0100 ≤ m.state.sp ∧ m.state.sp ≤ 0x08FF
  · have sp : (m.pushed value).state.sp = m.state.sp - 1 := (pushed_sp m value).trans (if_pos room)
    simp only [sp, pushStores, if_pos room, List.singleton_append]
  · have sp : (m.pushed value).state.sp = m.state.sp := (pushed_sp m value).trans (if_neg room)
    simp only [sp, pushStores, if_neg room, List.nil_append]

theorem regAt_inv {s s' : AvrState} {i : Nat} {value : Byte}
    (h : (regAt i).run s = some (value, s')) : value = s.reg i ∧ s' = s := by
  by_cases bound : i < 32
  · rw [run_regAt bound] at h
    cases h
    exact ⟨rfl, rfl⟩
  · simp [regAt, Cells.read?, bound] at h

theorem onCpu_regAt_inv {m m' : Machine} {i : Nat} {value : Byte}
    (h : (onCpu (regAt i)).run m = some (value, m')) : value = m.state.reg i ∧ m' = m := by
  obtain ⟨s, run, rfl⟩ := onCpu_inv h
  obtain ⟨rfl, rfl⟩ := regAt_inv run
  exact ⟨rfl, rfl⟩

/-- A store through a pointer: the pointer register may change before and after it. -/
theorem storeIndirect_inv {m m' : Machine} {pair : Byte} {ops : OpsLdSt}
    (h : (storeIndirect pair ops).run m = some ((), m')) :
    ∃ pointer s m₂ s', m.indirectStore pair ops = [(pointer, s.reg ops.d.toNat)] ∧
      (enterIndirect pair ops.mode).run m.state = some (pointer, s) ∧
      (writeDataByte pointer (s.reg ops.d.toNat)).run (m.setState s) = some ((), m₂) ∧
      (leaveIndirect pair ops.mode pointer).run m₂.state = some ((), s') ∧ m' = m₂.setState s' := by
  obtain ⟨pointer, m₁, enter, h⟩ := bind_inv h
  obtain ⟨value, m₂, read, h⟩ := bind_inv h
  obtain ⟨⟨⟩, m₃, write, leave⟩ := bind_inv h
  obtain ⟨s, run, rfl⟩ := onCpu_inv enter
  obtain ⟨rfl, rfl⟩ := onCpu_regAt_inv read
  obtain ⟨s', left, rfl⟩ := onCpu_inv leave
  refine ⟨pointer, s, m₃, s', ?_, run, write, left, rfl⟩
  rw [Machine.indirectStore, run]

theorem storeDisplaced_inv {m m' : Machine} {pair : Byte} {ops : OpsLdd}
    (h : (storeDisplaced pair ops).run m = some ((), m')) :
    ∃ pointer s, m.displacedStore pair ops =
        [(pointer + ops.q.setWidth 16, s.reg ops.d.toNat)] ∧
      (readRegWord pair).run m.state = some (pointer, s) ∧
      (writeDataByte (pointer + ops.q.setWidth 16) (s.reg ops.d.toNat)).run (m.setState s) =
        some ((), m') := by
  obtain ⟨pointer, m₁, enter, h⟩ := bind_inv h
  obtain ⟨value, m₂, read, write⟩ := bind_inv h
  obtain ⟨s, run, rfl⟩ := onCpu_inv enter
  obtain ⟨rfl, rfl⟩ := onCpu_regAt_inv read
  refine ⟨pointer, s, ?_, run, write⟩
  rw [Machine.displacedStore, run]

theorem storeRegister_inv {m m' : Machine} {d : Nat} {addr : Word}
    (h : (do writeDataByte addr (← onCpu (regAt d))).run m = some ((), m')) :
    (writeDataByte addr (m.state.reg d)).run m = some ((), m') := by
  obtain ⟨value, m₁, read, write⟩ := bind_inv h
  obtain ⟨rfl, rfl⟩ := onCpu_regAt_inv read
  exact write

namespace StoreWalk

variable {R : List (Word × Byte) → Machine → Machine → Prop} (h : StoreWalk R)
  {stores : List (Word × Byte)} {m m' m'' : Machine}
include h

theorem after (first : R [] m m') (rest : R stores m' m'') : R stores m m'' :=
  h.append first rest

theorem before (first : R stores m m') (rest : R [] m' m'') : R stores m m'' := by
  have both := h.append first rest
  rw [List.append_nil] at both
  exact both

theorem onCpu {α : Type} {x : Cpu α} {a : α} (run : (AvrEmulator.onCpu x).run m = some (a, m')) :
    R [] m m' := h.quiet.onCpu trivial _ _ _ run

theorem setState (m : Machine) (s : AvrState) : R [] m (m.setState s) :=
  h.onCpu (x := set s) (a := ()) rfl

theorem pushed (m : Machine) (value : Byte) :
    R (pushStores m.state.sp [value]) m (m.pushed value) := by
  have run := run_pushByte m value
  change ((get : Emu Machine) >>= _).run m = _ at run
  rw [run_get_bind] at run
  dsimp only at run
  rw [pushStores, pushStores, pushStores]
  split at run
  next full =>
    rw [if_neg (show ¬ (0x0100 ≤ m.state.sp ∧ m.state.sp ≤ 0x08FF) by
      unfold stackBottom dataSpaceEnd at full
      bv_omega)]
    exact h.quiet.faultStack _ _ _ _ run
  next room =>
    rw [if_pos (show 0x0100 ≤ m.state.sp ∧ m.state.sp ≤ 0x08FF by
      unfold stackBottom dataSpaceEnd at room
      bv_omega)]
    obtain ⟨⟨⟩, m₁, write, moved⟩ := bind_inv run
    have down : m₁.setState { m₁.state with sp := m₁.state.sp - 1 } = m.pushed value :=
      congrArg Prod.snd (Option.some.inj moved)
    rw [← down]
    exact h.before (h.write _ _ _ _ _ write) (h.setState m₁ _)

theorem pushedWord (m : Machine) (value : Word) :
    R (pushStores m.state.sp (wordBytes value)) m (m.pushedWord value) := by
  rw [wordBytes, pushStores_cons]
  exact h.append (h.pushed m _) (h.pushed _ _)

/-- The return address of an interrupt. -/
theorem entered (m : Machine) (vec : InterruptVector) :
    R (pushStores m.state.sp (wordBytes m.state.pc)) m (m.entered vec) :=
  h.before (h.pushedWord m m.state.pc) (h.setState _ _)

theorem storeIndirect {pair : Byte} {ops : OpsLdSt}
    (run : (AvrEmulator.storeIndirect pair ops).run m = some ((), m')) :
    R (m.indirectStore pair ops) m m' := by
  obtain ⟨pointer, s, m₂, s', stores, -, write, -, rfl⟩ := storeIndirect_inv run
  rw [stores]
  exact h.before (h.after (h.setState m s) (h.write _ _ _ _ _ write)) (h.setState m₂ s')

theorem storeDisplaced {pair : Byte} {ops : OpsLdd}
    (run : (AvrEmulator.storeDisplaced pair ops).run m = some ((), m')) :
    R (m.displacedStore pair ops) m m' := by
  obtain ⟨pointer, s, stores, -, write⟩ := storeDisplaced_inv run
  rw [stores]
  exact h.after (h.setState m s) (h.write _ _ _ _ _ write)

theorem storeRegister {d : Nat} {addr : Word}
    (run : (do writeDataByte addr (← AvrEmulator.onCpu (regAt d))).run m = some ((), m')) :
    R [(addr, m.state.reg d)] m m' := h.write _ _ _ _ _ (storeRegister_inv run)

theorem updateIO {io : Byte} {f : Byte → Byte}
    (run : (do writeDataByte (ioDataAddr io) (f (← readDataByte (ioDataAddr io)))).run m =
      some ((), m')) : R (m.ioStore io f) m m' := by
  obtain ⟨value, m₁, read, write⟩ := bind_inv run
  rw [Machine.ioStore, read]
  exact h.after (h.quiet.readDataByte _ _ _ _ read) (h.write _ _ _ _ _ write)

theorem executePUSH {ops : OpsRd} (run : (AvrEmulator.executePUSH ops).run m = some ((), m')) :
    R (pushStores m.state.sp [m.state.reg ops.d.toNat]) m m' := by
  obtain ⟨value, m₁, read, push⟩ := bind_inv run
  obtain ⟨rfl, rfl⟩ := onCpu_regAt_inv read
  rw [run_pushByte] at push
  cases push
  exact h.pushed _ _

/-- A call: the return address is pushed, then the CPU alone jumps. -/
theorem call {jump : Cpu Unit}
    (run : (do pushPc; AvrEmulator.onCpu jump).run m = some ((), m')) :
    R (pushStores m.state.sp (wordBytes m.state.pc)) m m' := by
  obtain ⟨⟨⟩, m₁, push, jumped⟩ := bind_inv run
  rw [run_pushPc] at push
  cases push
  exact h.before (h.pushedWord m m.state.pc) (h.onCpu jumped)

/-- An instruction takes the stores read off the state before it. -/
theorem dispatch (op : Opcode) (instr secondWord : Word)
    (run : (AvrEmulator.dispatch op instr secondWord).run m = some ((), m')) :
    R (m.stores op instr secondWord) m m' := by
  obtain ⟨mask, code, op, fmt, words, cycles, mnemonic⟩ := op
  by_cases plain : op.stores = false
  · have none : m.stores ⟨mask, code, op, fmt, words, cycles, mnemonic⟩ instr secondWord = [] := by
      cases op <;> first | rfl | cases plain
    rw [none]
    refine dispatch_walk h.quiet _ instr secondWord ?_ ?_ ?_ ?_ _ _ _ run
    · intro set
      cases plain.symm.trans set
    · exact fun _ => h.skip
    · exact fun _ => trivial
    · exact fun _ => trivial
  · cases op
    case ST_X => exact h.storeIndirect run
    case ST_Y =>
      unfold AvrEmulator.dispatch at run
      unfold Machine.stores
      dsimp only at run ⊢
      split at run
      next ldd => rw [if_pos ldd]; exact h.storeDisplaced run
      next ld => rw [if_neg ld]; exact h.storeIndirect run
    case ST_Z =>
      unfold AvrEmulator.dispatch at run
      unfold Machine.stores
      dsimp only at run ⊢
      split at run
      next ldd => rw [if_pos ldd]; exact h.storeDisplaced run
      next ld => rw [if_neg ld]; exact h.storeIndirect run
    case STS => exact h.storeRegister run
    case OUT => exact h.storeRegister run
    case PUSH => exact h.executePUSH run
    case RCALL => exact h.call run
    case CALL => exact h.call run
    case ICALL => exact h.call run
    case CBI => exact h.updateIO run
    case SBI => exact h.updateIO run
    all_goals exact absurd rfl plain

end StoreWalk

/-- Timer0 after a data-space store. -/
def Timer0.stored (t : Timer0) (store : Word × Byte) : Timer0 :=
  if store.1 < 0x20 ∨ store.1 = 0x5D ∨ store.1 = 0x5E ∨ store.1 = 0x5F then t
  else (t.timer0Write (timerIo store.1) store.2).getD t

/-- Timer0 and its pending vectors are the same. -/
structure SameTimer (m m' : Machine) : Prop where
  timer : m'.timer0 = m.timer0
  pending : ∀ src : Timer0.Source,
    m'.interrupts.isPending src.vector = m.interrupts.isPending src.vector

theorem sameTimer_frame : EmuFrame SameTimer where
  refl _ := ⟨rfl, fun _ => rfl⟩
  trans _ _ _ hab hbc :=
    ⟨hbc.timer.trans hab.timer, fun src => (hbc.pending src).trans (hab.pending src)⟩
  cpu _ _ := ⟨rfl, fun _ => rfl⟩
  uart _ _ := ⟨rfl, fun _ => rfl⟩
  fault _ _ := ⟨rfl, fun _ => rfl⟩
  error _ _ := ⟨rfl, fun _ => rfl⟩

/-- Timer0 went through these stores and its pending vectors are the same. -/
structure TimerStores (stores : List (Word × Byte)) (m m' : Machine) : Prop where
  timer : m'.timer0 = stores.foldl Timer0.stored m.timer0
  pending : ∀ src : Timer0.Source,
    m'.interrupts.isPending src.vector = m.interrupts.isPending src.vector

/-- The UART raises its own vectors only. -/
theorem uartWrite_timer_pending (u : Uart) (i : Interrupts) (io value : Byte)
    (src : Timer0.Source) :
    (u.uartWrite i io value).2.isPending src.vector = i.isPending src.vector := by
  have bound : src.vector.toNat ≤ 32 := by cases src <;> decide
  have kept {vec : InterruptVector} (apart : Interrupts.sameBit src.vector vec = false)
      (j : Interrupts) (h : j.isPending src.vector = i.isPending src.vector) :
      (j.interruptRaise vec).isPending src.vector = i.isPending src.vector := by
    rw [Interrupts.isPending_raise _ bound, apart, Bool.or_false, h]
  exact u.uartWrite_raises (P := fun j => j.isPending src.vector = i.isPending src.vector) io value
    (kept (by cases src <;> decide)) (kept (by cases src <;> decide)) rfl

theorem stored_elsewhere (t : Timer0) {addr : Word} (value : Byte)
    (h : addr < 0x20 ∨ addr = 0x5D ∨ addr = 0x5E ∨ addr = 0x5F) :
    t.stored (addr, value) = t := if_pos h

theorem stored_routed (t : Timer0) {addr : Word} (value : Byte)
    (h : ¬ (addr < 0x20 ∨ addr = 0x5D ∨ addr = 0x5E ∨ addr = 0x5F)) :
    t.stored (addr, value) = (t.timer0Write (timerIo addr) value).getD t := if_neg h

theorem writeDataByte_timer (addr : Word) (value : Byte) :
    Respects (TimerStores [(addr, value)]) (writeDataByte addr value) := by
  have kept {m m' : Machine} (timer : m'.timer0 = m.timer0.stored (addr, value))
      (pending : ∀ src : Timer0.Source,
        m'.interrupts.isPending src.vector = m.interrupts.isPending src.vector) :
      TimerStores [(addr, value)] m m' := ⟨timer, pending⟩
  apply respects_get_bind
  intro m b m' hm
  split at hm
  next h₀ =>
    obtain ⟨s, -, rfl⟩ := onCpu_inv hm
    exact kept (stored_elsewhere _ _ (.inl h₀)).symm fun _ => rfl
  split at hm
  next h₁ =>
    cases hm
    exact kept (stored_elsewhere _ _ (.inr (.inl h₁))).symm fun _ => rfl
  split at hm
  next h₂ =>
    cases hm
    exact kept (stored_elsewhere _ _ (.inr (.inr (.inl h₂)))).symm fun _ => rfl
  split at hm
  next h₃ =>
    cases hm
    exact kept (stored_elsewhere _ _ (.inr (.inr (.inr h₃)))).symm fun _ => rfl
  next h₀ h₁ h₂ h₃ =>
    have routed := stored_routed m.timer0 value
      (fun h => by rcases h with h | h | h | h <;> contradiction)
    split at hm
    next t ht =>
      cases hm
      exact kept (by rw [routed, timerIo, ht]; rfl) fun _ => rfl
    next ht =>
      have silent : m.timer0.stored (addr, value) = m.timer0 := by
        rw [routed, timerIo, ht]
        rfl
      split at hm
      · cases hm
        exact kept silent.symm (uartWrite_timer_pending _ _ _ _)
      split at hm
      · cases hm
        exact kept silent.symm (uartWrite_timer_pending _ _ _ _)
      split at hm
      · cases hm
        exact kept silent.symm fun _ => rfl
      · obtain ⟨s, -, rfl⟩ := onCpu_inv hm
        exact kept silent.symm fun _ => rfl

theorem timerStores_nil : TimerStores [] = SameTimer := by
  funext m m'
  exact propext ⟨fun h => ⟨h.timer, h.pending⟩, fun h => ⟨h.timer, h.pending⟩⟩

/-- An instruction sends Timer0 through its stores. -/
theorem timer_walk : StoreWalk TimerStores where
  quiet := by
    rw [timerStores_nil]
    exact sameTimer_frame.rules.walk
  skip context := by
    rw [timerStores_nil]
    exact sameTimer_frame.rules.skipNextInstruction context
  write := writeDataByte_timer
  append first rest := by
    refine ⟨?_, fun src => (rest.pending src).trans (first.pending src)⟩
    rw [rest.timer, first.timer, List.foldl_append]

end AvrEmulator
