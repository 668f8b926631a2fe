import AvrEmulator.Fetch

/-! The clock. Executors leave the cycle count alone and ask for at most one extra cycle;
the loop then charges the instruction, and nothing else. -/

namespace AvrEmulator

open Checked Transition

/-- The cycle count stands, and an extra cycle is asked for only where that is allowed. -/
def Charges (extra : Bool) (s s' : AvrState) : Prop :=
  s'.cycleCount = s.cycleCount ∧
    (s'.extraCycles = s.extraCycles ∨ extra = true ∧ s'.extraCycles = 1)

theorem charges_preorder (extra : Bool) : IsPreorder AvrState (Charges extra) where
  refl _ := ⟨rfl, .inl rfl⟩
  trans a b c := by
    rintro ⟨first, x⟩ ⟨second, y⟩
    refine ⟨second.trans first, ?_⟩
    rcases y with kept | asked
    · rw [kept]
      exact x
    · exact .inr asked

theorem charges_of_clock {extra : Bool} {s s' : AvrState} (count : s'.cycleCount = s.cycleCount)
    (kept : s'.extraCycles = s.extraCycles) : Charges extra s s' := ⟨count, .inl kept⟩

section Cpu

variable {extra : Bool}

theorem change_charges {g : AvrState → AvrState}
    (clock : ∀ s, (g s).cycleCount = s.cycleCount ∧ (g s).extraCycles = s.extraCycles) :
    Respects (Charges extra) (modify g : Cpu Unit) :=
  respects_modify fun s => charges_of_clock (clock s).1 (clock s).2

/-- A read of one array. -/
theorem read_charges {f : AvrState → Option Byte} :
    Respects (Charges extra) (do (f (← get) : Cpu Byte)) := by
  apply respects_get_bind
  intro s a s' run
  have kept : Keeps id (liftM (f s) : Cpu Byte) := .lift _
  obtain rfl : s' = s := kept _ _ _ run
  exact charges_of_clock rfl rfl

/-- A store to one array. -/
theorem store_charges {α : Type} {f : AvrState → Option α} {g : AvrState → α → AvrState}
    (clock : ∀ s a, (g s a).cycleCount = s.cycleCount ∧ (g s a).extraCycles = s.extraCycles) :
    Respects (Charges extra) (do
      let s ← get
      let a ← f s
      set (g s a) : Cpu Unit) := by
  apply respects_get_bind
  intro s b s' run
  obtain ⟨a, t, read, write⟩ := bind_inv run
  have kept : Keeps id (liftM (f s) : Cpu α) := .lift _
  obtain rfl : t = s := kept _ _ _ read
  cases write
  exact charges_of_clock (clock _ a).1 (clock _ a).2

theorem setRegAt_charges (i : Nat) (value : Byte) :
    Respects (Charges extra) (setRegAt i value) := store_charges fun _ _ => ⟨rfl, rfl⟩

theorem setSramAt_charges (i : Nat) (value : Byte) :
    Respects (Charges extra) (setSramAt i value) := store_charges fun _ _ => ⟨rfl, rfl⟩

theorem setFlashAt_charges (i : Nat) (value : Byte) :
    Respects (Charges extra) (setFlashAt i value) := store_charges fun _ _ => ⟨rfl, rfl⟩

theorem cpu_charges (extra : Bool) : CpuWalk fun _ x => Respects (Charges extra) x where
  pure := respects_pure (charges_preorder extra)
  bind := respects_bind (charges_preorder extra)
  state := respects_get (charges_preorder extra)
  pc _ := change_charges fun _ => ⟨rfl, rfl⟩
  sp _ := change_charges fun _ => ⟨rfl, rfl⟩
  sreg _ := change_charges fun _ => ⟨rfl, rfl⟩
  regAt _ := read_charges
  setRegAt _ _ := setRegAt_charges _ _
  flashAt _ := read_charges
  sramAt _ := read_charges

theorem executeSPM_charges : Respects (Charges extra) executeSPM := by
  have walk := cpu_charges extra
  apply walk.bind (walk.readRegWord (by decide))
  intro pointer
  split
  · exact walk.pure _
  · exact walk.bind (walk.regAt (by decide)) fun _ =>
      walk.bind (setFlashAt_charges _ _) fun _ =>
        walk.bind (walk.regAt (by decide)) fun _ => setFlashAt_charges _ _

end Cpu

section Emu

variable {extra : Bool}

/-- The same of a machine. -/
def MachineCharges (extra : Bool) (m m' : Machine) : Prop := Charges extra m.state m'.state

theorem machine_charges_preorder (extra : Bool) : IsPreorder Machine (MachineCharges extra) where
  refl m := (charges_preorder extra).refl m.state
  trans a b c := (charges_preorder extra).trans a.state b.state c.state

theorem onCpu_charges {α : Type} {x : Cpu α} (h : Respects (Charges extra) x) :
    Respects (MachineCharges extra) (onCpu x) := by
  intro m a m' run
  obtain ⟨s, read, rfl⟩ := onCpu_inv run
  exact h _ _ _ read

/-- A change of the machine beside its clock. -/
theorem modify_charges {g : Machine → Machine}
    (clock : ∀ m, (g m).state.cycleCount = m.state.cycleCount ∧
      (g m).state.extraCycles = m.state.extraCycles) :
    Respects (MachineCharges extra) (modify g : Emu Unit) :=
  respects_modify fun m => charges_of_clock (clock m).1 (clock m).2

theorem callUartRead_charges (io : Byte) :
    Respects (MachineCharges extra) (callUartRead io) := by
  intro m value m' run
  cases run
  exact charges_of_clock rfl rfl

theorem emu_charges (extra : Bool) : EmuWalk (fun _ x => Respects (Charges extra) x)
    fun _ x => Respects (MachineCharges extra) x where
  cpu := cpu_charges extra
  pure := respects_pure (machine_charges_preorder extra)
  bind := respects_bind (machine_charges_preorder extra)
  read _ rest := respects_get_bind fun m => rest m m
  onCpu := onCpu_charges
  callUartRead := callUartRead_charges
  faultDataAddr _ _ := modify_charges fun _ => ⟨rfl, rfl⟩
  faultStack _ := modify_charges fun _ => ⟨rfl, rfl⟩
  faultLpm _ := respects_bind (machine_charges_preorder extra)
    (modify_charges fun _ => ⟨rfl, rfl⟩) fun _ => modify_charges fun _ => ⟨rfl, rfl⟩

theorem writeDataByte_charges (addr : Word) (value : Byte) :
    Respects (MachineCharges extra) (writeDataByte addr value) := by
  have walk := emu_charges extra
  apply respects_get_bind
  intro m b m' run
  split at run
  · exact onCpu_charges (setRegAt_charges _ _) _ _ _ run
  split at run
  · exact walk.setSp _ _ _ _ run
  split at run
  · exact walk.setSp _ _ _ _ run
  -- SREG, Timer0 and the two UART windows leave the clock to the loop.
  split at run
  · cases run
    exact charges_of_clock rfl rfl
  split at run
  · cases run
    exact charges_of_clock rfl rfl
  split at run
  · cases run
    exact charges_of_clock rfl rfl
  split at run
  · cases run
    exact charges_of_clock rfl rfl
  split at run
  · exact walk.faultDataAddr _ _ _ _ _ run
  · exact onCpu_charges (setSramAt_charges _ _) _ _ _ run

theorem skipNextInstruction_charges (context : String) :
    Respects (MachineCharges extra) (skipNextInstruction context) := by
  have walk := emu_charges extra
  have reported (g : Machine → ErrorState) : Respects (MachineCharges extra) (do
      modify fun m => { m with error := g m }
      memorySignalFault : Emu Unit) :=
    walk.bind (modify_charges fun _ => ⟨rfl, rfl⟩) fun _ => modify_charges fun _ => ⟨rfl, rfl⟩
  apply walk.read (fun m n same _ => by simp only [same])
  intro m
  dsimp only
  split
  · exact reported _
  next inside =>
    apply walk.bind (walk.onCpu (walk.cpu.fetchWord (Nat.not_le.mp inside)))
    intro nextInstr
    split
    · exact reported _
    · exact walk.onCpu (walk.cpu.addPc _)

end Emu

/-- The instructions whose cost depends on what they do: a taken branch and a skip cost
one cycle more. -/
def AvrOp.mayExtend (op : AvrOp) : Bool := op.skips || op.branches

theorem dispatch_charges (row : Opcode) (instr secondWord : Word) :
    Respects (MachineCharges row.op.mayExtend) (dispatch row instr secondWord) := by
  apply dispatch_walk (emu_charges row.op.mayExtend)
  · exact fun _ => writeDataByte_charges
  · exact fun _ => skipNextInstruction_charges
  · intro may
    exact respects_modify fun s => ⟨rfl, .inr ⟨may, rfl⟩⟩
  · exact fun _ => executeSPM_charges

/-- What an instruction may cost. -/
def Opcode.Costs (row : Opcode) (n : Nat) : Prop :=
  n = row.cyclesMin.toNat ∨ row.op.mayExtend = true ∧ n = row.cyclesMin.toNat + 1

theorem costs_bounds {row : Opcode} {n : Nat} (member : row ∈ opcodeTable) (costs : row.Costs n) :
    1 ≤ n ∧ n ≤ 4 := by
  have table : ∀ row ∈ opcodeTable, 1 ≤ row.cyclesMin.toNat ∧ row.cyclesMin.toNat ≤ 4 ∧
      (row.op.mayExtend = true → row.cyclesMin.toNat ≤ 3) := by
    decide +kernel
  obtain ⟨least, most, extended⟩ := table row member
  rcases costs with rfl | ⟨may, rfl⟩
  · exact ⟨least, most⟩
  · have := extended may
    omega

/-- The sum is taken in 16 bits, which is enough for two bytes. -/
theorem total_cycles (a b : Byte) :
    (a.setWidth 16 + b.setWidth 16 : Word) = BitVec.ofNat 16 (a.toNat + b.toNat) ∧
      (a.setWidth 16 + b.setWidth 16 : Word).setWidth 64 = BitVec.ofNat 64 (a.toNat + b.toNat) := by
  constructor
  · bv_omega
  · bv_omega

/-- An executed instruction is charged what it costs, to the CPU and to Timer0 alike. -/
theorem execute_clock {f : Fetched} {m m' : Machine}
    (run : (execute f).run m = some (.executed, m')) :
    ∃ n m₁, f.op.Costs n ∧
      (dispatch f.op f.instruction f.extra).run
        { m with state := { m.state with extraCycles := 0 }, fault := false } = some ((), m₁) ∧
      m'.state = { m₁.state with cycleCount := m.state.cycleCount + BitVec.ofNat 64 n } ∧
      m'.timer0 = m₁.timer0.timer0Tick (BitVec.ofNat 16 n) := by
  obtain ⟨m₁, done, ⟨failed, -⟩ | ⟨-, advance⟩⟩ := execute_inv run
  · cases failed
  obtain ⟨count, extra⟩ := dispatch_charges _ _ _ _ _ _ done
  cases advance
  refine ⟨f.op.cyclesMin.toNat + m₁.state.extraCycles.toNat, m₁, ?_, done, ?_, ?_⟩
  · rcases extra with none | ⟨may, one⟩
    · left
      rw [none]
      rfl
    · right
      rw [one]
      exact ⟨may, rfl⟩
  · rw [← (total_cycles _ _).2, ← show m₁.state.cycleCount = m.state.cycleCount from count]
  · rw [← (total_cycles _ _).1]

/-- The clock after so many cycles. -/
def AvrState.ClockAt (s s' : AvrState) (n : Nat) : Prop :=
  s'.cycleCount = s.cycleCount + BitVec.ofNat 64 n

/-- Fetching takes no time. -/
theorem fetchExecute_clock {m m' : Machine} (run : fetchExecute.run m = some (.executed, m')) :
    ∃ row n, m.nextOpcode = some row ∧ row.Costs n ∧ m.state.ClockAt m'.state n := by
  obtain ⟨found, m₁, fetched, run⟩ := bind_inv run
  cases found with
  | none => cases run
  | some f =>
    obtain ⟨next, -, -⟩ := fetch_some fetched
    obtain ⟨n, m₂, costs, -, state, -⟩ := execute_clock run
    refine ⟨f.op, n, next, costs, ?_⟩
    have kept := congrArg (fun m => m.state.cycleCount) (fetch_unfetched _ _ _ fetched)
    rw [AvrState.ClockAt, state]
    exact congrArg (· + BitVec.ofNat 64 n) kept

/-- A failing instruction is not charged. -/
theorem fetchExecute_failed_clock {m m' : Machine}
    (run : fetchExecute.run m = some (.failed, m')) :
    m'.state.cycleCount = m.state.cycleCount := by
  obtain ⟨found, m₁, fetched, run⟩ := bind_inv run
  have kept := congrArg (fun m => m.state.cycleCount) (fetch_unfetched _ _ _ fetched)
  cases found with
  | none =>
    cases run
    exact kept
  | some f =>
    obtain ⟨m₂, done, ⟨-, -, rfl⟩ | ⟨executed, -⟩⟩ := execute_inv run
    · exact (dispatch_charges _ _ _ _ _ _ done).1.trans kept
    · cases executed

/-! ## The loop -/

/-- How many instructions a step executes. -/
def Event.executes : Event → Nat
  | .executed => 1
  | _ => 0

theorem entered_clock (m : Machine) (vec : InterruptVector) :
    (m.entered vec).state.cycleCount = m.state.cycleCount :=
  ((emu_charges false).pushPc writeDataByte_charges _ _ _ (run_pushPc m)).1

namespace Program

/-- An executed instruction is charged between one and four cycles; nothing else takes
emulated time. -/
theorem step_clock {p q : Program} {i : Input} {e : Event} (taken : p.step i = some (e, q)) :
    ∃ n, e.executes ≤ n ∧ n ≤ 4 * e.executes ∧ p.machine.state.ClockAt q.machine.state n := by
  rcases step_cases taken with ⟨stop, pause, stdin, rfl, -, turn⟩ | ⟨⟨u, same⟩, other⟩
  · have state := p.settled_servicePoint_state stdin
    cases turn_cases turn with
    | @dispatched vec =>
      refine ⟨0, Nat.le_refl _, Nat.le_refl _, ?_⟩
      rw [AvrState.ClockAt, BitVec.add_zero, acknowledge_state, entered_clock, state]
    | executed _ run =>
      obtain ⟨row, n, next, costs, clock⟩ := fetchExecute_clock run
      have member := List.mem_of_find?_eq_some (Machine.nextOpcode_some next).2
      obtain ⟨least, most⟩ := costs_bounds member costs
      rw [advance_machine]
      rw [state] at clock
      exact ⟨n, least, most, clock⟩
    | failed _ run =>
      refine ⟨0, Nat.le_refl _, Nat.le_refl _, ?_⟩
      rw [AvrState.ClockAt, BitVec.add_zero, fetchExecute_failed_clock run, state]
  · have still : e.executes = 0 := by rcases other with rfl | rfl <;> rfl
    refine ⟨0, by omega, by omega, ?_⟩
    rw [AvrState.ClockAt, BitVec.add_zero, same]

end Program

/-- The instructions executed in a run. -/
def executions (trace : List (Input × Event)) : Nat := (trace.map fun x => x.2.executes).sum

end AvrEmulator
