import AvrEmulator.Fetch
import AvrEmulator.OutOfRange

/-! Flash and EEPROM. No store reaches them: flash is written by SPM alone, and
the EEPROM by nothing. -/

namespace AvrEmulator

open Checked Transition

/-- The memories beside the data space. -/
def AvrState.rom (s : AvrState) : Cells avrFlashSize Byte × Cells avrEepromSize Byte :=
  (s.flash, s.eeprom)

def Machine.rom (m : Machine) : Cells avrFlashSize Byte × Cells avrEepromSize Byte := m.state.rom

theorem onCpu_rom {α : Type} {x : Cpu α} (h : Keeps AvrState.rom x) : Keeps Machine.rom (onCpu x) :=
  Keeps.zoom (fun _ _ => rfl) h

theorem regAt_rom (i : Nat) : Keeps AvrState.rom (regAt i) := Keeps.get.bind fun _ => .lift _

theorem sramAt_rom (i : Nat) : Keeps AvrState.rom (sramAt i) := Keeps.get.bind fun _ => .lift _

theorem flashAt_rom (i : Nat) : Keeps AvrState.rom (flashAt i) := Keeps.get.bind fun _ => .lift _

/-- Reading the state, changing one array of it and storing it back. -/
theorem stored_rom {α : Type} {f : AvrState → Option α} {g : AvrState → α → AvrState}
    (h : ∀ s a, (g s a).rom = s.rom) : Keeps AvrState.rom (do
      let s ← get
      let a ← f s
      set (g s a) : Cpu Unit) := by
  apply respects_get_bind
  intro s b s' run
  obtain ⟨a, t, read, write⟩ := bind_inv run
  have kept : Keeps id (liftM (f s) : Cpu α) := .lift _
  obtain rfl : t = s := kept _ _ _ read
  cases write
  exact h _ a

theorem setRegAt_rom (i : Nat) (value : Byte) : Keeps AvrState.rom (setRegAt i value) :=
  stored_rom fun _ _ => rfl

theorem setSramAt_rom (i : Nat) (value : Byte) : Keeps AvrState.rom (setSramAt i value) :=
  stored_rom fun _ _ => rfl

theorem change_rom {g : AvrState → AvrState}
    (h : ∀ s, (g s).flash = s.flash ∧ (g s).eeprom = s.eeprom) :
    Keeps AvrState.rom (modify g : Cpu Unit) :=
  .modify fun s => Prod.ext (h s).1 (h s).2

theorem cpu_rom : CpuRules fun _ x => Keeps AvrState.rom x where
  pure := .pure
  bind := .bind
  state := .get
  change := change_rom
  regAt _ := regAt_rom _
  setRegAt _ _ := setRegAt_rom _ _
  flashAt _ := flashAt_rom _
  sramAt _ := sramAt_rom _

theorem modify_rom {g : Machine → Machine} (h : ∀ m, (g m).rom = m.rom) :
    Keeps Machine.rom (modify g : Emu Unit) := .modify h

theorem setSp_rom (sp : Word) : Keeps Machine.rom (setSp sp) := modify_rom fun _ => rfl

theorem callUartRead_rom (io : Byte) : Keeps Machine.rom (callUartRead io) := by
  rintro m value m' hm
  cases hm
  rfl

theorem writeDataByte_rom (addr : Word) (value : Byte) :
    Keeps Machine.rom (writeDataByte addr value) := by
  apply respects_get_bind
  intro m b m' hm
  split at hm
  · exact onCpu_rom (setRegAt_rom _ _) _ _ _ hm
  split at hm
  · exact setSp_rom _ _ _ _ hm
  split at hm
  · exact setSp_rom _ _ _ _ hm
  split at hm
  · cases hm
    rfl
  split at hm
  · cases hm
    rfl
  split at hm
  · cases hm
    rfl
  split at hm
  · cases hm
    rfl
  split at hm
  · cases hm
    rfl
  · exact onCpu_rom (setSramAt_rom _ _) _ _ _ hm

theorem emu_rom : EmuRules (fun _ x => Keeps AvrState.rom x) fun _ x => Keeps Machine.rom x where
  cpu := cpu_rom
  pure := .pure
  bind := .bind
  read _ rest := Keeps.get.bind rest
  onCpu := onCpu_rom
  callUartRead := callUartRead_rom
  report _ := modify_rom fun _ => rfl
  signal _ := modify_rom fun _ => rfl

/-- No instruction but SPM writes flash, and none writes the EEPROM. -/
theorem dispatch_rom (op : Opcode) (instr secondWord : Word) (other : op.op ≠ .SPM_E) :
    Keeps Machine.rom (dispatch op instr secondWord) :=
  dispatch_rules emu_rom op instr secondWord (fun _ => writeDataByte_rom) fun spm =>
    absurd spm other

/-! ## Self-programming -/

/-- What a step may do to the program memories: store at Z and Z + 1. -/
structure Programs (s s' : AvrState) : Prop where
  eeprom : s'.eeprom = s.eeprom
  flash (k : Fin avrFlashSize) (changed : s'.flash k ≠ s.flash k) :
    (s.pointer 30).toNat + 1 < avrFlashSize ∧
      (k.val = (s.pointer 30).toNat ∨ k.val = (s.pointer 30).toNat + 1)

theorem programs_of_rom {s s' : AvrState} (same : s'.rom = s.rom) : Programs s s' where
  eeprom := congrArg Prod.snd same
  flash k changed := absurd (congrFun (congrArg Prod.fst same) k) changed

/-- The state after SPM. -/
def AvrState.programmed (s : AvrState) : AvrState :=
  let z := (s.pointer 30).toNat
  if z + 1 < avrFlashSize then
    { s with flash := (s.flash.poke z (s.reg 0)).poke (z + 1) (s.reg 1) }
  else s

theorem run_setFlashAt {s : AvrState} {i : Nat} (value : Byte) (h : i < avrFlashSize) :
    (setFlashAt i value).run s = some ((), { s with flash := s.flash.poke i value }) := by
  simp [setFlashAt, Cells.write?_eq _ _ h]

theorem run_executeSPM (s : AvrState) : executeSPM.run s = some ((), s.programmed) := by
  have pointer : (readRegWord 30).run s = some (s.pointer 30, s) := run_readRegWord (by decide)
  rw [executeSPM, run_bind_of pointer, AvrState.programmed]
  by_cases room : (s.pointer 30).toNat + 1 < avrFlashSize
  · change (if (s.pointer 30).toNat + 1 ≥ avrFlashSize then _ else _ : Cpu Unit).run s = _
    rw [if_neg (Nat.not_le.mpr room), if_pos room, run_bind_of (run_regAt (by decide)),
      run_bind_of (run_setFlashAt _ (Nat.lt_of_succ_lt room)), run_bind_of (run_regAt (by decide)),
      run_setFlashAt _ room]
    rfl
  · change (if (s.pointer 30).toNat + 1 ≥ avrFlashSize then _ else _ : Cpu Unit).run s = _
    rw [if_pos (Nat.not_lt.mp room), if_neg room]
    rfl

theorem programmed_programs (s : AvrState) : Programs s s.programmed := by
  unfold AvrState.programmed
  dsimp only
  split
  next room =>
    refine ⟨rfl, fun k changed => ⟨room, ?_⟩⟩
    by_contra elsewhere
    rw [not_or] at elsewhere
    exact changed ((Cells.poke_of_ne _ _ elsewhere.2).trans (Cells.poke_of_ne _ _ elsewhere.1))
  · exact programs_of_rom rfl

theorem advanceTiming_rom (op : Opcode) : Keeps Machine.rom (advanceTiming op) :=
  modify_rom fun _ => rfl

/-- What executing an instruction does to the program memories is what its executor does. -/
theorem execute_rom_inv {f : Fetched} {m m' : Machine} {outcome : Outcome}
    (run : (execute f).run m = some (outcome, m')) :
    ∃ m₁, (dispatch f.op f.instruction f.extra).run
      { m with state := { m.state with extraCycles := 0 }, fault := false } = some ((), m₁) ∧
      m'.rom = m₁.rom := by
  obtain ⟨m₁, done, ⟨-, -, rfl⟩ | ⟨-, advance⟩⟩ := execute_inv run
  · exact ⟨m', done, rfl⟩
  · exact ⟨m₁, done, advanceTiming_rom _ _ _ _ advance⟩

theorem execute_rom {f : Fetched} (other : f.op.op ≠ .SPM_E) : Keeps Machine.rom (execute f) := by
  intro m outcome m' run
  obtain ⟨m₁, done, same⟩ := execute_rom_inv run
  have kept := dispatch_rom _ _ _ other _ _ _ done
  exact same.trans kept

theorem execute_programs {f : Fetched} {m m' : Machine} {outcome : Outcome}
    (run : (execute f).run m = some (outcome, m')) : Programs m.state m'.state := by
  by_cases spm : f.op.op = .SPM_E
  · obtain ⟨m₁, done, same⟩ := execute_rom_inv run
    rw [dispatch, spm] at done
    obtain ⟨s, wrote, rfl⟩ := onCpu_inv done
    rw [run_executeSPM] at wrote
    cases wrote
    have wrote := programmed_programs { m.state with extraCycles := 0 }
    exact {
      eeprom := (congrArg Prod.snd same).trans wrote.eeprom
      flash k changed := wrote.flash k fun kept =>
        changed ((congrFun (congrArg Prod.fst same) k).trans kept) }
  · exact programs_of_rom (execute_rom spm _ _ _ run)

/-- The next instruction, if there is a whole one, is SPM. -/
def Machine.executesSPM (m : Machine) : Bool := m.fetched.any fun f => f.op.op = .SPM_E

theorem fetch_rom : Keeps Machine.rom fetch := by
  intro m found m' run
  have same : m'.unfetched = m.unfetched := fetch_unfetched m found m' run
  exact congrArg (fun m => m.rom) same

theorem fetchExecute_rom {m m' : Machine} {outcome : Outcome}
    (run : fetchExecute.run m = some (outcome, m')) :
    (m.executesSPM = false → m'.rom = m.rom) ∧ Programs m.state m'.state := by
  obtain ⟨found, m₀, fetched, run⟩ := bind_inv run
  have rom : m₀.rom = m.rom := fetch_rom _ _ _ fetched
  have pointer : m₀.state.pointer 30 = m.state.pointer 30 :=
    congrArg (fun m => m.state.pointer 30) (fetch_unfetched _ _ _ fetched)
  cases found with
  | none =>
    cases run
    exact ⟨fun _ => rom, programs_of_rom rom⟩
  | some f =>
    have wrote := execute_programs run
    constructor
    · intro other
      rw [Machine.executesSPM, Machine.fetched, fetched] at other
      have kept := execute_rom (of_decide_eq_false other) _ _ _ run
      exact kept.trans rom
    · exact {
        eeprom := wrote.eeprom.trans (congrArg Prod.snd rom)
        flash k changed := by
          rw [← pointer]
          exact wrote.flash k fun kept =>
            changed (kept.trans (congrFun (congrArg Prod.fst rom) k)) }

theorem entered_rom (vec : InterruptVector) (m : Machine) : (m.entered vec).rom = m.rom := by
  have keeps : Keeps Machine.rom (enterHandler vec) :=
    (emu_rom.pushPc writeDataByte_rom).bind fun _ =>
      Keeps.bind (onCpu_rom (.modify fun _ => rfl)) fun _ => onCpu_rom (cpu_rom.setPc _)
  exact keeps _ _ _ (run_enterHandler vec m)

namespace Program

/-- This step executes SPM. -/
def executesSPM (p : Program) : Input → Bool
  | .loop _ _ stdin =>
    p.control = .body && (p.servicePoint stdin).dispatches.isNone &&
      (p.servicePoint stdin).settled.executesSPM
  | _ => false

theorem machine_rom {p : Program} {stop pause : Bool} {stdin : Option Byte} {m : Machine}
    {outcome : Outcome} (body : p.control = .body)
    (idle : (p.servicePoint stdin).dispatches = none)
    (run : fetchExecute.run (p.servicePoint stdin).settled = some (outcome, m)) :
    (p.executesSPM (.loop stop pause stdin) = false → m.rom = p.machine.rom) ∧
      Programs p.machine.state m.state := by
  have state := p.settled_servicePoint_state stdin
  obtain ⟨kept, wrote⟩ := fetchExecute_rom run
  rw [state] at wrote
  refine ⟨fun other => ?_, wrote⟩
  have spares : (p.servicePoint stdin).settled.executesSPM = false := by
    rw [executesSPM, body, idle] at other
    exact other
  exact (kept spares).trans (congrArg AvrState.rom state)

/-- A step that executes no SPM keeps both memories, and no step does more than SPM. -/
theorem step_rom {p q : Program} {i : Input} {e : Event} (taken : p.step i = some (e, q)) :
    (p.executesSPM i = false → q.machine.rom = p.machine.rom) ∧
      Programs p.machine.state q.machine.state := by
  rcases step_cases taken with ⟨stop, pause, stdin, rfl, body, turn⟩ | ⟨⟨u, frame⟩, -⟩
  · cases turn_cases turn with
    | @dispatched vec idle =>
      have same : (acknowledge vec ((p.servicePoint stdin).settled.entered vec)).rom =
          p.machine.rom := by
        rw [Machine.rom, acknowledge_state]
        apply (entered_rom vec _).trans
        rw [Machine.rom, settled_servicePoint_state]
        rfl
      exact ⟨fun _ => same, programs_of_rom same⟩
    | executed idle run =>
      rw [advance_machine]
      exact machine_rom body idle run
    | failed idle run => exact machine_rom body idle run
  · rw [frame]
    exact ⟨fun _ => rfl, programs_of_rom rfl⟩

theorem run_rom {p q : Program} {trace : List (Input × Event)}
    (run : Run step (fun p i => p.executesSPM i = false) p trace q) :
    q.machine.rom = p.machine.rom :=
  run.invariant (P := fun q => q.machine.rom = p.machine.rom)
    (fun _ _ _ _ same allowed taken => ((step_rom taken).1 allowed).trans same) rfl

end Program

/-- Without SPM flash stays what it was, SPM stores at Z and Z + 1 at most, and nothing
reaches the EEPROM. -/
theorem flash_is_immutable (m : Machine) (fcntlOk : Bool) (snapshot : Option AvrState) :
    (∀ trace q, Run Program.step (fun p i => p.executesSPM i = false)
      (Program.start m fcntlOk snapshot) trace q → q.machine.state.flash = m.state.flash) ∧
    ∀ p i e q, Program.step p i = some (e, q) →
      (∀ k, q.machine.state.flash k ≠ p.machine.state.flash k →
        p.executesSPM i = true ∧ (p.machine.state.pointer 30).toNat + 1 < avrFlashSize ∧
          (k.val = (p.machine.state.pointer 30).toNat ∨
            k.val = (p.machine.state.pointer 30).toNat + 1)) ∧
      q.machine.state.eeprom = p.machine.state.eeprom := by
  refine ⟨fun trace q run => congrArg Prod.fst (Program.run_rom run), ?_⟩
  intro p i e q taken
  obtain ⟨kept, wrote⟩ := Program.step_rom taken
  refine ⟨fun k changed => ⟨?_, wrote.flash k changed⟩, wrote.eeprom⟩
  by_contra other
  have same := kept (Bool.eq_false_iff.mpr other)
  exact changed (congrFun (congrArg Prod.fst same) k)

/-- PUSH R16; STS 0x0100, R0; SPM. -/
def pushStoreSpm : Machine := .initial (Program.firmware [0x930F, 0x9200, 0x0100, 0x95E8])

/-- A push and a store leave flash alone, and the SPM after them reaches it. -/
theorem stores_spare_flash : ∃ trace p q e,
    Run Program.step (fun p i => p.executesSPM i = false) (Program.start pushStoreSpm true none)
      trace p ∧
    p.machine.state.flash = pushStoreSpm.state.flash ∧ p.step Program.go = some (e, q) ∧
    q.machine.state.flash 0 ≠ p.machine.state.flash 0 ∧ p.executesSPM Program.go = true := by
  have h : ((feed Program.step (fun p i => p.executesSPM i = false)
      (Program.start pushStoreSpm true none)
      (Program.turns 2 ++ [Program.go, Program.go])).bind fun x =>
      (x.2.step Program.go).map fun y =>
        decide (y.2.machine.state.flash 0 ≠ x.2.machine.state.flash 0)) = some true := by
    decide +kernel
  obtain ⟨⟨es, p⟩, fed, next⟩ := Option.bind_eq_some_iff.mp h
  obtain ⟨⟨e, q⟩, taken, changed⟩ := Option.map_eq_some_iff.mp next
  have hit := of_decide_eq_true changed
  obtain ⟨kept, step⟩ := flash_is_immutable pushStoreSpm true none
  exact ⟨_, p, q, e, run_of_feed fed, kept _ _ (run_of_feed fed), taken, hit,
    ((step _ _ _ _ taken).1 0 hit).1⟩

end AvrEmulator
