import AvrEmulator.Disasm
import AvrEmulator.Faults
import AvrEmulator.Skips

/-! What is reported when the program fails, and which program counter a report names: it
can be read off the state before the instruction. An instruction reports exactly where it
faults. -/

namespace AvrEmulator

open Checked Transition

namespace ErrorReport

/-- What is copied to `g_emu_last_error`. -/
def text : ErrorReport → String
  | .plain message => message
  | .file path message => if path = "" then message else message ++ " ('" ++ path ++ "')"
  | .pc a message => message ++ " at PC " ++ hex16 a
  | .pcInstr a instruction message =>
    message ++ " at PC " ++ hex16 a ++ " (" ++ hex16 instruction ++ ")"
  | .pcAddr a instruction addr access detail =>
    detail ++ " at PC " ++ hex16 a ++ " (instr " ++ hex16 instruction ++ ") addr " ++
      hex16 addr ++ " (" ++ access ++ ")"

/-- The program counter that a report names. -/
def names : ErrorReport → Option Word
  | .plain _ | .file _ _ => none
  | .pc a _ | .pcInstr a _ _ | .pcAddr a _ _ _ _ => some a

end ErrorReport

/-- The program counter in the reports of the next instruction: its own, but what lies
behind it where the end of flash cuts it in two and where it is to skip. -/
def Machine.reportedPc (m : Machine) : Word :=
  match m.nextOpcode with
  | some row =>
    if row.op.skips = true ∨ row.words = 2 ∧ avrFlashSize ≤ m.state.pc.toNat + 3 then
      m.state.pc + 2
    else m.state.pc
  | none => m.state.pc

theorem Machine.reportedPc_same {m n : Machine} (state : n.state = m.state) :
    n.reportedPc = m.reportedPc := by
  unfold reportedPc nextOpcode flashWord
  rw [state]

/-- A fault is reported, and a report is a fault. What is reported satisfies `P`. -/
structure Logs (P : ErrorReport → Prop) (m m' : Machine) : Prop where
  faultPc : m'.error.faultPc = m.error.faultPc
  reports : ∃ new, m'.error.reports = m.error.reports ++ new ∧ (∀ r ∈ new, P r) ∧
    m'.fault = (m.fault || !new.isEmpty)

namespace Logs

variable {P : ErrorReport → Prop} {a b c : Machine}

theorem silent (faultPc : b.error.faultPc = a.error.faultPc)
    (reports : b.error.reports = a.error.reports) (fault : b.fault = a.fault) : Logs P a b :=
  ⟨faultPc, [], by rw [reports, List.append_nil], by simp, by rw [fault]; simp⟩

theorem refl (m : Machine) : Logs P m m := silent rfl rfl rfl

theorem trans (first : Logs P a b) (second : Logs P b c) : Logs P a c := by
  obtain ⟨xs, reports, named, fault⟩ := first.reports
  obtain ⟨ys, reports', named', fault'⟩ := second.reports
  refine ⟨second.faultPc.trans first.faultPc, xs ++ ys, ?_, ?_, ?_⟩
  · rw [reports', reports, List.append_assoc]
  · intro r member
    rcases List.mem_append.mp member with old | new
    · exact named r old
    · exact named' r new
  · rw [fault', fault]
    cases xs <;> cases ys <;> simp

/-- A report and a fault. -/
theorem signal (m : Machine) {r : ErrorReport} (named : P r) :
    Logs P m { m with fault := true, error := m.error.report r } := by
  refine ⟨rfl, [r], rfl, ?_, by simp⟩
  rw [List.forall_mem_singleton]
  exact named

end Logs

/-- The reports name the address of the instruction. -/
def LogsHere (m m' : Machine) : Prop := Logs (·.names = some m.error.faultPc) m m'

theorem logsHere_preorder : IsPreorder Machine LogsHere where
  refl m := .refl m
  trans a b c first second := by
    have second : Logs (·.names = some b.error.faultPc) b c := second
    rw [first.faultPc] at second
    exact Logs.trans first second

theorem onCpu_logs {α : Type} (x : Cpu α) : Respects LogsHere (onCpu x) := by
  intro m a m' run
  obtain ⟨s, -, rfl⟩ := onCpu_inv run
  exact .silent rfl rfl rfl

theorem logs_walk : EmuWalk (fun _ _ => True) fun _ x => Respects LogsHere x where
  cpu := CpuRules.all.walk
  pure := respects_pure logsHere_preorder
  bind := respects_bind logsHere_preorder
  read _ rest := respects_get_bind fun m => rest m m
  onCpu _ := onCpu_logs _
  callUartRead io := by
    intro m value m' run
    cases run
    exact .silent rfl rfl rfl
  faultDataAddr _ _ := respects_modify fun m => .signal m rfl
  faultStack _ := respects_modify fun m => .signal m rfl
  faultLpm _ := by
    intro m u m' run
    cases run
    exact .signal m rfl

theorem writeDataByte_logs (addr : Word) (value : Byte) :
    Respects LogsHere (writeDataByte addr value) := by
  apply respects_get_bind
  intro m b m' run
  split at run
  · exact onCpu_logs _ _ _ _ run
  split at run
  · exact logs_walk.setSp _ _ _ _ run
  split at run
  · exact logs_walk.setSp _ _ _ _ run
  split at run
  · cases run
    exact .silent rfl rfl rfl
  split at run
  · cases run
    exact .silent rfl rfl rfl
  split at run
  · cases run
    exact .silent rfl rfl rfl
  split at run
  · cases run
    exact .silent rfl rfl rfl
  split at run
  · exact logs_walk.faultDataAddr _ _ _ _ _ run
  · exact onCpu_logs _ _ _ _ run

/-- A skip reports where the instruction is that it cannot skip. -/
theorem skipNextInstruction_logs {context : String} {m m' : Machine}
    (run : (skipNextInstruction context).run m = some ((), m')) :
    Logs (·.names = some m.state.pc) m m' := by
  change ((get : Emu Machine) >>= _).run m = _ at run
  simp only [run_get_bind] at run
  by_cases inside : m.state.pc.toNat + 1 < avrFlashSize
  · rw [if_neg (Nat.not_le.mpr inside), run_bind_of (run_fetchWord inside)] at run
    cases decoded : decodeInstruction (m.flashWord m.state.pc.toNat) with
    | none =>
      rw [decoded] at run
      cases run
      exact .signal m rfl
    | some next =>
      rw [decoded] at run
      cases run
      exact .silent rfl rfl rfl
  · rw [if_pos (Nat.not_lt.mp inside)] at run
    cases run
    exact .signal m rfl

theorem skip_logs {row : Opcode} {op : Skip} {instr secondWord : Word} {m m' : Machine}
    (hop : skip row.op = some op)
    (run : (dispatch row instr secondWord).run m = some ((), m')) :
    Logs (·.names = some m.state.pc) m m' := by
  rw [op.dispatch_eq hop] at run
  obtain ⟨u, context, tested⟩ := op.run_program instr m
  rw [tested] at run
  have read : Logs (·.names = some m.state.pc) m { m with uart := u } := .silent rfl rfl rfl
  cases taken : op.condition instr m with
  | false =>
    rw [taken] at run
    cases run
    exact read
  | true =>
    rw [taken] at run
    obtain ⟨⟨⟩, m₁, skipped, charged⟩ := bind_inv run
    cases charged
    exact read.trans ((skipNextInstruction_logs skipped).trans (.silent rfl rfl rfl))

theorem dispatch_logs {row : Opcode} {instr secondWord : Word} {m m' : Machine}
    (run : (dispatch row instr secondWord).run m = some ((), m')) :
    Logs (·.names = some (if row.op.skips = true then m.state.pc else m.error.faultPc)) m m' := by
  cases skips : row.op.skips with
  | true =>
    obtain ⟨op, hop⟩ : ∃ op, skip row.op = some op := by
      cases h : row.op <;> rw [h] at skips <;> first | exact ⟨_, rfl⟩ | cases skips
    exact skip_logs hop run
  | false =>
    refine dispatch_walk logs_walk row instr secondWord ?_ ?_ ?_ ?_ _ _ _ run
    · exact fun _ => writeDataByte_logs
    · intro set
      rw [skips] at set
      cases set
    · exact fun _ => trivial
    · exact fun _ => trivial

/-! ## One turn -/

/-- There is something to show, and all of it names this program counter. -/
structure Diagnosed (pc : Word) (m m' : Machine) : Prop where
  reports : ∃ new, m'.error.reports = m.error.reports ++ new ∧ new ≠ [] ∧
    ∀ r ∈ new, r.names = some pc

theorem Diagnosed.one {m m' : Machine} {pc : Word} {r : ErrorReport}
    (reports : m'.error.reports = m.error.reports ++ [r]) (named : r.names = some pc) :
    Diagnosed pc m m' := by
  refine ⟨[r], reports, by simp, ?_⟩
  rw [List.forall_mem_singleton]
  exact named

theorem Diagnosed.lastError {m m' : Machine} {pc : Word} (h : Diagnosed pc m m') :
    ∃ r, m'.error.lastError = some r ∧ r.names = some pc := by
  obtain ⟨new, reports, some, named⟩ := h.reports
  refine ⟨new.getLast some, ?_, named _ (List.getLast_mem some)⟩
  rw [ErrorState.lastError, reports, List.getLast?_append_of_ne_nil _ some,
    List.getLast?_eq_some_getLast some]

/-- Instructions that skip are one word long. -/
theorem words_of_skips {w : Word} {row : Opcode} (found : decodeInstruction w = some row)
    (skips : row.op.skips = true) : row.words ≠ 2 := by
  have rows : ∀ row ∈ opcodeTable, row.op.skips = true → row.words ≠ 2 := by decide +kernel
  exact rows row (MaskTable.lookup_match found).1 skips

theorem fetchSecond_logs {m m' : Machine} {found : Option Fetched} {op : Opcode} {instr : Word}
    (run : (fetchSecond op instr).run m = some (found, m')) :
    (∃ f, found = some f ∧ f.op = op) ∧ m.state.pc.toNat + 1 < avrFlashSize ∧
        m'.error = m.error ∨
      found = none ∧ avrFlashSize ≤ m.state.pc.toNat + 1 ∧
        ∃ r, m'.error = m.error.report r ∧ r.names = some m.state.pc := by
  change ((get : Emu Machine) >>= _).run m = _ at run
  rw [run_get_bind] at run
  dsimp only at run
  split at run
  next cut =>
    cases run
    exact .inr ⟨rfl, cut, _, rfl, rfl⟩
  next room =>
    have room := Nat.not_le.mp room
    rw [run_bind_of (run_fetchWord room)] at run
    cases run
    exact .inl ⟨⟨_, rfl, rfl⟩, room, rfl⟩

/-- A complete fetch is silent and leaves the program counter where a skip reports it; any
other is diagnosed. -/
theorem fetch_logs {m m' : Machine} {found : Option Fetched}
    (run : fetch.run m = some (found, m')) :
    (∃ f, found = some f ∧
      m.reportedPc = if f.op.op.skips = true then m'.state.pc else m'.error.faultPc) ∧
      m'.error.reports = m.error.reports ∨
    found = none ∧ Diagnosed m.reportedPc m m' := by
  by_cases inside : m.state.pc.toNat + 1 < avrFlashSize
  · rw [run_fetch_inside inside] at run
    cases decoded : decodeInstruction (m.flashWord m.state.pc.toNat) with
    | none =>
      rw [decoded] at run
      cases run
      refine .inr ⟨rfl, .one rfl ?_⟩
      rw [Machine.reportedPc, Machine.nextOpcode, if_pos inside, decoded]
      rfl
    | some row =>
      have named : m.reportedPc = if row.op.skips = true ∨
          row.words = 2 ∧ avrFlashSize ≤ m.state.pc.toNat + 3 then m.state.pc + 2
          else m.state.pc := by
        rw [Machine.reportedPc, Machine.nextOpcode, if_pos inside, decoded]
      rw [decoded] at run
      dsimp only at run
      split at run
      next long =>
        have plain : ¬ row.op.skips = true := fun skips => words_of_skips decoded skips long
        rcases fetchSecond_logs run with ⟨⟨f, rfl, rfl⟩, room, same⟩ | ⟨rfl, cut, r, report, names⟩
        · refine .inl ⟨⟨f, rfl, ?_⟩, by rw [same]; rfl⟩
          rw [fetchedWord_pc inside] at room
          rw [named, if_neg (by simp [plain]; omega), if_neg plain, same]
          rfl
        · rw [fetchedWord_pc inside] at cut
          refine .inr ⟨rfl, .one (by rw [report]; rfl) ?_⟩
          rw [named, if_pos (.inr ⟨long, cut⟩)]
          exact names
      next short =>
        cases run
        refine .inl ⟨⟨_, rfl, ?_⟩, rfl⟩
        rw [named]
        simp only [short, false_and, or_false]
        rfl
  · rw [run_fetch_outside (Nat.not_lt.mp inside)] at run
    cases run
    refine .inr ⟨rfl, .one rfl ?_⟩
    rw [Machine.reportedPc, Machine.nextOpcode, if_neg inside]
    rfl

/-- An instruction that is executed reports nothing, and one that fails does. -/
theorem fetchExecute_logs {m m' : Machine} {outcome : Outcome}
    (run : fetchExecute.run m = some (outcome, m')) :
    (outcome = .failed → Diagnosed m.reportedPc m m') ∧
      (outcome = .executed → m'.error.reports = m.error.reports) := by
  obtain ⟨found, m₀, fetched, run⟩ := bind_inv run
  rcases fetch_logs fetched with ⟨⟨f, rfl, named⟩, silent⟩ | ⟨rfl, diagnosed⟩
  · obtain ⟨m₁, done, -⟩ := execute_inv run
    obtain ⟨new, reports, names, fault⟩ := (dispatch_logs done).reports
    change m₁.error.reports = m₀.error.reports ++ new at reports
    change ∀ r ∈ new, r.names =
      some (if f.op.op.skips = true then m₀.state.pc else m₀.error.faultPc) at names
    rw [silent] at reports
    rw [← named] at names
    change m₁.fault = (false || !new.isEmpty) at fault
    have executed := run_execute done
    cases set : m₁.fault with
    | true =>
      rw [set, if_pos rfl] at executed
      cases executed.symm.trans run
      refine ⟨fun _ => ⟨new, reports, ?_, names⟩, nofun⟩
      rintro rfl
      rw [set] at fault
      cases fault
    | false =>
      rw [set, if_neg Bool.false_ne_true] at executed
      cases executed.symm.trans run
      rw [set] at fault
      refine ⟨nofun, fun _ => ?_⟩
      have none : new = [] := by simpa using fault.symm
      rw [none, List.append_nil] at reports
      exact reports
  · cases run
    exact ⟨fun _ => diagnosed, nofun⟩

theorem acknowledge_error (vec : InterruptVector) (m : Machine) :
    (acknowledge vec m).error = m.error := by
  unfold acknowledge
  repeat' split
  all_goals rfl

namespace Program

theorem settled_servicePoint_error (p : Program) (stdin : Option Byte) :
    (p.servicePoint stdin).settled.error = p.machine.error := by
  obtain ⟨i, settled⟩ := settled_frame (p.servicePoint stdin)
  obtain ⟨u, j, service⟩ := p.servicePoint_frame stdin
  rw [settled, service]

/-- With room for return addresses, a step reports exactly where it returns false. -/
theorem step_diagnosed {p q : Program} {i : Input} {e : Event} (ready : p.StackReady i)
    (taken : p.step i = some (e, q)) :
    (e = .returned false → Diagnosed p.machine.reportedPc p.machine q.machine) ∧
      (e ≠ .returned false → q.machine.error.reports = p.machine.error.reports) := by
  rcases step_cases taken with ⟨stop, pause, stdin, rfl, body, turn⟩ | ⟨⟨u, same⟩, other⟩
  · have before := p.settled_servicePoint_error stdin
    cases turn_cases turn with
    | @dispatched vec dispatches =>
      refine ⟨fun failed => absurd failed (by simp), fun _ => ?_⟩
      have sp : (p.servicePoint stdin).settled.state.sp = p.machine.state.sp := by
        rw [p.settled_servicePoint_state]
      have room := ready body vec dispatches
      rw [← sp] at room
      obtain ⟨sram, timer0, pushed⟩ := pushedWord_room
        (p.servicePoint stdin).settled.state.pc room
      rw [acknowledge_error, Machine.entered, pushed, ← before]
      rfl
    | executed _ run =>
      have logs := (fetchExecute_logs run).2 rfl
      refine ⟨fun failed => absurd failed (by simp), fun _ => ?_⟩
      rw [advance_machine, ← before]
      exact logs
    | failed _ run =>
      obtain ⟨new, reports, some, named⟩ := ((fetchExecute_logs run).1 rfl).reports
      rw [before] at reports
      rw [Machine.reportedPc_same (p.settled_servicePoint_state stdin)] at named
      exact ⟨fun _ => ⟨new, reports, some, named⟩, fun other => absurd rfl other⟩
  · have error : q.machine.error = p.machine.error := by rw [same]
    refine ⟨fun failed => ?_, fun _ => by rw [error]⟩
    rw [failed] at other
    rcases other with idle | returned
    · cases idle
    · cases returned

theorem returned_control {p q : Program} {i : Input} {result : Bool}
    (taken : p.step i = some (.returned result, q)) : q.control = .done result := by
  cases i with
  | injectRx | popTx => cases taken
  | loop stop pause stdin =>
    cases control : p.control with
    | body =>
      rw [step_body control] at taken
      cases turn_cases taken with
      | failed => rfl
    | done =>
      rw [step, control] at taken
      cases taken
    | head =>
      rw [step, control] at taken
      dsimp only at taken
      split at taken <;> cases taken
      rfl
    | paused =>
      rw [step, control] at taken
      dsimp only at taken
      split at taken <;> cases taken

theorem run_silent {p q : Program} {trace : List (Input × Event)}
    (run : Run step StackReady p trace q) (calm : ∀ x ∈ trace, x.2 ≠ .returned false) :
    q.machine.error.reports = p.machine.error.reports := by
  induction run with
  | nil p => rfl
  | cons ready taken _ ih =>
    rw [List.forall_mem_cons] at calm
    rw [ih calm.2]
    exact (step_diagnosed ready taken).2 calm.1

end Program

/-- In a run whose steps all find room for the return address they push, the log grows in
the turn that returns false and in no other, and all that it then gains names the program
counter that can be read off the state before that turn. -/
theorem failures_are_diagnosed {p q : Program} {trace : List (Input × Event)}
    (run : Run Program.step Program.StackReady p trace q) :
    ((∀ x ∈ trace, x.2 ≠ .returned false) ∧
      q.machine.error.reports = p.machine.error.reports) ∨
    ∃ before i later u, trace = before ++ (i, .returned false) :: later ∧
      Run Program.step Program.StackReady p before u ∧
      Diagnosed u.machine.reportedPc p.machine q.machine ∧
      ∃ r, q.machine.error.lastError = some r ∧ r.names = some u.machine.reportedPc := by
  by_cases failed : ∃ x ∈ trace, x.2 = .returned false
  · refine .inr ?_
    induction run with
    | nil => simp at failed
    | @cons p v q i e trace ready taken rest ih =>
      have step := Program.step_diagnosed ready taken
      by_cases returned : e = .returned false
      · subst returned
        have quiet : ∀ x ∈ trace, x.2 ≠ .returned false := by
          intro x member idle
          have control := Program.returned_control taken
          rw [(Program.done_is_final rest control).2 x member] at idle
          cases idle
        obtain ⟨new, reports, some, named⟩ := (step.1 rfl).reports
        have diagnosed : Diagnosed p.machine.reportedPc p.machine q.machine :=
          ⟨new, (Program.run_silent rest quiet).trans reports, some, named⟩
        exact ⟨[], i, trace, p, rfl, .nil p, diagnosed, diagnosed.lastError⟩
      · have later : ∃ x ∈ trace, x.2 = .returned false := by
          obtain ⟨x, member, hit⟩ := failed
          rcases List.mem_cons.mp member with rfl | member
          · exact absurd hit returned
          · exact ⟨x, member, hit⟩
        obtain ⟨before, j, after, u, rfl, first, diagnosed, last⟩ := ih later
        obtain ⟨new, reports, some, named⟩ := diagnosed.reports
        rw [step.2 returned] at reports
        exact ⟨(i, e) :: before, j, after, u, rfl, .cons ready taken first,
          ⟨new, reports, some, named⟩, last⟩
  · have calm : ∀ x ∈ trace, x.2 ≠ .returned false := fun x member hit => failed ⟨x, member, hit⟩
    exact .inl ⟨calm, Program.run_silent run calm⟩

/-- LDS R0 from the invalid address 0xFFFF, as the first instruction. -/
def misreading : Program := .start (.initial (Program.firmware [0x9000, 0xFFFF])) true none

/-- CPSE R0, R0 before a word that is no instruction. -/
def misskipping : Program := .start (.initial (Program.firmware [0x1000, 0x0001])) true none

/-- Interrupts are off. -/
def Program.Masked (p : Program) (_ : Input) : Prop := p.machine.state.getFlag .I = false

instance (p : Program) (i : Input) : Decidable (p.Masked i) :=
  inferInstanceAs (Decidable (_ = _))

theorem Program.Masked.ready {p : Program} {i : Input} (masked : p.Masked i) : p.StackReady i :=
  stackReady_of_disabled masked i

/-- A run ends with this report, from a turn that was to report this program counter. -/
structure Program.Diagnosis (p : Program) (pc : Word) (text : String) : Prop where
  run : ∃ trace q r, Run step StackReady p trace q ∧ q.machine.error.lastError = some r ∧
    r.text = text ∧ ∃ before i later u, trace = before ++ (i, .returned false) :: later ∧
      Run step StackReady p before u ∧ u.machine.reportedPc = pc ∧ r.names = some pc

theorem misreading_is_diagnosed :
    misreading.Diagnosis 0x0000
      "invalid data-space access at PC 0x0000 (instr 0x9000) addr 0xFFFF (read)" ∧
    misskipping.Diagnosis 0x0002
      "CPSE skip: unknown next instruction at PC 0x0002 (0x0001)" := by
  have reads : (feed Program.step Program.Masked misreading (Program.turns 1)).map
      (fun x => (x.1, x.2.machine.error.lastError.map fun r => (r.names, r.text))) =
        some ([.idle, .idle, .returned false], some (some 0x0000,
          "invalid data-space access at PC 0x0000 (instr 0x9000) addr 0xFFFF (read)")) := by
    decide +kernel
  have skips : (feed Program.step Program.Masked misskipping (Program.turns 1)).map
      (fun x => (x.1, x.2.machine.error.lastError.map fun r => (r.names, r.text))) =
        some ([.idle, .idle, .returned false], some (some 0x0002,
          "CPSE skip: unknown next instruction at PC 0x0002 (0x0001)")) := by
    decide +kernel
  constructor
  · obtain ⟨⟨es, q⟩, fed, shown⟩ := Option.map_eq_some_iff.mp reads
    obtain ⟨rfl, shown⟩ := Prod.mk.inj shown
    have run := (run_of_feed fed).mono fun _ _ => Program.Masked.ready
    rcases failures_are_diagnosed run with
      ⟨calm, -⟩ | ⟨before, i, later, u, turn, first, -, r, last, named⟩
    · simp [Program.turns] at calm
    · rw [last] at shown
      obtain ⟨names, text⟩ := Prod.mk.inj (Option.some.inj shown)
      have pc : u.machine.reportedPc = 0x0000 := Option.some.inj (named.symm.trans names)
      exact ⟨_, q, r, run, last, text, before, i, later, u, turn, first, pc, names⟩
  · obtain ⟨⟨es, q⟩, fed, shown⟩ := Option.map_eq_some_iff.mp skips
    obtain ⟨rfl, shown⟩ := Prod.mk.inj shown
    have run := (run_of_feed fed).mono fun _ _ => Program.Masked.ready
    rcases failures_are_diagnosed run with
      ⟨calm, -⟩ | ⟨before, i, later, u, turn, first, -, r, last, named⟩
    · simp [Program.turns] at calm
    · rw [last] at shown
      obtain ⟨names, text⟩ := Prod.mk.inj (Option.some.inj shown)
      have pc : u.machine.reportedPc = 0x0002 := Option.some.inj (named.symm.trans names)
      exact ⟨_, q, r, run, last, text, before, i, later, u, turn, first, pc, names⟩

end AvrEmulator
