import AvrEmulator.DecodeForms
import AvrEmulator.Fetch
import AvrEmulator.Latency
import AvrEmulator.OperandFields
import AvrEmulator.OutOfRange

/-! Jumps, calls and branches: where they send the program counter, and what is
fetched there. -/

namespace AvrEmulator

open Checked Transition

/-- The control transfers whose target the instruction or Z gives. -/
inductive Jump where
  | long (call : Bool)
  | indirect (call : Bool)
  | relative (call : Bool)
  | branch (set : Bool)
  deriving DecidableEq, Repr

def jump : AvrOp → Option Jump
  | .JMP => some (.long false)
  | .CALL => some (.long true)
  | .IJMP => some (.indirect false)
  | .ICALL => some (.indirect true)
  | .RJMP => some (.relative false)
  | .RCALL => some (.relative true)
  | .BRBC | .BRCC | .BRGE | .BRHC | .BRID | .BRNE | .BRPL | .BRSH | .BRTC | .BRVC =>
    some (.branch false)
  | .BRBS | .BRCS | .BREQ | .BRHS | .BRIE | .BRLO | .BRLT | .BRMI | .BRTS | .BRVS =>
    some (.branch true)
  | _ => none

namespace Jump

/-- The exact word address, from the state at the instruction. A branch that is not
taken has none. -/
def target (j : Jump) (w second : Word) (s : AvrState) : Option Int :=
  match j with
  | .long _ => some (w.extractLsb' 4 5 ++ w.extractLsb' 0 1 ++ second).toNat
  | .indirect _ => some (s.pointer 30).toNat
  | .relative _ => some (s.pc.toNat / 2 + 1 + (w.extractLsb' 0 12).toInt)
  | .branch set =>
    if s.sreg.getLsbD (w.extractLsb' 0 3).toNat = set then
      some (s.pc.toNat / 2 + 1 + (w.extractLsb' 3 7).toInt)
    else none

/-- The target does not depend on where the instruction is. -/
def absolute : Jump → Bool
  | .long _ | .indirect _ => true
  | .relative _ | .branch _ => false

def program (j : Jump) (w second : Word) : Emu Unit :=
  match j with
  | .long false => onCpu (executeJMP (decodeK22 w second))
  | .long true => executeCALL (decodeK22 w second)
  | .indirect false => onCpu executeIJMP
  | .indirect true => executeICALL
  | .relative false => onCpu (executeRJMP (decodeK02 w))
  | .relative true => executeRCALL (decodeK02 w)
  | .branch set => onCpu (branchIf set (decodeK7 w))

theorem dispatch_eq {row : Opcode} {j : Jump} (hj : jump row.op = some j) (w second : Word) :
    dispatch row w second = j.program w second := by
  unfold jump at hj
  split at hj
  all_goals cases hj
  all_goals next h => simp only [dispatch, h, program, executeBRBC, executeBRBS]

end Jump

theorem offset_pc (pc : Word) (k : Int) : pc + 2 + BitVec.ofInt 16 k * 2 =
    BitVec.ofInt 16 (2 * (pc.toNat / 2 + 1 + k) + (pc.toNat % 2 : Nat)) := by
  have sum : 2 * ((pc.toNat : Int) / 2 + 1 + k) + (pc.toNat % 2 : Nat) = pc.toNat + 2 + k * 2 := by
    omega
  rw [sum, BitVec.ofInt_add, BitVec.ofInt_add, BitVec.ofInt_mul, BitVec.ofInt_natCast,
    BitVec.ofNat_toNat, BitVec.setWidth_eq]
  rfl

theorem double_pc (z : Word) : z * 2 = BitVec.ofInt 16 (2 * z.toNat) := by
  have twice : (2 * z.toNat : Int) = (2 * z.toNat : Nat) := by push_cast; rfl
  apply BitVec.eq_of_toNat_eq
  rw [twice, BitVec.ofInt_natCast, BitVec.toNat_mul, BitVec.toNat_ofNat, Nat.mul_comm]
  rfl

/-- The bits of a long target above the second word do not reach the program counter. -/
theorem double_long (high : BitVec 6) (second : Word) :
    second * 2 = BitVec.ofInt 16 (2 * (high ++ second).toNat) := by
  have twice : (2 * (high ++ second).toNat : Int) = (2 * (high ++ second).toNat : Nat) := by
    push_cast; rfl
  apply BitVec.eq_of_toNat_eq
  rw [twice, BitVec.ofInt_natCast, BitVec.toNat_mul, BitVec.toNat_ofNat, BitVec.toNat_append,
    Nat.shiftLeft_eq, ← Nat.shiftLeft_eq, ← Nat.shiftLeft_add_eq_or_of_lt second.isLt,
    Nat.shiftLeft_eq]
  change second.toNat * 2 % 65536 = _
  omega

/-- Signed byte offsets of a branch survive the extension to 16 bits. -/
theorem branch_offset (x : BitVec 7) :
    (x.signExtend 8).signExtend 16 = BitVec.ofInt 16 x.toInt := by
  change BitVec.ofInt 16 (x.signExtend 8).toInt = _
  rw [BitVec.toInt_signExtend_of_le (by decide)]

/-- A push leaves the program counter and the registers alone. -/
theorem pushed_cpu (m : Machine) (v : Byte) :
    (m.pushed v).state.pc = m.state.pc ∧ (m.pushed v).state.r = m.state.r := by
  unfold Machine.pushed
  split
  next room =>
    obtain ⟨sram, timer0, stored, -⟩ := store_sram_frame m v room.1 room.2
    rw [stored]
    exact ⟨rfl, rfl⟩
  next => exact ⟨rfl, rfl⟩

theorem pushedWord_cpu (m : Machine) (value : Word) :
    (m.pushedWord value).state.pc = m.state.pc ∧ (m.pushedWord value).state.r = m.state.r := by
  obtain ⟨pc, r⟩ := pushed_cpu m ((value &&& 0xFF).setWidth 8)
  obtain ⟨pc', r'⟩ := pushed_cpu (m.pushed ((value &&& 0xFF).setWidth 8))
    ((value >>> 8).setWidth 8)
  exact ⟨pc'.trans pc, r'.trans r⟩

theorem run_executeIJMP (m : Machine) : (onCpu executeIJMP).run m =
    some ((), m.setState { m.state with pc := m.state.pointer 30 * 2 }) := by
  have pointer : (readRegWord 30).run m.state = some (m.state.pointer 30, m.state) :=
    run_readRegWord (by decide)
  apply run_onCpu
  rw [executeIJMP, run_bind_of pointer]
  rfl

namespace Jump

/-- The byte that a relative transfer keeps of an odd program counter. -/
def odd (j : Jump) (s : AvrState) : Nat :=
  match j with
  | .long _ | .indirect _ => 0
  | .relative _ | .branch _ => s.pc.toNat % 2

/-- Without the push: twice the exact target, cut to 16 bits. -/
theorem run_long {w second : Word} {s : AvrState} {m : Machine} {T : Int}
    (target : (long false).target w second s = some T) :
    ∃ m', ((long false).program w second).run m = some ((), m') ∧
      m'.state.pc = BitVec.ofInt 16 (2 * T) := by
  cases target
  exact ⟨_, rfl, (Form.decodeK22_target w second).trans (double_long _ _)⟩

theorem run_indirect {w second : Word} {s : AvrState} {m : Machine} {T : Int}
    (past : m.state.r = s.r) (target : (indirect false).target w second s = some T) :
    ∃ m', ((indirect false).program w second).run m = some ((), m') ∧
      m'.state.pc = BitVec.ofInt 16 (2 * T) := by
  cases target
  refine ⟨_, run_executeIJMP m, ?_⟩
  have pointer : m.state.pointer 30 = s.pointer 30 := by
    simp only [AvrState.pointer, AvrState.reg, past]
  rw [← pointer]
  exact double_pc _

theorem run_relative {w second : Word} {s : AvrState} {m : Machine} {T : Int}
    (past : m.state.pc = s.pc + 2) (target : (relative false).target w second s = some T) :
    ∃ m', ((relative false).program w second).run m = some ((), m') ∧
      m'.state.pc = BitVec.ofInt 16 (2 * T + (s.pc.toNat % 2 : Nat)) := by
  cases target
  refine ⟨_, rfl, ?_⟩
  change m.state.pc + (decodeK02 w).k * 2 = _
  rw [past, decodeK02_k]
  exact offset_pc _ _

theorem run_branch {set : Bool} {w second : Word} {s : AvrState} {m : Machine} {T : Int}
    (past : m.state.pc = s.pc + 2) (flags : m.state.sreg = s.sreg)
    (target : (branch set).target w second s = some T) :
    ∃ m', ((branch set).program w second).run m = some ((), m') ∧
      m'.state.pc = BitVec.ofInt 16 (2 * T + (s.pc.toNat % 2 : Nat)) := by
  unfold Jump.target at target
  dsimp only at target
  split at target
  next taken =>
    cases target
    have test : sregBit m.state.sreg (decodeK7 w).s.toNat = set := by
      rw [flags, sregBit_eq, decodeK7_s]
      exact taken
    have run : (branchIf set (decodeK7 w)).run m.state = some ((), { m.state with
        pc := m.state.pc + (decodeK7 w).k.signExtend 16 * 2
        extraCycles := 1 }) := by
      rw [branchIf, run_get_bind, if_pos test]
      rfl
    refine ⟨_, run_onCpu run, ?_⟩
    · change m.state.pc + (decodeK7 w).k.signExtend 16 * 2 = _
      rw [past, decodeK7_k, branch_offset]
      exact offset_pc _ _
  · cases target

/-- Twice the exact target, cut to 16 bits. -/
theorem run_program {j : Jump} {w second : Word} {s : AvrState} {m : Machine} {T : Int}
    (past : j.absolute = false → m.state.pc = s.pc + 2) (registers : m.state.r = s.r)
    (flags : m.state.sreg = s.sreg) (target : j.target w second s = some T) :
    ∃ m', (j.program w second).run m = some ((), m') ∧
      m'.state.pc = BitVec.ofInt 16 (2 * T + j.odd s) := by
  obtain ⟨pc, r⟩ := pushedWord_cpu m m.state.pc
  have called {j k : Jump} (h : j.program w second = do pushPc; k.program w second) :
      (j.program w second).run m = (k.program w second).run (m.pushedWord m.state.pc) := by
    rw [h]
    exact run_bind_of (run_pushPc m) _
  have even (x : Int) : x + (0 : Nat) = x := Int.add_zero x
  cases j with
  | long call =>
    rw [show (long call).odd s = 0 from rfl, even]
    cases call with
    | false => exact run_long target
    | true =>
      rw [called (k := long false) rfl]
      exact run_long (s := s) target
  | indirect call =>
    rw [show (indirect call).odd s = 0 from rfl, even]
    cases call with
    | false => exact run_indirect registers target
    | true =>
      rw [called (k := indirect false) rfl]
      exact run_indirect (r.trans registers) target
  | relative call =>
    cases call with
    | false => exact run_relative (past rfl) target
    | true =>
      rw [called (k := relative false) rfl]
      exact run_relative (pc.trans (past rfl)) target
  | branch set => exact run_branch (past rfl) flags target

/-- Only a long jump or call takes two words. -/
theorem words_of_jump {w : Word} {row : Opcode} {j : Jump}
    (found : decodeInstruction w = some row) (hj : jump row.op = some j)
    (relative : j.absolute = false) : row.words ≠ 2 := by
  have rows : ∀ row ∈ opcodeTable, (jump row.op).all absolute = true ∨ row.words ≠ 2 := by
    decide +kernel
  rcases rows row (MaskTable.lookup_match found).1 with long | short
  · rw [hj] at long
    exact absurd long (by simp [relative])
  · exact short

theorem target_bounds {j : Jump} {w second : Word} {s : AvrState} {T : Int}
    (inside : s.pc.toNat + 1 < avrFlashSize) (target : j.target w second s = some T) :
    if j.absolute then 0 ≤ T else -2048 < T ∧ T < 18432 := by
  have flash : s.pc.toNat + 1 < 32768 := inside
  cases j with
  | long call =>
    cases target
    exact Int.natCast_nonneg _
  | indirect call =>
    cases target
    exact Int.natCast_nonneg _
  | relative call =>
    cases target
    have lower := BitVec.le_toInt (w.extractLsb' 0 12)
    have upper := BitVec.toInt_lt (x := w.extractLsb' 0 12)
    constructor <;> omega
  | branch set =>
    unfold Jump.target at target
    dsimp only at target
    split at target
    · cases target
      have lower := BitVec.le_toInt (w.extractLsb' 3 7)
      have upper := BitVec.toInt_lt (x := w.extractLsb' 3 7)
      constructor <;> omega
    · cases target

end Jump

/-! ## The iteration after a transfer -/

/-- A word address of program memory. -/
def InFlash (T : Int) : Prop := 0 ≤ T ∧ T < 16384

instance (T : Int) : Decidable (InFlash T) := inferInstanceAs (Decidable (_ ∧ _))

/-- How the loop is to go on at `r`, its body next, after a transfer to `T`. -/
structure JumpLaw (r : Program) (stdin : Option Byte) (T : Int) : Prop where
  outside : ¬ InFlash T → (r.servicePoint stdin).settled.fetched = none ∧
    ∀ stop pause, ∃ t, r.step (.loop stop pause stdin) = some (.returned false, t) ∧
      t.machine.error.lastError =
        some (.pc r.machine.state.pc "program counter out of flash bounds")
  inside : InFlash T → r.machine.state.pc.toNat = 2 * T ∧
    ∀ f m, r.NextInstruction stdin f m → f.instruction = r.machine.flashWord (2 * T).toNat

/-- An absolute target stays outside flash when it is cut to 15 bits, and a relative
one inside flash is reached from an even address. -/
def Jump.Safe (j : Jump) (s : AvrState) (T : Int) : Prop :=
  if j.absolute then InFlash T ∨ 16384 ≤ T % 32768 else ¬ InFlash T ∨ s.pc.toNat % 2 = 0

/-- Past the end of flash the loop stops with a report. -/
theorem step_outside {r : Program} {stdin : Option Byte} (body : r.control = .body)
    (idle : (r.servicePoint stdin).dispatches = none)
    (past : avrFlashSize ≤ r.machine.state.pc.toNat + 1) :
    (r.servicePoint stdin).settled.fetched = none ∧
    ∀ stop pause, ∃ t, r.step (.loop stop pause stdin) = some (.returned false, t) ∧
      t.machine.error.lastError =
        some (.pc r.machine.state.pc "program counter out of flash bounds") := by
  rw [← r.settled_servicePoint_state stdin] at past ⊢
  have fetch := run_fetch_outside past
  refine ⟨by rw [Machine.fetched, fetch]; rfl, ?_⟩
  intro stop pause
  have stops : r.step (.loop stop pause stdin) = some ((r.pollUart stdin).after
      { (r.servicePoint stdin).settled with
        error := (r.servicePoint stdin).settled.error.emuErrorPc
          (r.servicePoint stdin).settled.state.pc "program counter out of flash bounds" }
      .failed) := by
    rw [Program.step_body body, Program.turn_execute idle, fetchExecute, run_bind_of fetch]
    rfl
  exact ⟨_, stops, ErrorState.lastError_report _ _⟩

/-- The loop says that the program counter left flash only where it did. -/
theorem outside_of_step {r t : Program} {stop pause : Bool} {stdin : Option Byte}
    (body : r.control = .body)
    (undelivered : (r.servicePoint stdin).settled.fetched = none)
    (returned : r.step (.loop stop pause stdin) = some (.returned false, t))
    (bounds : t.machine.error.lastError =
      some (.pc r.machine.state.pc "program counter out of flash bounds")) :
    avrFlashSize ≤ r.machine.state.pc.toNat + 1 := by
  rw [← r.settled_servicePoint_state stdin] at bounds ⊢
  rw [Program.step_body body] at returned
  cases Program.turn_cases returned with
  | @failed m _ run =>
    obtain ⟨found, m₀, fetch, run⟩ := bind_inv run
    rw [Machine.fetched, fetch] at undelivered
    cases found with
    | some f => cases undelivered
    | none =>
      cases run
      exact fetch_none_bounds fetch bounds

/-- Where the program counter must be for the loop to go on lawfully. -/
theorem jumpLaw_iff {r : Program} {stdin : Option Byte} {T : Int} (body : r.control = .body)
    (idle : (r.servicePoint stdin).dispatches = none) :
    JumpLaw r stdin T ↔
      (InFlash T → r.machine.state.pc.toNat = 2 * T) ∧
      (¬ InFlash T → avrFlashSize ≤ r.machine.state.pc.toNat + 1) := by
  constructor
  · intro law
    refine ⟨fun inside => (law.inside inside).1, ?_⟩
    intro outside
    obtain ⟨undelivered, stops⟩ := law.outside outside
    obtain ⟨t, returned, bounds⟩ := stops false false
    exact outside_of_step body undelivered returned bounds
  · rintro ⟨pc, past⟩
    refine ⟨fun outside => step_outside body idle (past outside), fun inside => ⟨pc inside, ?_⟩⟩
    rintro f m ⟨-, -, fetched⟩
    obtain ⟨-, word, -⟩ := fetch_some fetched
    rw [word, Machine.flashWord, Machine.flashWord, Program.settled_servicePoint_state,
      ← pc inside, Int.toNat_natCast]

/-- Twice the target, with the byte of an odd program counter, cut to 16 bits. -/
theorem jump_safe_iff {j : Jump} {w second pc : Word} {s : AvrState} {T : Int}
    (inside : s.pc.toNat + 1 < avrFlashSize) (target : j.target w second s = some T)
    (lands : pc = BitVec.ofInt 16 (2 * T + j.odd s)) :
    (InFlash T → pc.toNat = 2 * T) ∧ (¬ InFlash T → avrFlashSize ≤ pc.toNat + 1) ↔ j.Safe s T := by
  have bounds := Jump.target_bounds inside target
  have cut : (pc.toNat : Int) = (2 * T + j.odd s) % 65536 := by
    rw [lands, BitVec.toNat_ofInt, Int.toNat_of_nonneg (Int.emod_nonneg _ (by decide))]
    rfl
  have size : avrFlashSize = 32768 := rfl
  rw [size] at inside ⊢
  unfold Jump.Safe InFlash
  cases j with
  | long call | indirect call =>
    simp only [Jump.absolute, ↓reduceIte, Jump.odd] at *
    omega
  | relative call | branch set =>
    simp only [Jump.absolute, Bool.false_eq_true, ↓reduceIte, Jump.odd] at *
    omega

/-- The program counter after a transfer, also where the push of a call faults. -/
theorem execute_lands {f : Fetched} {m m₁ m' : Machine} {outcome : Outcome} {j : Jump} {T : Int}
    (fetched : fetch.run m = some (some f, m₁)) (hj : jump f.op.op = some j)
    (target : j.target f.instruction f.extra m.state = some T)
    (run : (execute f).run m₁ = some (outcome, m')) :
    m'.state.pc = BitVec.ofInt 16 (2 * T + j.odd m.state) := by
  have left : m₁.unfetched = m.unfetched := fetch_unfetched _ _ _ fetched
  obtain ⟨found, -, pc⟩ := fetch_some fetched
  have past (relative : j.absolute = false) : m₁.state.pc = m.state.pc + 2 := by
    rw [pc, if_neg (Jump.words_of_jump (Machine.nextOpcode_some found).2 hj relative)]
  obtain ⟨m₃, jumped, lands⟩ := Jump.run_program (j := j) (w := f.instruction) (m := { m₁ with
    state := { m₁.state with extraCycles := 0 }, fault := false })
    past (congrArg (fun m => m.state.r) left) (congrArg (fun m => m.state.sreg) left) target
  obtain ⟨m₂, done, ⟨-, -, rfl⟩ | ⟨-, advance⟩⟩ := execute_inv run
  · rw [Jump.dispatch_eq hj, jumped] at done
    cases done
    exact lands
  · rw [Jump.dispatch_eq hj, jumped] at done
    cases done
    cases advance
    exact lands

theorem execute_jump {f : Fetched} {m m₁ m' : Machine} {j : Jump} {T : Int}
    (fetched : fetch.run m = some (some f, m₁)) (hj : jump f.op.op = some j)
    (target : j.target f.instruction f.extra m.state = some T)
    (run : (execute f).run m₁ = some (.executed, m')) :
    m.state.pc.toNat + 1 < avrFlashSize ∧
      m'.state.pc = BitVec.ofInt 16 (2 * T + j.odd m.state) := by
  refine ⟨?_, execute_lands fetched hj target run⟩
  obtain ⟨found, -, -⟩ := fetch_some fetched
  exact (Machine.nextOpcode_some found).1

/-- After a jump, call or taken branch without a fault, the loop stops where the target
is outside flash and fetches there where it is inside, exactly for these targets. -/
theorem wild_jump_stops_iff {p q r : Program} {stop pause : Bool} {stdin stdin' : Option Byte}
    {f : Fetched} {m : Machine} {j : Jump} {T : Int} {trace : List (Input × Event)}
    (next : p.NextInstruction stdin f m) (hj : jump f.op.op = some j)
    (target : j.target f.instruction f.extra p.machine.state = some T)
    (taken : p.step (.loop stop pause stdin) = some (.executed, q))
    (between : Run Program.step anything q trace r) (quiet : ∀ x ∈ trace, x.2 = .idle)
    (body : r.control = .body) (idle : (r.servicePoint stdin').dispatches = none) :
    JumpLaw r stdin' T ↔ j.Safe p.machine.state T := by
  obtain ⟨u, same⟩ := Program.quiet_frame between quiet
  obtain ⟨here, undisturbed, fetched⟩ := next
  rw [Program.step_body here] at taken
  obtain ⟨m', run, rfl⟩ : ∃ m', fetchExecute.run (p.servicePoint stdin).settled =
      some (.executed, m') ∧ q.machine = m' := by
    cases Program.turn_cases taken with
    | executed _ run => exact ⟨_, run, Program.advance_machine _⟩
  rw [fetchExecute, run_bind_of fetched] at run
  rw [← p.settled_servicePoint_state stdin] at target ⊢
  obtain ⟨inside, lands⟩ := execute_jump fetched hj target run
  rw [jumpLaw_iff body idle]
  apply jump_safe_iff inside target
  rw [same]
  exact lands

/-- A reset emulator about to execute JMP to this word address. -/
def jumpTo (second : Word) : Program :=
  { Program.start (.initial (Program.firmware [0x940C, second])) true none with control := .body }

/-- The jump and the iteration after it, as `wild_jump_stops_iff` takes them. -/
theorem jump_steps {second : Word} {outcome : Event}
    (fetches : (fetch.run ((jumpTo second).servicePoint none).settled).map (fun x =>
      x.1.map fun f => (f.op.op, f.instruction, f.extra)) = some (some (.JMP, 0x940C, second)))
    (steps : ((jumpTo second).step Program.go).bind (fun x =>
      (feed Program.step anything x.2 [Program.go, Program.go]).map fun y =>
        (x.1, y.1, y.2.control, (y.2.servicePoint none).dispatches,
          (y.2.step Program.go).map Prod.fst)) =
      some (.executed, [.idle, .idle], .body, none, some outcome))
    (idle : ((jumpTo second).servicePoint none).dispatches = none) :
    ∃ f m q trace r t, (jumpTo second).NextInstruction none f m ∧
      jump f.op.op = some (.long false) ∧
      (Jump.long false).target f.instruction f.extra (jumpTo second).machine.state =
        some (second.toNat : Int) ∧
      (jumpTo second).step Program.go = some (.executed, q) ∧
      Run Program.step anything q trace r ∧ (∀ x ∈ trace, x.2 = .idle) ∧ r.control = .body ∧
      (r.servicePoint none).dispatches = none ∧ r.step Program.go = some (outcome, t) := by
  obtain ⟨⟨found, m⟩, fetched, shown⟩ := Option.map_eq_some_iff.mp fetches
  obtain ⟨f, rfl, fields⟩ := Option.map_eq_some_iff.mp shown
  simp only [Prod.mk.injEq] at fields
  obtain ⟨op, word, extra⟩ := fields
  obtain ⟨⟨e, q⟩, taken, rest⟩ := Option.bind_eq_some_iff.mp steps
  obtain ⟨⟨es, r⟩, fed, seen⟩ := Option.map_eq_some_iff.mp rest
  simp only [Prod.mk.injEq] at seen
  obtain ⟨rfl, rfl, body, quiet, last⟩ := seen
  obtain ⟨⟨e', t⟩, next, rfl⟩ := Option.map_eq_some_iff.mp last
  refine ⟨f, m, q, _, r, t, ⟨rfl, idle, fetched⟩, by rw [op]; rfl, ?_, taken, run_of_feed fed,
    by simp, body, quiet, next⟩
  rw [word, extra]
  change some (((0 : BitVec 6) ++ second).toNat : Int) = _
  rw [BitVec.toNat_append]
  simp

/-- JMP 2 goes on at byte 4. -/
theorem jump_to_word_two : ∃ r, JumpLaw r none 2 ∧ r.machine.state.pc = 4 := by
  obtain ⟨f, m, q, trace, r, t, next, op, target, taken, run, quiet, body, idle, -⟩ :=
    @jump_steps 2 .executed (by decide +kernel) (by decide +kernel)
      (by decide +kernel)
  have law : JumpLaw r none 2 :=
    (wild_jump_stops_iff next op target taken run quiet body idle).mpr
      (.inl (by decide : InFlash 2))
  have pc : (r.machine.state.pc.toNat : Int) = 2 * 2 := (law.inside (by decide)).1
  exact ⟨r, law, BitVec.eq_of_toNat_eq (Int.ofNat_inj.mp pc)⟩

/-- JMP 0x8000 goes on at byte 0 and executes there. -/
theorem wild_jump_wraps : ∃ f m q trace r t, (jumpTo 0x8000).NextInstruction none f m ∧
      jump f.op.op = some (.long false) ∧
      (Jump.long false).target f.instruction f.extra (jumpTo 0x8000).machine.state =
        some (0x8000 : Int) ∧ ¬ InFlash 0x8000 ∧
      (jumpTo 0x8000).step Program.go = some (.executed, q) ∧
      Run Program.step anything q trace r ∧ (∀ x ∈ trace, x.2 = .idle) ∧ r.control = .body ∧
      (r.servicePoint none).dispatches = none ∧ r.step Program.go = some (.executed, t) ∧
      ¬ JumpLaw r none 0x8000 := by
  obtain ⟨f, m, q, trace, r, t, next, op, target, taken, run, quiet, body, idle, executes⟩ :=
    @jump_steps 0x8000 .executed (by decide +kernel) (by decide +kernel)
      (by decide +kernel)
  have outside : ¬ InFlash 0x8000 := by decide
  refine ⟨f, m, q, trace, r, t, next, op, target, outside, taken, run, quiet, body, idle, executes,
    fun law => ?_⟩
  obtain ⟨t', returned, -⟩ := (law.outside outside).2 false false
  cases executes.symm.trans returned

end AvrEmulator
