import AvrEmulator.Controls
import AvrEmulator.ReturnAddresses
import AvrEmulator.Routine
import AvrEmulator.SerialTab
import AvrEmulator.Skips

/-! Firmware that sends back what it receives. It waits for RXC0, reads UDR0 and writes the
byte to UDR0. -/

namespace AvrEmulator

open Checked Transition

/-- The CPU without its clock, and the UART. -/
def Machine.front (m : Machine) : AvrState × Uart := (m.core, m.uart)

/-- An instruction at some place of the code, with the word behind it if it takes two. -/
theorem executes_front {m : Machine} {a w second : Word} {ws : List Word} {i : Nat}
    {row : Opcode} {b : AvrState × Uart} (code : m.core.CodeAt a ws) (here : ws[i]? = some w)
    (pc : m.core.pc = a + BitVec.ofNat 16 (2 * i)) (found : decodeInstruction w = some row)
    (behind : if row.words = 2 then ws[i + 1]? = some second else second = 0)
    (effect : ViewEffect Machine.front (dispatch row w second)
      (m.core.withPc (m.core.pc + if row.words = 2 then 4 else 2), m.uart) b) :
    ∃ m', fetchExecute.run m = some (.executed, m') ∧ m'.front = b := by
  obtain ⟨address, inside, rfl⟩ := code.here here pc
  change m.state.pc.toNat = a.toNat + 2 * i at address
  have whole (long : row.words = 2) : m.state.pc.toNat + 3 < avrFlashSize := by
    rw [if_pos long] at behind
    have room : a.toNat + 2 * (i + 1) + 1 < 32768 :=
      (code _ (List.getElem?_eq_some_iff.mp behind).choose).1
    change m.state.pc.toNat + 3 < 32768
    omega
  have next : (if row.words = 2 then m.flashWord (m.state.pc.toNat + 2) else 0) = second := by
    split at behind
    next long =>
      obtain ⟨within, rfl⟩ := List.getElem?_eq_some_iff.mp behind
      rw [if_pos long, show m.state.pc.toNat + 2 = a.toNat + 2 * (i + 1) by omega]
      exact (code _ within).2
    next short => rw [if_neg short, behind]
  obtain ⟨n, m', front, timed, run⟩ :=
    run_whole inside found whole next (fun _ => rfl) effect
  refine ⟨m', run, ?_⟩
  cases timed
  exact front

namespace Echo

/-- The register in an instruction word. -/
def field (d : Fin 32) : Word := BitVec.ofNat 16 d.val <<< 4

def lds (d : Fin 32) : Word := 0x9000 ||| field d

def sts (d : Fin 32) : Word := 0x9200 ||| field d

def sbrs (d : Fin 32) : Word := 0xFE07 ||| field d

/-- LDS from UCSR0A, SBRS for RXC0, RJMP back, LDS from UDR0, STS to UDR0 and RJMP back. -/
def code (d : Fin 32) : List Word :=
  [lds d, 0x00C0, sbrs d, 0xCFFC, lds d, 0x00C6, sts d, 0x00C6, 0xCFF7]

theorem decode_lds : ∀ d : Fin 32,
    decodeInstruction (lds d) = some ⟨0xFE0F, 0x9000, .LDS, .LDS_STS, 2, 2, "LDS"⟩ := by
  decide +kernel

theorem decode_sts : ∀ d : Fin 32,
    decodeInstruction (sts d) = some ⟨0xFE0F, 0x9200, .STS, .LDS_STS, 2, 2, "STS"⟩ := by
  decide +kernel

theorem decode_sbrs : ∀ d : Fin 32,
    decodeInstruction (sbrs d) = some ⟨0xFE08, 0xFE00, .SBRS, .Rr_b, 1, 1, "SBRS"⟩ := by
  decide +kernel

theorem decode_rjmp {w : Word} (h : w = 0xCFFC ∨ w = 0xCFF7) :
    decodeInstruction w = some ⟨0xF000, 0xC000, .RJMP, .k02, 1, 2, "RJMP"⟩ := by
  rcases h with rfl | rfl <;> decide +kernel

theorem register : ∀ d : Fin 32, (decodeRd (lds d)).d.toNat = d.val ∧
    (decodeRd (sts d)).d.toNat = d.val ∧ (decodeRd (sbrs d)).d.toNat = d.val ∧
    (decodeRrB (sbrs d)).b = 7 := by
  decide +kernel

section Effects

variable {d : Fin 32} {s : AvrState} {u : Uart}

theorem lds_effect {addr : Word} {value : Byte} {u' : Uart}
    (read : ∀ n : Machine, n.uart = u →
      (readDataByte addr).run n = some (value, { n with uart := u' })) :
    ViewEffect Machine.front (executeLDS (decodeLdsSts (lds d) addr)) (s, u)
      (s.setReg d.val value, u') := by
  intro n hn
  obtain ⟨rfl, uart⟩ := Prod.mk.inj hn
  have inside : (decodeRd (lds d)).d.toNat < 32 := by
    rw [(register d).1]
    exact d.isLt
  have load : (executeLDS (decodeLdsSts (lds d) addr)).run n =
      (onCpu (setRegAt (decodeRd (lds d)).d.toNat value)).run { n with uart := u' } :=
    run_bind_of (read n uart) _
  rw [run_onCpu (run_setRegAt value inside), (register d).1] at load
  exact ⟨_, load, rfl, rfl⟩

theorem sts_effect (tuiMode : u.tuiMode = true) :
    ViewEffect Machine.front (executeSTS (decodeLdsSts (sts d) 0x00C6)) (s, u)
      (s, { u with txBuffer := u.txBuffer ++ [s.reg d.val] }) := by
  intro n hn
  obtain ⟨rfl, rfl⟩ := Prod.mk.inj hn
  have inside : (decodeRd (sts d)).d.toNat < 32 := by
    rw [(register d).2.1]
    exact d.isLt
  have store : (executeSTS (decodeLdsSts (sts d) 0x00C6)).run n =
      (writeDataByte 0x00C6 (n.state.reg (decodeRd (sts d)).d.toNat)).run n :=
    run_bind_of (run_onCpu (run_regAt inside)) _
  rw [store_data n _ (.inl rfl), (register d).2.1] at store
  refine ⟨_, store, rfl, ?_⟩
  rw [Machine.front, Uart.transmit, if_pos tuiMode]
  rfl

theorem sbrs_effect {next : Opcode} (inside : s.pc.toNat + 1 < avrFlashSize)
    (found : decodeInstruction (s.flashWord s.pc.toNat) = some next) (short : next.words = 1) :
    ViewEffect Machine.front (executeSBRS (decodeRrB (sbrs d))) (s, u)
      (if (s.reg d.val).getLsbD 7 then s.withPc (s.pc + 2) else s, u) := by
  intro n hn
  obtain ⟨rfl, rfl⟩ := Prod.mk.inj hn
  have room : (decodeRd (sbrs d)).d.toNat < 32 := by
    rw [(register d).2.2.1]
    exact d.isLt
  have test : (executeSBRS (decodeRrB (sbrs d))).run n =
      (skipIf (sregBit (n.state.reg (decodeRd (sbrs d)).d.toNat) (decodeRrB (sbrs d)).b.toNat)
        "SBRS skip: unknown next instruction").run n :=
    run_bind_of (run_onCpu (run_regAt room)) _
  rw [(register d).2.2.1, (register d).2.2.2, sregBit_eq] at test
  have bit : (n.core.reg d.val).getLsbD 7 = (n.state.reg d.val).getLsbD (7 : Byte).toNat := rfl
  rw [bit]
  cases taken : (n.state.reg d.val).getLsbD (7 : Byte).toNat with
  | false =>
    rw [taken] at test
    exact ⟨n, test, rfl, rfl⟩
  | true =>
    rw [taken] at test
    have skip : (skipNextInstruction "SBRS skip: unknown next instruction").run n =
        some ((), n.setState { n.state with pc := n.state.pc + next.words.setWidth 16 * 2 }) := by
      change n.state.pc.toNat + 1 < avrFlashSize at inside
      change decodeInstruction (n.flashWord n.state.pc.toNat) = some next at found
      change ((get : Emu Machine) >>= _).run n = _
      rw [run_get_bind]
      dsimp only
      rw [if_neg (Nat.not_le.mpr inside), run_bind_of (run_fetchWord inside), found]
      rfl
    rw [short] at skip
    exact ⟨_, test.trans (run_bind_of skip _), rfl, rfl⟩

theorem rjmp_effect (w : Word) :
    ViewEffect Machine.front (onCpu (executeRJMP (decodeK02 w))) (s, u)
      (s.withPc (s.pc + (decodeK02 w).k * 2), u) := by
  intro n hn
  obtain ⟨rfl, rfl⟩ := Prod.mk.inj hn
  exact ⟨_, rfl, rfl, rfl⟩

end Effects

/-! ## The loop -/

inductive Place where
  | poll
  | test
  | back
  | take
  | send
  | again
  deriving DecidableEq

/-- The word that the instruction starts at. -/
def Place.index : Place → Nat
  | .poll => 0
  | .test => 2
  | .back => 3
  | .take => 4
  | .send => 6
  | .again => 8

/-- The loop with register `d`, at address `a`. Past the test there is a byte to take. -/
structure At (d : Fin 32) (a : Word) (place : Place) (s : AvrState) (u : Uart) : Prop where
  code : s.CodeAt a (code d)
  masked : s.getFlag .I = false
  pc : s.pc = a + BitVec.ofNat 16 (2 * place.index)
  tuiMode : u.tuiMode = true
  tested : place = .test → (s.reg d.val).getLsbD 7 = true → u.rxHwReady = true
  full : place = .take → u.rxHwReady = true

/-- The byte that was read and not yet written. -/
def flying (d : Fin 32) (a : Word) (s : AvrState) : List Byte :=
  if s.pc = a + 12 then [s.reg d.val] else []

/-- All bytes on their way, the first at the front. -/
def contents (d : Fin 32) (a : Word) (s : AvrState) (u : Uart) : List Byte :=
  u.txBuffer ++ (flying d a s ++ (u.held ++ u.rxQueue))

namespace At

variable {d : Fin 32} {a : Word} {place next : Place} {s s' : AvrState} {u u' : Uart}

theorem flying_eq (h : At d a place s u) :
    flying d a s = if place = .send then [s.reg d.val] else [] := by
  have here : s.pc = a + 12 ↔ place = .send := by
    rw [h.pc]
    cases place <;> simp [Place.index]
  simp only [flying, here]

theorem contents_eq (h : At d a place s u) : contents d a s u =
    u.txBuffer ++ ((if place = .send then [s.reg d.val] else []) ++ (u.held ++ u.rxQueue)) := by
  rw [contents, h.flying_eq]

theorem pc_add (h : At d a place s u) {k : Word}
    (sum : BitVec.ofNat 16 (2 * place.index) + k = BitVec.ofNat 16 (2 * next.index)) :
    s.pc + k = a + BitVec.ofNat 16 (2 * next.index) := by
  rw [h.pc, BitVec.add_assoc, sum]

theorem moves (h : At d a place s u) (flash : s'.flash = s.flash) (sreg : s'.sreg = s.sreg)
    (pc : s'.pc = a + BitVec.ofNat 16 (2 * next.index)) (tuiMode : u'.tuiMode = u.tuiMode)
    (tested : next = .test → (s'.reg d.val).getLsbD 7 = true → u'.rxHwReady = true)
    (full : next = .take → u'.rxHwReady = true) : At d a next s' u' where
  code := h.code.same flash
  masked := by
    rw [AvrState.getFlag, sreg]
    exact h.masked
  pc := pc
  tuiMode := tuiMode.trans h.tuiMode
  tested := tested
  full := full

end At

/-- The instructions up to the one that stores the byte of the hardware buffer. -/
def reach (d : Fin 32) (place : Place) (s : AvrState) : Nat :=
  match place with
  | .take => 2
  | .test => if (s.reg d.val).getLsbD 7 then 3 else 6
  | .poll => 4
  | .back | .again => 5
  | .send => 6

theorem reach_bounds (d : Fin 32) (place : Place) (s : AvrState) :
    1 < reach d place s ∧ reach d place s ≤ 6 := by
  cases place with
  | test =>
    simp only [reach]
    split <;> decide
  | poll | back | take | send | again => simp [reach]

/-- A byte that was read or latched is stored behind `i` others, by the `n`-th instruction
from here. -/
def Ahead (d : Fin 32) (place : Place) (s : AvrState) (u : Uart) (n i : Nat) : Prop :=
  place = .send ∧ n = 1 ∧ i = 0 ∨
    u.rxHwReady = true ∧ n = reach d place s ∧ i = if place = .send then 1 else 0

/-- After so many instructions the byte is stored or that much nearer, and the bytes stored
before it are out. -/
def Nears (d : Fin 32) (place next : Place) (before after : AvrState × Uart)
    (instructions popped : Nat) : Prop :=
  ∀ n i, Ahead d place before.1 before.2 n i → ∃ stored,
    popped + after.2.txBuffer.length = before.2.txBuffer.length + stored ∧
    (i < stored ∨ instructions < n ∧
      Ahead d next after.1 after.2 (n - instructions) (i - stored))

/-- Before the instructions the bytes only get latched. -/
theorem Nears.of_latched {d : Fin 32} {place next : Place} {s : AvrState} {u u' : Uart}
    {after : AvrState × Uart} {instructions popped : Nat}
    (nears : Nears d place next (s, u') after instructions popped)
    (tx : u'.txBuffer = u.txBuffer) (ready : u.rxHwReady = true → u'.rxHwReady = true) :
    Nears d place next (s, u) after instructions popped := by
  intro n i ahead
  obtain ⟨stored, out, nearer⟩ := nears n i (ahead.imp id fun full => ⟨ready full.1, full.2⟩)
  rw [tx] at out
  exact ⟨stored, out, nearer⟩

/-- Where the loop goes, that it keeps what is on its way, and what comes nearer. -/
def Goes (d : Fin 32) (a : Word) (m : Machine) (place next : Place) : Prop :=
  ∃ m', fetchExecute.run m = some (.executed, m') ∧ At d a next m'.core m'.uart ∧
    contents d a m'.core m'.uart = contents d a m.core m.uart ∧
    Nears d place next m.front m'.front 1 0

section Loop

variable {d : Fin 32} {a : Word} {m : Machine}

/-- What an instruction makes of the CPU and the UART decides where the loop goes. -/
theorem goes_of_front {place next : Place} {s : AvrState} {u : Uart}
    (h : At d a place m.core m.uart)
    (run : ∃ m', fetchExecute.run m = some (.executed, m') ∧ m'.front = (s, u))
    (there : At d a next s u)
    (kept : u.txBuffer ++ ((if next = .send then [s.reg d.val] else []) ++ (u.held ++ u.rxQueue)) =
      m.uart.txBuffer ++ ((if place = .send then [m.core.reg d.val] else []) ++
        (m.uart.held ++ m.uart.rxQueue)))
    (nears : Nears d place next m.front (s, u) 1 0) : Goes d a m place next := by
  obtain ⟨m', run, front⟩ := run
  rw [← front] at nears
  obtain ⟨rfl, rfl⟩ := Prod.mk.inj front
  refine ⟨m', run, there, ?_, nears⟩
  rw [there.contents_eq, h.contents_eq, kept]

/-- Nothing is stored, and the way gets shorter. -/
theorem nears_of_reach {place next : Place} {s s' : AvrState} {u u' : Uart}
    (tx : u'.txBuffer = u.txBuffer) (here : place ≠ .send)
    (there : u.rxHwReady = true → Ahead d next s' u' (reach d place s - 1) 0) :
    Nears d place next (s, u) (s', u') 1 0 := by
  intro n i ahead
  rcases ahead with ⟨send, -, -⟩ | ⟨full, rfl, rfl⟩
  · exact absurd send here
  · rw [if_neg here]
    refine ⟨0, ?_, .inr ⟨(reach_bounds d place s).1, there full⟩⟩
    rw [tx, Nat.zero_add, Nat.add_zero]

theorem polls (h : At d a .poll m.core m.uart) : Goes d a m .poll .test := by
  have read (n : Machine) (uart : n.uart = m.uart) :
      (readDataByte 0x00C0).run n = some (m.uart.ucsra, { n with uart := m.uart }) := by
    rw [← uart]
    rfl
  have run := executes_front h.code (i := 0) rfl h.pc (decode_lds d) rfl
    (lds_effect (s := m.core.withPc (m.core.pc + 4)) read)
  have bit : (((m.core.withPc (m.core.pc + 4)).setReg d.val m.uart.ucsra).reg d.val).getLsbD 7 =
      m.uart.rxHwReady := by
    have ready := m.uart.ucsra_rxc
    rw [sregBit_eq, Uart.rxReady, if_pos h.tuiMode] at ready
    rw [AvrState.reg_setReg_self _ _ d.isLt]
    exact ready
  have there : At d a .test ((m.core.withPc (m.core.pc + 4)).setReg d.val m.uart.ucsra) m.uart :=
    h.moves rfl rfl (h.pc_add (by decide)) rfl (fun _ set => bit ▸ set)
      fun other => by cases other
  refine goes_of_front h run there rfl (nears_of_reach rfl (by decide) fun full => ?_)
  refine .inr ⟨full, ?_, rfl⟩
  rw [reach, reach, bit, if_pos full]

theorem tests (h : At d a .test m.core m.uart) :
    Goes d a m .test .take ∨ Goes d a m .test .back := by
  have behind : (m.core.withPc (m.core.pc + 2)).pc = a + BitVec.ofNat 16 (2 * Place.back.index) :=
    h.pc_add (by decide)
  obtain ⟨-, inside, word⟩ := (show (m.core.withPc (m.core.pc + 2)).CodeAt a (code d) from
    h.code.same rfl).here (i := 3) rfl behind
  have found := decode_rjmp (.inl rfl)
  rw [← word] at found
  have run : ∃ m', fetchExecute.run m = some (.executed, m') ∧ m'.front =
      (if (m.core.reg d.val).getLsbD 7 then
        (m.core.withPc (m.core.pc + 2)).withPc (m.core.pc + 2 + 2)
      else m.core.withPc (m.core.pc + 2), m.uart) :=
    executes_front h.code (i := 2) rfl h.pc (decode_sbrs d) rfl
      (sbrs_effect (u := m.uart) inside found rfl)
  cases bit : (m.core.reg d.val).getLsbD 7 with
  | true =>
    rw [bit, if_pos rfl] at run
    have pc : m.core.pc + 2 + 2 = a + BitVec.ofNat 16 (2 * Place.take.index) := by
      rw [BitVec.add_assoc]
      exact h.pc_add (by decide)
    have there : At d a .take ((m.core.withPc (m.core.pc + 2)).withPc (m.core.pc + 2 + 2)) m.uart :=
      h.moves rfl rfl pc rfl (fun other => by cases other) fun _ => h.tested rfl bit
    refine .inl (goes_of_front h run there rfl (nears_of_reach rfl (by decide) fun full => ?_))
    rw [reach, if_pos bit]
    exact .inr ⟨full, rfl, rfl⟩
  | false =>
    rw [bit, if_neg Bool.false_ne_true] at run
    have there : At d a .back (m.core.withPc (m.core.pc + 2)) m.uart :=
      h.moves rfl rfl behind rfl (fun other => by cases other) fun other => by cases other
    refine .inr (goes_of_front h run there rfl (nears_of_reach rfl (by decide) fun full => ?_))
    rw [reach, bit, if_neg Bool.false_ne_true]
    exact .inr ⟨full, rfl, rfl⟩

/-- Both jumps lead to the poll. -/
theorem jumps {place : Place} {w : Word} (h : At d a place m.core m.uart)
    (here : (code d)[place.index]? = some w) (jump : w = 0xCFFC ∨ w = 0xCFF7)
    (empty : place ≠ .send) (far : reach d place m.core = 5)
    (home : BitVec.ofNat 16 (2 * place.index) + (2 + (decodeK02 w).k * 2) = 0) :
    Goes d a m place .poll := by
  have run := executes_front h.code here h.pc (decode_rjmp jump) rfl
    (rjmp_effect (s := m.core.withPc (m.core.pc + 2)) (u := m.uart) w)
  have pc : m.core.pc + 2 + (decodeK02 w).k * 2 = a + BitVec.ofNat 16 (2 * Place.poll.index) := by
    rw [BitVec.add_assoc]
    exact h.pc_add home
  have there : At d a .poll ((m.core.withPc (m.core.pc + 2)).withPc
      (m.core.pc + 2 + (decodeK02 w).k * 2)) m.uart :=
    h.moves rfl rfl pc rfl (fun other => by cases other) fun other => by cases other
  refine goes_of_front h run there ?_ (nears_of_reach rfl empty fun full => ?_)
  · rw [if_neg empty]
    rfl
  · rw [far]
    exact .inr ⟨full, rfl, rfl⟩

theorem takes (h : At d a .take m.core m.uart) : Goes d a m .take .send := by
  have full := h.full rfl
  have read (n : Machine) (uart : n.uart = m.uart) : (readDataByte 0x00C6).run n =
      some (m.uart.rxHwByte, { n with uart := { m.uart with rxHwReady := false } }) := by
    rw [load_data n (.inl rfl), uart, Uart.consumeByte, if_pos h.tuiMode, if_pos full]
  have run := executes_front h.code (i := 4) rfl h.pc (decode_lds d) rfl
    (lds_effect (s := m.core.withPc (m.core.pc + 4)) read)
  have there : At d a .send ((m.core.withPc (m.core.pc + 4)).setReg d.val m.uart.rxHwByte)
      { m.uart with rxHwReady := false } :=
    h.moves rfl rfl (h.pc_add (by decide)) rfl (fun other => by cases other)
      fun other => by cases other
  refine goes_of_front h run there ?_ (nears_of_reach rfl (by decide) fun _ => ?_)
  · rw [AvrState.reg_setReg_self _ _ d.isLt]
    simp [Uart.held, full]
  · exact .inl ⟨rfl, rfl, rfl⟩

theorem sends (h : At d a .send m.core m.uart) : Goes d a m .send .again := by
  have run := executes_front h.code (i := 6) rfl h.pc (decode_sts d) rfl
    (sts_effect (s := m.core.withPc (m.core.pc + 4)) h.tuiMode)
  have there : At d a .again (m.core.withPc (m.core.pc + 4))
      { m.uart with txBuffer := m.uart.txBuffer ++ [m.core.reg d.val] } :=
    h.moves rfl rfl (h.pc_add (by decide)) rfl (fun other => by cases other)
      fun other => by cases other
  refine goes_of_front h run there ?_ ?_
  · simp [Uart.held, AvrState.withPc, AvrState.reg]
  · intro n i ahead
    refine ⟨1, by simp [Machine.front], ?_⟩
    rcases ahead with ⟨-, rfl, rfl⟩ | ⟨full, rfl, rfl⟩
    · exact .inl Nat.one_pos
    · exact .inr ⟨(reach_bounds d .send _).1, .inr ⟨full, rfl, rfl⟩⟩

/-- The loop goes on from wherever it is. -/
theorem goes {place : Place} (h : At d a place m.core m.uart) :
    ∃ next, Goes d a m place next := by
  cases place with
  | poll => exact ⟨.test, polls h⟩
  | test =>
    rcases tests h with goes | goes
    · exact ⟨.take, goes⟩
    · exact ⟨.back, goes⟩
  | back => exact ⟨.poll, jumps h rfl (.inl rfl) (by decide) rfl (by decide)⟩
  | take => exact ⟨.send, takes h⟩
  | send => exact ⟨.again, sends h⟩
  | again => exact ⟨.poll, jumps h rfl (.inr rfl) (by decide) rfl (by decide)⟩

/-- Nothing comes nearer without an instruction. -/
theorem nears_idle {place : Place} {s : AvrState} {u u' : Uart} {popped : Nat}
    (ready : u'.rxHwReady = u.rxHwReady)
    (tx : popped + u'.txBuffer.length = u.txBuffer.length) :
    Nears d place place (s, u) (s, u') 0 popped := by
  intro n i ahead
  refine ⟨0, tx, .inr ⟨?_, ?_⟩⟩
  · rcases ahead with ⟨-, rfl, -⟩ | ⟨-, rfl, -⟩
    · exact Nat.one_pos
    · exact Nat.zero_lt_of_lt (reach_bounds d place s).1
  · rw [Ahead, ready]
    exact ahead

/-- A poll may put a byte in the hardware buffer. -/
theorem latched {place : Place} {s : AvrState} {u : Uart} (h : At d a place s u)
    (stdin : Option Byte) : At d a place s (u.latch stdin).2 ∧
      contents d a s (u.latch stdin).2 = contents d a s u ∧
      (u.latch stdin).2.txBuffer = u.txBuffer ∧
      (u.rxHwReady = true → (u.latch stdin).2.rxHwReady = true) := by
  unfold Uart.latch
  rw [if_pos h.tuiMode]
  split
  next byte rest empty queue =>
    refine ⟨h.moves rfl rfl h.pc rfl (fun _ _ => rfl) (fun _ => rfl), ?_, rfl, fun _ => rfl⟩
    simp [contents, Uart.held, empty, queue]
  next => exact ⟨h, rfl, rfl, id⟩

theorem polled {place : Place} {p : Program} (h : At d a place p.machine.core p.machine.uart)
    (stdin : Option Byte) : ∃ u, (p.servicePoint stdin).settled.front = (p.machine.core, u) ∧
      At d a place p.machine.core u ∧
      contents d a p.machine.core u = contents d a p.machine.core p.machine.uart ∧
      u.txBuffer = p.machine.uart.txBuffer ∧
      (p.machine.uart.rxHwReady = true → u.rxHwReady = true) := by
  have core : (p.servicePoint stdin).settled.core = p.machine.core := by
    rw [Machine.core, p.settled_servicePoint_state, Machine.core]
  rw [Machine.front, core, p.settled_servicePoint_uart]
  refine ⟨_, rfl, ?_⟩
  unfold Program.pollUart
  split
  · dsimp only
    rw [Uart.uartPoll_fst]
    exact latched h stdin
  · exact ⟨h, rfl, rfl, id⟩

/-- A turn executes the next instruction of the loop. -/
theorem turn_goes {place : Place} {p q : Program} {stdin : Option Byte} {e : Event}
    (h : At d a place p.machine.core p.machine.uart) (turn : Program.Turn p stdin e q) :
    e = .executed ∧ ∃ next, At d a next q.machine.core q.machine.uart ∧
      contents d a q.machine.core q.machine.uart =
        contents d a p.machine.core p.machine.uart ∧
      Nears d place next p.machine.front q.machine.front 1 0 := by
  obtain ⟨u, front, here, kept, tx, ready⟩ := polled h stdin
  obtain ⟨core, rfl⟩ := Prod.mk.inj front
  rw [← core] at here
  obtain ⟨next, m, run, there, kept', nears⟩ := goes here
  have idle := p.masked_idle h.masked stdin
  cases turn with
  | dispatched dispatches =>
    rw [idle] at dispatches
    cases dispatches
  | failed _ run' =>
    rw [run] at run'
    cases run'
  | executed _ run' =>
    rw [run] at run'
    cases run'
    rw [Program.advance_machine]
    rw [front] at nears
    rw [core] at kept'
    exact ⟨rfl, next, there, kept'.trans kept, nears.of_latched tx ready⟩

end Loop

/-! ## In the interface -/

/-- The bytes on their way in a session. -/
def onTheWay (d : Fin 32) (a : Word) (t : Tui) : List Byte :=
  contents d a t.program.machine.core t.uart

/-- A step adds behind the bytes on their way and takes from their front, and the program
does not fail. -/
structure Carries (d : Fin 32) (a : Word) (place : Place) (t t' : Tui)
    (x : TuiInput × TuiEvent) : Prop where
  goes : ∃ next, At d a next t'.program.machine.core t'.uart ∧
    Nears d place next t.program.machine.front t'.program.machine.front x.2.isTurn.toNat
      (poppedBytes x).length
  kept : onTheWay d a t ++ injectedBytes x = poppedBytes x ++ onTheWay d a t'
  good : x.2 ≠ .ran (.returned false)

section Session

variable {d : Fin 32} {a : Word} {place : Place} {t t' : Tui} {i : TuiInput} {e : TuiEvent}

/-- The interface may fill the queue and empty the transmit buffer. -/
theorem Carries.serves {x : TuiInput × TuiEvent} {rxQueue txBuffer : List Byte}
    (h : At d a place t.program.machine.core t.uart)
    (rx : rxQueue = t.uart.rxQueue ++ injectedBytes x)
    (tx : t.uart.txBuffer = poppedBytes x ++ txBuffer) (idle : x.2.isTurn = false)
    (front : t'.program.machine.front =
      (t.program.machine.core, { t.uart with rxQueue := rxQueue, txBuffer := txBuffer })) :
    Carries d a place t t' x where
  goes := by
    obtain ⟨core, uart⟩ := Prod.mk.inj front
    refine ⟨place, ?_, ?_⟩
    · rw [core, Tui.uart, uart]
      exact h.moves rfl rfl h.pc rfl h.tested h.full
    · rw [idle, front]
      exact nears_idle rfl ((congrArg List.length tx).trans List.length_append).symm
  kept := by
    obtain ⟨core, uart⟩ := Prod.mk.inj front
    rw [onTheWay, onTheWay, core, Tui.uart, Tui.uart, uart]
    change contents d a _ t.uart ++ _ = _
    simp [contents, Uart.held, rx, tx]
  good failed := by
    rw [failed] at idle
    cases idle

theorem Carries.quiet {x : TuiInput × TuiEvent} (h : At d a place t.program.machine.core t.uart)
    (injected : injectedBytes x = []) (popped : poppedBytes x = [])
    (idle : x.2.isTurn = false) (front : t'.program.machine.front = t.program.machine.front) :
    Carries d a place t t' x := by
  have rx : t.uart.rxQueue = t.uart.rxQueue ++ injectedBytes x := by simp [injected]
  have tx : t.uart.txBuffer = poppedBytes x ++ t.uart.txBuffer := by simp [popped]
  exact .serves h rx tx idle front

theorem carries_of_runs {p : Program} {stop pause : Bool} {r : Event}
    (h : At d a place t.program.machine.core t.uart)
    (taken : t.program.step (.loop stop pause none) = some (r, p)) (thread : EmuThread) :
    Carries d a place t { t with program := p, thread := thread } (i, .ran r) := by
  cases Program.step_looped taken with
  | stops | goesOn | waits | resumes => exact .quiet h rfl rfl rfl rfl
  | turns _ turn =>
    obtain ⟨rfl, next, there, kept, nears⟩ := turn_goes h turn
    refine ⟨⟨next, there, nears⟩, ?_, by simp⟩
    exact (List.append_nil _).trans kept.symm

theorem carries (moves : Tui.Moves t i e t') (h : At d a place t.program.machine.core t.uart) :
    Carries d a place t t' (i, e) := by
  cases moves with
  | runs _ taken => exact carries_of_runs h taken _
  | starts =>
    have uart := Tui.uart_start h.tuiMode t.program.snapshot
    exact .quiet h rfl rfl rfl (Prod.ext rfl uart)
  | handles _ edited =>
    obtain ⟨program, -⟩ := t.handle_frame _ edited
    exact .quiet h rfl rfl rfl (by rw [program])
  | regs _ due =>
    obtain ⟨program, -⟩ := t.renderRegs_frame due
    exact .quiet h rfl rfl rfl (by rw [program])
  | disasm _ due =>
    obtain ⟨program, -⟩ := t.renderDisasm_frame due
    exact .quiet h rfl rfl rfl (by rw [program])
  | serial =>
    exact .serves h (List.append_nil _).symm (List.append_nil _).symm rfl rfl
  | sendsByte | endsLine => exact .serves h rfl rfl rfl rfl
  | stores | ends | enters | interrupts | leaves | stops | unpauses | exits =>
    exact .quiet h rfl rfl rfl rfl

/-- What a trace so far says of the loop. -/
structure Echoing (d : Fin 32) (a : Word) (trace : List (TuiInput × TuiEvent)) (t : Tui) :
    Prop where
  loops : ∃ place, At d a place t.program.machine.core t.uart
  kept : trace.flatMap injectedBytes = trace.flatMap poppedBytes ++ onTheWay d a t
  good : resultOf trace ≠ some false

theorem Echoing.snoc {trace : List (TuiInput × TuiEvent)} (h : Echoing d a trace t)
    (step : Carries d a place t t' (i, e)) : Echoing d a (trace ++ [(i, e)]) t' where
  loops := by
    obtain ⟨next, there, -⟩ := step.goes
    exact ⟨next, there⟩
  kept := by
    rw [List.flatMap_append, List.flatMap_singleton, h.kept, List.append_assoc, step.kept,
      List.flatMap_append, List.flatMap_singleton, List.append_assoc]
  good := by
    rw [resultOf_snoc]
    unfold resultAfter
    split
    next ok returned =>
      intro failed
      cases failed
      exact step.good returned
    next => exact h.good

theorem start_echoing {state : AvrState} (code : state.CodeAt state.pc (code d))
    (masked : state.getFlag .I = false) : Echoing d state.pc [] (Tui.start state) where
  loops := ⟨.poll, code.same rfl, masked, (BitVec.add_zero _).symm, rfl,
    (fun other => by cases other), (fun other => by cases other)⟩
  kept := by
    have here : (Machine.initial state).core.pc ≠ state.pc + 12 := by
      change state.pc ≠ _
      bv_omega
    change [] = flying d state.pc (Machine.initial state).core ++ []
    rw [flying, if_neg here]
    rfl
  good := by simp [resultOf]

theorem run_echoing {ok : Tui → TuiInput → Prop} {state : AvrState}
    {trace : List (TuiInput × TuiEvent)} (code : state.CodeAt state.pc (code d))
    (masked : state.getFlag .I = false) (run : Run Tui.step ok (Tui.start state) trace t) :
    Echoing d state.pc trace t := by
  apply run.traced (P := Echoing d state.pc) ?_ (start_echoing code masked)
  intro before p i e q _ echoing _ taken
  obtain ⟨place, here⟩ := echoing.loops
  exact echoing.snoc (carries (Tui.step_moves taken) here)

/-- With enough turns a byte that is read or latched is stored. -/
theorem run_nears {ok : Tui → TuiInput → Prop} {before later : List (TuiInput × TuiEvent)}
    {n k : Nat} (serial : Tui.Serial before t) (run : Run Tui.step ok t later t')
    (h : At d a place t.program.machine.core t.uart)
    (ahead : Ahead d place t.program.machine.core t.uart n k) (enough : n ≤ turnsIn later) :
    k < (t.storedOn (later.map Prod.fst)).length := by
  induction run generalizing before place n k with
  | nil t =>
    have none : n = 0 := Nat.le_zero.mp enough
    rcases ahead with ⟨-, one, -⟩ | ⟨-, more, -⟩
    · omega
    · have far := reach_bounds d place t.program.machine.core
      omega
  | @cons t u v i e later _ taken _ ih =>
    have moves := Tui.step_moves taken
    have passes := moves.passes serial.tuiMode serial.text.bounded
    obtain ⟨next, there, nears⟩ := (carries moves h).goes
    obtain ⟨stored, out, nearer⟩ := nears n k ahead
    have sent : (poppedBytes (i, e)).length + u.uart.txBuffer.length =
        t.uart.txBuffer.length + (t.storing i).length := by
      simpa only [List.length_append] using congrArg List.length passes.tx
    have count : stored = (t.storing i).length := Nat.add_left_cancel (out.symm.trans sent)
    rw [List.map_cons, Tui.storedOn_cons taken, List.length_append]
    rw [turnsIn_cons] at enough
    change n ≤ turnsIn later + e.isTurn.toNat at enough
    rcases nearer with done | ⟨-, nearer⟩
    · omega
    · have rest := ih (serial.snoc passes) there nearer (by dsimp only; omega)
      omega

/-- What the loop stores comes from the front of what is on its way and what is sent. -/
theorem stored_prefix {before later : List (TuiInput × TuiEvent)}
    (serial : Tui.Serial before t) (run : Run Tui.step anything t later t')
    (first : Echoing d a before t) (last : Echoing d a (before ++ later) t') :
    t.storedOn (later.map Prod.fst) <+:
      flying d a t.program.machine.core ++
        (t.uart.held ++ t.uart.rxQueue ++ later.flatMap injectedBytes) := by
  have sent := Tui.run_sends serial run
  have kept := last.kept
  rw [List.flatMap_append, List.flatMap_append, first.kept, List.append_assoc, List.append_assoc,
    List.append_right_inj, onTheWay, onTheWay, contents, contents,
    ← List.append_assoc (later.flatMap poppedBytes), sent, List.append_assoc, List.append_assoc,
    List.append_assoc t.uart.txBuffer, List.append_right_inj] at kept
  exact ⟨_, kept.symm⟩

end Session

end Echo

/-- With interrupts off, in every run of the interface: the program does not fail, and the
bytes sent to it are, in order, those that came back and those on their way. A byte in the
hardware buffer is stored to UDR0, behind the one in the register, within six turns. -/
theorem typed_bytes_come_back {d : Fin 32} {state : AvrState} {t t' : Tui}
    {before later : List (TuiInput × TuiEvent)} (code : state.CodeAt state.pc (Echo.code d))
    (masked : state.getFlag .I = false)
    (run : Run Tui.step anything (Tui.start state) before t)
    (rest : Run Tui.step anything t later t') :
    resultOf before ≠ some false ∧
    before.flatMap injectedBytes = before.flatMap poppedBytes ++ Echo.onTheWay d state.pc t ∧
    (t.uart.rxHwReady = true → 6 ≤ turnsIn later → ∃ more,
      t.storedOn (later.map Prod.fst) =
        Echo.flying d state.pc t.program.machine.core ++ t.uart.rxHwByte :: more) := by
  have serial := Tui.run_serial run
  have first := Echo.run_echoing code masked run
  have last := Echo.run_echoing code masked (run.append rest)
  refine ⟨first.good, first.kept, fun full enough => ?_⟩
  obtain ⟨place, here⟩ := first.loops
  have long := Echo.run_nears serial rest here (.inr ⟨full, rfl, rfl⟩)
    (Nat.le_trans (Echo.reach_bounds d place _).2 enough)
  have stored := Echo.stored_prefix serial rest first last
  have owed : Echo.flying d state.pc t.program.machine.core ++ [t.uart.rxHwByte] <+:
      Echo.flying d state.pc t.program.machine.core ++
        (t.uart.held ++ t.uart.rxQueue ++ later.flatMap injectedBytes) := by
    rw [List.prefix_append_right_inj, Uart.held, if_pos full, List.append_assoc]
    exact List.prefix_append _ _
  obtain ⟨more, split⟩ := List.prefix_of_prefix_length_le owed stored (by
    rw [here.flying_eq, List.length_append, apply_ite List.length]
    exact long)
  exact ⟨more, by rw [← split, List.append_assoc, List.singleton_append]⟩

def Echo.r16 : Fin 32 := ⟨16, by decide⟩

/-- Firmware that sends back what it receives, through R16. -/
def echoer : AvrState := Program.firmware (Echo.code Echo.r16)

/-- A letter and its newline are sent before the thread starts, and the first turn latches
the letter. -/
def typesLetter : List TuiInput :=
  [.key (.Character [0x41]) [0x41], .key .Return [], .proceed, .proceed] ++
    List.replicate 4 .emulator

/-- Six turns and a redraw. -/
def answersLetter : List TuiInput := List.replicate 18 .emulator ++ [.render true]

/-- The letter was latched, is stored and comes back, and the newline is on its way. -/
theorem letter_comes_back : ∃ before t later t',
    Run Tui.step anything (Tui.start echoer) before t ∧ Run Tui.step anything t later t' ∧
    before.flatMap injectedBytes = [0x41, 0x0A] ∧ t.uart.held = [0x41] ∧
    (∃ more, t.storedOn (later.map Prod.fst) = 0x41 :: more) ∧
    later.flatMap poppedBytes = [0x41] ∧ Echo.onTheWay Echo.r16 0 t' = [0x0A] := by
  have code : echoer.CodeAt echoer.pc (Echo.code Echo.r16) := by decide +kernel
  have masked : echoer.getFlag .I = false := by decide +kernel
  have h : ((feed Tui.step anything (Tui.start echoer) typesLetter).bind fun (es, t) =>
      (feed Tui.step anything t answersLetter).map fun (es', _) =>
        ([(typesLetter.zip es).flatMap injectedBytes, (typesLetter.zip es).flatMap poppedBytes,
          t.uart.held, Echo.flying Echo.r16 0 t.program.machine.core,
          (answersLetter.zip es').flatMap injectedBytes,
          (answersLetter.zip es').flatMap poppedBytes], turnsIn (answersLetter.zip es'))) =
      some ([[0x41, 0x0A], [], [0x41], [], [], [0x41]], 6) := by
    decide +kernel
  obtain ⟨⟨es, t⟩, fed, h⟩ := Option.bind_eq_some_iff.mp h
  obtain ⟨⟨es', t'⟩, fed', seen⟩ := Option.map_eq_some_iff.mp h
  obtain ⟨bytes, turns⟩ := Prod.mk.inj seen
  simp only [List.cons.injEq, and_true] at bytes
  obtain ⟨injected, popped, held, flying, quiet, back⟩ := bytes
  have run := run_of_feed fed
  have rest := run_of_feed fed'
  obtain ⟨ready, byte⟩ : t.uart.rxHwReady = true ∧ t.uart.rxHwByte = 0x41 := by
    unfold Uart.held at held
    split at held
    next ready => exact ⟨ready, (List.cons.inj held).1⟩
    next => cases held
  obtain ⟨-, -, answered⟩ := typed_bytes_come_back code masked run rest
  obtain ⟨more, stored⟩ := answered ready (Nat.le_of_eq turns.symm)
  obtain ⟨-, kept, -⟩ := typed_bytes_come_back code masked (run.append rest) (.nil t')
  rw [List.flatMap_append, List.flatMap_append, injected, popped, quiet, back] at kept
  refine ⟨_, t, _, t', run, rest, injected, held, ⟨more, ?_⟩, back, (List.cons.inj kept).2.symm⟩
  rw [stored, byte]
  exact congrArg (· ++ 0x41 :: more) flying

end AvrEmulator
