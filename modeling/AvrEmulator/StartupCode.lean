import AvrEmulator.StartupData

/-! The startup code as a whole: what it makes of SRAM, and how long it takes. -/

namespace AvrEmulator

open Transition StackSpec

theorem AvrState.CodeAt.split {s : AvrState} {a : Word} {ws vs : List Word}
    (code : s.CodeAt a (ws ++ vs)) :
    s.CodeAt a ws ∧ s.CodeAt (a + BitVec.ofNat 16 (2 * ws.length)) vs := by
  constructor
  · intro i h
    obtain ⟨room, word⟩ := code i (by rw [List.length_append]; omega)
    rw [List.getElem_append_left h] at word
    exact ⟨room, word⟩
  · intro i h
    obtain ⟨room, word⟩ := code (ws.length + i) (by rw [List.length_append]; omega)
    have room : a.toNat + 2 * (ws.length + i) + 1 < 32768 := room
    have address : (a + BitVec.ofNat 16 (2 * ws.length)).toNat + 2 * i =
        a.toNat + 2 * (ws.length + i) := by
      rw [BitVec.toNat_add, BitVec.toNat_ofNat]
      omega
    rw [address]
    refine ⟨room, word.trans ?_⟩
    rw [List.getElem_append_right (by omega)]
    simp

/-- The constants are loaded, and the test of the sweep is next. -/
structure Entered (constants : List (Nat × Byte)) (test : Word) (s s' : AvrState) : Prop where
  rest : Spares (constants.map Prod.fst) s s'
  values : ∀ p ∈ constants, s'.reg p.1 = p.2
  sram : s'.sram = s.sram
  pc : s'.pc = test
  clock : s.ClockAt s' (constants.length + 2)

/-- A block of LDIs and RJMP. -/
theorem enters {constants : List (Nat × Byte)} {s : AvrState} {a : Word} {ws : List Word}
    {hop test : Word} (masked : s.getFlag .I = false) (code : s.CodeAt a ws)
    (here : ∀ j (h : j < constants.length), ws[j]? = some (ldi constants[j]))
    (jump : ws[constants.length]? = some hop)
    (found : decodeInstruction hop = some ⟨0xF000, 0xC000, .RJMP, .k02, 1, 2, "RJMP"⟩)
    (target : a + BitVec.ofNat 16 (2 * constants.length) + 2 + (decodeK02 hop).k * 2 = test)
    (pc : s.pc = a) (upper : ∀ p ∈ constants, 16 ≤ p.1 ∧ p.1 < 32)
    (distinct : (constants.map Prod.fst).Nodup) :
    ∃ s', Steps Executes (constants.length + 1) s s' ∧ Entered constants test s s' := by
  have start : s.pc = a + BitVec.ofNat 16 (2 * 0) := pc.trans (BitVec.add_zero a).symm
  have numbered : ∀ j (h : j < constants.length), ws[0 + j]? = some (ldi constants[j]) := by
    intro j h
    rw [Nat.zero_add]
    exact here j h
  obtain ⟨t, steps, loaded⟩ := loads_constants masked code numbered start upper distinct
  have off : t.getFlag .I = false := (loaded.rest.flags .I (by simp)).trans masked
  have behind : t.pc = a + BitVec.ofNat 16 (2 * constants.length) := by rw [loaded.pc, pc]
  have executes := executes_at off (code.same loaded.rest.flash) jump behind found (by decide)
    (rjmp_effect rfl)
  refine ⟨_, steps.trans (.some executes (.none _)), ?_, loaded.values, loaded.sram, ?_, ?_⟩
  · exact loaded.rest.trans (.same rfl rfl rfl rfl rfl)
  · change t.pc + 2 + (decodeK02 hop).k * 2 = test
    rw [behind]
    exact target
  · have last : t.ClockAt ({ t.begun with pc := t.begun.pc + (decodeK02 hop).k * 2 }.charged 2) 2 :=
      rfl
    exact loaded.clock.trans last

theorem pointer_eq {s : AvrState} {i : Nat} {p : Word} (low : s.reg i = lowByte p)
    (high : s.reg (i + 1) = highByte p) : s.pointer i = p := by
  rw [AvrState.pointer, low, high, join_split]

/-- A block of constants and a sweep were executed. -/
structure Swept (w : Sweep) (constants : List (Nat × Byte)) (s s' : AvrState) : Prop where
  rest : Spares (constants.map Prod.fst ++ w.registers) s s'
  sram : ∀ i, s'.sram.peek i =
    if w.region.Holds i ∧ ¬ Shadowed (BitVec.ofNat 16 i)
    then w.value (i - w.region.start.toNat) else s.sram.peek i
  pc : s'.pc = w.base + BitVec.ofNat 16 (2 * (w.test + 3))
  clock : s.ClockAt s' (constants.length + 2 + ((w.cycles + 4) * w.region.length + 3))

theorem Entered.sweeps {w : Sweep} {constants : List (Nat × Byte)} {s t : AvrState}
    (entered : Entered constants (w.base + BitVec.ofNat 16 (2 * w.test)) s t)
    (masked : s.getFlag .I = false) (code : s.CodeAt w.base w.code)
    (upper : (w.high.val, highByte w.region.stop) ∈ constants)
    (low : (26, lowByte w.region.start) ∈ constants)
    (high : (27, highByte w.region.start) ∈ constants) (ready : w.ready 0 t) :
    ∃ u, Steps Executes ((3 + w.steps) * w.region.length + 3) t u ∧ Swept w constants s u := by
  have off : t.getFlag .I = false := (entered.rest.flags .I (by simp)).trans masked
  have pointer : t.pointer 26 = w.region.start :=
    pointer_eq (entered.values _ low) (entered.values _ high)
  obtain ⟨u, steps, done⟩ := w.sweeps off (code.same entered.rest.flash) (entered.values _ upper)
    pointer ready entered.pc
  refine ⟨u, steps, ?_, ?_, done.pc, entered.clock.trans done.clock⟩
  · exact (entered.rest.weaken (List.subset_append_left _ _)).trans
      (done.rest.weaken (List.subset_append_right _ _))
  · intro i
    rw [done.filled.peek, entered.sram]

/-! ## The two sweeps -/

/-- Where the linker put the variables, and where in flash the initial values of the first
of them. -/
structure Sections where
  data : Region
  bss : Region
  load : Word
  room : load.toNat + data.length ≤ avrFlashSize

namespace Sections

/-- __do_copy_data -/
def copyConstants (x : Sections) : List (Nat × Byte) :=
  [(17, highByte x.data.stop), (26, lowByte x.data.start), (27, highByte x.data.start),
    (30, lowByte x.load), (31, highByte x.load)]

def copyCode (x : Sections) : List Word :=
  x.copyConstants.map ldi ++
    [0xC002, 0x9005, 0x920D, cpi (26, lowByte x.data.stop), cpcHigh 17, 0xF7D9]

/-- __do_clear_bss -/
def clearConstants (x : Sections) : List (Nat × Byte) :=
  [(18, highByte x.bss.stop), (26, lowByte x.bss.start), (27, highByte x.bss.start)]

def clearCode (x : Sections) : List Word :=
  x.clearConstants.map ldi ++
    [0xC001, 0x921D, cpi (26, lowByte x.bss.stop), cpcHigh 18, 0xF7E1]

def code (x : Sections) : List Word := x.copyCode ++ x.clearCode

/-- Z at the byte of flash that is next. -/
structure Reads (x : Sections) (flash : Cells avrFlashSize Byte) (n : Nat) (s : AvrState) :
    Prop where
  pointer : s.pointer 30 = x.load + BitVec.ofNat 16 n
  flash : s.flash = flash

theorem load_toNat (x : Sections) {n : Nat} (inside : n < x.data.length) :
    (x.load + BitVec.ofNat 16 n).toNat = x.load.toNat + n ∧
      x.load.toNat + n < avrFlashSize := by
  have room : x.load.toNat + x.data.length ≤ 32768 := x.room
  constructor
  · rw [BitVec.toNat_add, BitVec.toNat_ofNat]
    omega
  · change _ < 32768
    omega

/-- LPM R0, Z+ and ST X+, R0 -/
theorem copies (x : Sections) {base : Word} {flash : Cells avrFlashSize Byte} {n : Nat}
    {s : AvrState} (room : n < x.data.length) (masked : s.getFlag .I = false)
    (code : s.CodeAt base x.copyCode) (pc : s.pc = base + BitVec.ofNat 16 (2 * 6))
    (pointer : s.pointer 26 = x.data.cell n) (ready : x.Reads flash n s) :
    ∃ s', Steps Executes 2 s s' ∧
      Round x.data (fun n => flash.peek (x.load.toNat + n)) [0, 26, 27, 30, 31]
        (base + BitVec.ofNat 16 (2 * 8)) 5 n s s' ∧
      x.Reads flash (n + 1) s' := by
  obtain ⟨address, inside⟩ := x.load_toNat room
  rw [← ready.pointer] at address
  obtain ⟨t, load, rest, value, moved, sram, next, clock⟩ :=
    executes_lpm masked code rfl pc (by rw [address]; exact inside)
  obtain ⟨low, high⟩ := x.data.cell_inside room
  have same : t.pointer 26 = x.data.cell n := (rest.pointer (by simp) (by simp)).trans pointer
  have off : t.getFlag .I = false := (rest.flags .I (by simp)).trans masked
  have behind : t.pc = base + BitVec.ofNat 16 (2 * 7) := by
    rw [next, pc, BitVec.add_assoc]
    rfl
  obtain ⟨u, store, rest', moved', sram', next', clock'⟩ :=
    executes_st (.inl rfl) off (code.same rest.flash) rfl behind (by rw [same]; exact low)
      (by rw [same]; exact high)
  refine ⟨u, .some load (.some store (.none u)), ⟨?_, ?_, ?_, ?_, clock.trans clock'⟩, ?_, ?_⟩
  · exact (rest.weaken (by simp)).trans (rest'.weaken (by simp))
  · rw [moved', same, Region.cell_succ]
  · change u.sram = (t.stored _ (t.reg 0)).sram at sram'
    rw [sram', same, value, address, ready.flash]
    unfold AvrState.stored
    split
    · exact sram
    · dsimp only
      rw [sram]
  · rw [next', behind, BitVec.add_assoc]
    rfl
  · have kept := rest'.pointer (i := 30) (by simp) (by simp)
    rw [kept, moved, ready.pointer, BitVec.add_assoc, BitVec.ofNat_add]
    rfl
  · exact rest'.flash.trans (rest.flash.trans ready.flash)

/-- ST X+, R1 -/
theorem clears (x : Sections) {base : Word} {n : Nat} {s : AvrState} (room : n < x.bss.length)
    (masked : s.getFlag .I = false) (code : s.CodeAt base x.clearCode)
    (pc : s.pc = base + BitVec.ofNat 16 (2 * 4)) (pointer : s.pointer 26 = x.bss.cell n)
    (ready : s.reg 1 = 0) :
    ∃ s', Steps Executes 1 s s' ∧
      Round x.bss (fun _ => 0) [26, 27] (base + BitVec.ofNat 16 (2 * 5)) 2 n s s' ∧
      s'.reg 1 = 0 := by
  obtain ⟨low, high⟩ := x.bss.cell_inside room
  obtain ⟨t, store, rest, moved, sram, next, clock⟩ :=
    executes_st (.inr rfl) masked code rfl pc (by rw [pointer]; exact low)
      (by rw [pointer]; exact high)
  refine ⟨t, .some store (.none t), ⟨rest, ?_, ?_, ?_, clock⟩, ?_⟩
  · rw [moved, pointer, Region.cell_succ]
  · change t.sram = (s.stored _ (s.reg 1)).sram at sram
    rw [sram, pointer, ready]
  · rw [next, pc, BitVec.add_assoc]
    rfl
  · exact (rest.reg 1 (by simp)).trans ready

def copy (x : Sections) (base : Word) (flash : Cells avrFlashSize Byte) : Sweep where
  region := x.data
  value n := flash.peek (x.load.toNat + n)
  base := base
  code := x.copyCode
  back := 6
  test := 8
  high := 17
  branch := 0xF7D9
  steps := 2
  cycles := 5
  registers := [0, 26, 27, 30, 31]
  ready := x.Reads flash
  compare := rfl
  carry := rfl
  loop := rfl
  decoded := by decide +kernel
  flag := by decide
  target := by
    rw [BitVec.add_assoc, BitVec.add_assoc]
    rfl
  free := by decide
  kept _ _ _ ready rest :=
    ⟨(rest.pointer (by simp) (by simp)).trans ready.pointer, rest.flash.trans ready.flash⟩
  body _ _ room masked code pc pointer ready := x.copies room masked code pc pointer ready

def clear (x : Sections) (base : Word) : Sweep where
  region := x.bss
  value _ := 0
  base := base
  code := x.clearCode
  back := 4
  test := 5
  high := 18
  branch := 0xF7E1
  steps := 1
  cycles := 2
  registers := [26, 27]
  ready _ s := s.reg 1 = 0
  compare := rfl
  carry := rfl
  loop := rfl
  decoded := by decide +kernel
  flag := by decide
  target := by
    rw [BitVec.add_assoc, BitVec.add_assoc]
    rfl
  free := by decide
  kept _ _ _ ready rest := (rest.reg 1 (by simp)).trans ready
  body _ _ room masked code pc pointer ready := x.clears room masked code pc pointer ready

/-- The registers that the startup code uses. -/
def scratch : List Nat := [0, 17, 18, 26, 27, 30, 31]

/-- The bytes of SRAM that a program finds when it starts: those of the bss are zero, those
of the data are in flash. Where Timer0 answers SRAM is not reached. -/
def image (x : Sections) (s : AvrState) (i : Nat) : Byte :=
  if Shadowed (BitVec.ofNat 16 i) then s.sram.peek i
  else if x.bss.Holds i then 0
  else if x.data.Holds i then s.flash.peek (x.load.toNat + (i - x.data.start.toNat))
  else s.sram.peek i

structure Initialised (x : Sections) (s s' : AvrState) : Prop where
  rest : Spares scratch s s'
  sram : ∀ i, s'.sram.peek i = x.image s i
  pc : s'.pc = s.pc + BitVec.ofNat 16 (2 * x.code.length)
  clock : s.ClockAt s' (9 * x.data.length + 6 * x.bss.length + 18)

theorem copied (x : Sections) {s : AvrState} (masked : s.getFlag .I = false)
    (code : s.CodeAt s.pc x.copyCode) :
    ∃ u, Steps Executes (6 + (5 * x.data.length + 3)) s u ∧
      Swept (x.copy s.pc s.flash) x.copyConstants s u := by
  have here : ∀ j (h : j < x.copyConstants.length),
      x.copyCode[j]? = some (ldi x.copyConstants[j]) := by
    intro j h
    rw [copyCode, List.getElem?_append_left (by simpa using h), List.getElem?_map,
      List.getElem?_eq_getElem h]
    rfl
  have target : s.pc + BitVec.ofNat 16 (2 * 5) + 2 + (decodeK02 0xC002).k * 2 =
      s.pc + BitVec.ofNat 16 (2 * 8) := by
    rw [BitVec.add_assoc, BitVec.add_assoc]
    rfl
  obtain ⟨t, enter, entered⟩ := enters masked code here rfl (by decide +kernel) target rfl
    (by simp [copyConstants]) (show [17, 26, 27, 30, 31].Nodup by decide)
  have reads : x.Reads s.flash 0 t := by
    refine ⟨?_, entered.rest.flash⟩
    rw [BitVec.add_zero]
    exact pointer_eq (entered.values (30, lowByte x.load) (by simp [copyConstants]))
      (entered.values (31, highByte x.load) (by simp [copyConstants]))
  obtain ⟨u, steps, swept⟩ := Entered.sweeps (w := x.copy s.pc s.flash) entered masked code
    (by simp [copyConstants, copy]) (by simp [copyConstants, copy])
    (by simp [copyConstants, copy]) reads
  exact ⟨u, enter.trans steps, swept⟩

theorem cleared (x : Sections) {s : AvrState} (masked : s.getFlag .I = false)
    (code : s.CodeAt s.pc x.clearCode) (zero : s.reg 1 = 0) :
    ∃ u, Steps Executes (4 + (4 * x.bss.length + 3)) s u ∧
      Swept (x.clear s.pc) x.clearConstants s u := by
  have here : ∀ j (h : j < x.clearConstants.length),
      x.clearCode[j]? = some (ldi x.clearConstants[j]) := by
    intro j h
    rw [clearCode, List.getElem?_append_left (by simpa using h), List.getElem?_map,
      List.getElem?_eq_getElem h]
    rfl
  have target : s.pc + BitVec.ofNat 16 (2 * 3) + 2 + (decodeK02 0xC001).k * 2 =
      s.pc + BitVec.ofNat 16 (2 * 5) := by
    rw [BitVec.add_assoc, BitVec.add_assoc]
    rfl
  obtain ⟨t, enter, entered⟩ := enters masked code here rfl (by decide +kernel) target rfl
    (by simp [clearConstants]) (show [18, 26, 27].Nodup by decide)
  have zero' : t.reg 1 = 0 :=
    (entered.rest.reg 1 (show 1 ∉ [18, 26, 27] by decide)).trans zero
  obtain ⟨u, steps, swept⟩ := Entered.sweeps (w := x.clear s.pc) entered masked code
    (by simp [clearConstants, clear]) (by simp [clearConstants, clear])
    (by simp [clearConstants, clear]) zero'
  exact ⟨u, enter.trans steps, swept⟩

/-- The number of instructions of the startup code. -/
def instructions (x : Sections) : Nat := 5 * x.data.length + 4 * x.bss.length + 16

theorem initialises (x : Sections) {s : AvrState} (masked : s.getFlag .I = false)
    (here : s.CodeAt s.pc x.code) (zero : s.reg 1 = 0) :
    ∃ u, Steps Executes x.instructions s u ∧ x.Initialised s u := by
  obtain ⟨first, second⟩ := here.split
  obtain ⟨t, copy, copied⟩ := x.copied masked first
  have pc : t.pc = s.pc + BitVec.ofNat 16 (2 * x.copyCode.length) := copied.pc
  have off : t.getFlag .I = false := (copied.rest.flags .I (by simp)).trans masked
  have zero' : t.reg 1 = 0 :=
    (copied.rest.reg 1 (show 1 ∉ [17, 26, 27, 30, 31] ++ [0, 26, 27, 30, 31] by decide)).trans zero
  obtain ⟨u, clear, cleared⟩ := x.cleared off (pc ▸ second.same copied.rest.flash) zero'
  have steps := copy.trans clear
  have total : 6 + (5 * x.data.length + 3) + (4 + (4 * x.bss.length + 3)) = x.instructions := by
    unfold instructions
    omega
  rw [total] at steps
  refine ⟨u, steps, ?_, ?_, ?_, ?_⟩
  · exact (copied.rest.weaken (show [17, 26, 27, 30, 31] ++ [0, 26, 27, 30, 31] ⊆ scratch by
      decide)).trans (cleared.rest.weaken (show [18, 26, 27] ++ [26, 27] ⊆ scratch by decide))
  · intro i
    rw [cleared.sram, copied.sram, image]
    by_cases shadowed : Shadowed (BitVec.ofNat 16 i)
    · simp only [shadowed, not_true_eq_false, and_false, if_false, if_true]
    · simp only [shadowed, not_false_eq_true, and_true, if_false]
      rfl
  · have last : u.pc = t.pc + BitVec.ofNat 16 (2 * x.clearCode.length) := cleared.pc
    rw [last, pc, code, List.length_append, Nat.mul_add, BitVec.ofNat_add, BitVec.add_assoc]
  · have clock : s.ClockAt u (x.copyConstants.length + 2 + ((5 + 4) * x.data.length + 3) +
        (x.clearConstants.length + 2 + ((2 + 4) * x.bss.length + 3))) :=
      copied.clock.trans cleared.clock
    have sum : x.copyConstants.length + 2 + ((5 + 4) * x.data.length + 3) +
        (x.clearConstants.length + 2 + ((2 + 4) * x.bss.length + 3)) =
          9 * x.data.length + 6 * x.bss.length + 18 := by
      simp only [copyConstants, clearConstants, List.length_cons, List.length_nil]
      omega
    rw [sum] at clock
    exact clock

end Sections

/-- What `main` finds. With interrupts off and whatever the host does, the startup code
fills SRAM from flash and with zeros, in a time that depends on the sizes only. -/
theorem startup_initialises_sram (x : Sections) {p : Program} (masked : p.cpu.getFlag .I = false)
    (code : p.cpu.CodeAt p.cpu.pc x.code) (zero : p.cpu.reg 1 = 0) :
    p.Passes x.instructions (fun _ => True) (x.Initialised p.cpu) := by
  obtain ⟨s, steps, initialised⟩ := x.initialises masked code zero
  exact Program.passes steps initialised fun _ _ _ _ => trivial

/-- Two bytes of data, with their values behind the code, and one of bss. -/
def small : Sections where
  data := ⟨0x0100, 0x0102, by decide, by decide, by decide⟩
  bss := ⟨0x0102, 0x0103, by decide, by decide, by decide⟩
  load := 38
  room := by decide

def starting : Program := .start (.initial (Program.firmware (small.code ++ [0xBEEF]))) true none

theorem starting_initialises : ∃ trace u, Run Program.step anything starting trace u ∧
    executions trace = 30 ∧ u.cpu.cycleCount = 42 ∧ u.cpu.pc = 38 ∧
    (List.range 4).map (fun i => u.cpu.sram.peek (0x0100 + i)) = [0xEF, 0xBE, 0, 0] := by
  have passes := startup_initialises_sram small (p := starting) (by decide +kernel)
    (by decide +kernel) (by decide +kernel)
  obtain ⟨trace, u, run, -, total, done⟩ := passes.ends rfl
  have filled : (List.range 4).map (fun i => small.image starting.cpu (0x0100 + i)) =
      [0xEF, 0xBE, 0, 0] := by
    decide +kernel
  refine ⟨trace, u, run, total, done.clock, done.pc, ?_⟩
  rw [← filled]
  exact List.map_congr_left fun i _ => done.sram (0x0100 + i)

end AvrEmulator
