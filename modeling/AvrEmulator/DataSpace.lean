import Mathlib.Tactic.IntervalCases
import AvrEmulator.Memory

/-! The plain part of the data space: a byte written there is read back until the next write,
save in the SRAM cells that a Timer0 register answers for. -/

namespace AvrEmulator

/-- Register file, SPL, SPH, SREG and SRAM: everything but peripheral registers. -/
def Plain (a : Word) : Prop :=
  a < 0x20 ∨ a = 0x5D ∨ a = 0x5E ∨ a = 0x5F ∨ (0x0100 ≤ a ∧ a ≤ 0x08FF)

instance (a : Word) : Decidable (Plain a) := by unfold Plain; infer_instance

namespace Timer0

/-- The I/O addresses the two switches of `timer0.cpp` answer. -/
def answers (ioAddr : Byte) : Bool :=
  [0x24, 0x25, 0x26, 0x27, 0x28, 0x4E, 0x15].contains ioAddr

theorem timer0Read_isSome (t : Timer0) (io : Byte) : (t.timer0Read io).isSome = answers io := by
  unfold timer0Read
  split <;> simp_all [answers]

theorem timer0Write_isSome (t : Timer0) (io v : Byte) :
    (t.timer0Write io v).isSome = answers io := by
  unfold timer0Write
  split <;> simp_all [answers]

end Timer0

/-- The I/O address a data-space address is cut to before Timer0 sees it. -/
def timerIo (a : Word) : Byte := (a - 0x20).setWidth 8

/-- An SRAM address whose low byte makes Timer0 answer in its place. -/
def Shadowed (a : Word) : Prop := 0x0100 ≤ a ∧ a ≤ 0x08FF ∧ Timer0.answers (timerIo a) = true

instance (a : Word) : Decidable (Shadowed a) := by unfold Shadowed; infer_instance

/-- What a read of a plain address gives. -/
def Machine.load (m : Machine) (a : Word) : Byte :=
  if a < 0x20 then m.state.reg a.toNat
  else if a = 0x5D then (m.state.sp &&& 0xFF).setWidth 8
  else if a = 0x5E then (m.state.sp >>> 8).setWidth 8
  else if a = 0x5F then m.state.sreg
  else (m.timer0.timer0Read (timerIo a)).getD (m.state.sram.peek a.toNat)

/-- The machine after a write to a plain address. -/
def Machine.store (m : Machine) (a : Word) (v : Byte) : Machine :=
  if a < 0x20 then m.setState (m.state.setReg a.toNat v)
  else if a = 0x5D then
    m.setState { m.state with sp := (m.state.sp &&& 0xFF00) ||| v.setWidth 16 }
  else if a = 0x5E then
    m.setState { m.state with sp := (m.state.sp &&& 0x00FF) ||| (v.setWidth 16 <<< 8) }
  else if a = 0x5F then m.setState { m.state with sreg := v }
  else
    match m.timer0.timer0Write (timerIo a) v with
    | some timer0 => { m with timer0 := timer0 }
    | none => m.setState { m.state with sram := m.state.sram.poke a.toNat v }

theorem run_sramAt {s : AvrState} {i : Nat} (h : i < avrSramSize) :
    (sramAt i).run s = some (s.sram.peek i, s) := by
  simp [sramAt, Cells.read?_eq _ h]

theorem run_setSramAt {s : AvrState} {i : Nat} (v : Byte) (h : i < avrSramSize) :
    (setSramAt i v).run s = some ((), { s with sram := s.sram.poke i v }) := by
  simp [setSramAt, Cells.write?_eq _ _ h]

/-- The address gets past every test of the routing chain but Timer0's and the last. -/
structure Routed (a : Word) : Prop where
  core : ¬ a < 0x20 ∧ a ≠ 0x5D ∧ a ≠ 0x5E ∧ a ≠ 0x5F
  uart : ¬ (a ≥ 0xC0 ∧ a ≤ 0xC6) ∧ ¬ (a ≥ 0x29 ∧ a ≤ 0x2D)

theorem readDataByte_routed {a : Word} (m : Machine) (h : Routed a) :
    (readDataByte a).run m = match m.timer0.timer0Read (timerIo a) with
      | some value => some (value, m)
      | none =>
        if a ≤ 0x08FF then some (m.state.sram.peek a.toNat, m)
        else (do faultDataAddr a "read"; return 0 : Emu Byte).run m := by
  obtain ⟨⟨h₀, h₁, h₂, h₃⟩, h₄, h₅⟩ := h
  simp only [readDataByte, StateT.run_bind, StateT.run_get, Option.pure_def, Option.bind_eq_bind,
    Option.bind_some, h₀, h₁, h₂, h₃, h₄, h₅, ↓reduceIte, timerIo]
  cases m.timer0.timer0Read ((a - 0x20).setWidth 8) with
  | some value => rfl
  | none =>
    by_cases inside : a ≤ 0x08FF
    · have ok : dataAddrOk a = true := decide_eq_true inside
      have bound : a.toNat < 2304 := by bv_omega
      simp only [ok, inside, ↓reduceIte]
      exact run_onCpu (run_sramAt bound)
    · have bad : dataAddrOk a = false := decide_eq_false inside
      simp only [bad, inside, ↓reduceIte]
      rfl

theorem writeDataByte_routed {a : Word} (m : Machine) (v : Byte) (h : Routed a) :
    (writeDataByte a v).run m = match m.timer0.timer0Write (timerIo a) v with
      | some timer0 => some ((), { m with timer0 := timer0 })
      | none =>
        if a ≤ 0x08FF then
          some ((), m.setState { m.state with sram := m.state.sram.poke a.toNat v })
        else (faultDataAddr a "write").run m := by
  obtain ⟨⟨h₀, h₁, h₂, h₃⟩, h₄, h₅⟩ := h
  simp only [writeDataByte, StateT.run_bind, StateT.run_get, Option.pure_def, Option.bind_eq_bind,
    Option.bind_some, h₀, h₁, h₂, h₃, h₄, h₅, ↓reduceIte, timerIo]
  cases m.timer0.timer0Write ((a - 0x20).setWidth 8) v with
  | some timer0 => rfl
  | none =>
    by_cases inside : a ≤ 0x08FF
    · have ok : dataAddrOk a = true := decide_eq_true inside
      have bound : a.toNat < 2304 := by bv_omega
      simp only [ok, inside, ↓reduceIte]
      exact run_onCpu (run_setSramAt v bound)
    · have bad : dataAddrOk a = false := decide_eq_false inside
      simp only [bad, inside, ↓reduceIte]
      rfl

theorem sram_routed {a : Word} (lo : 0x0100 ≤ a) : Routed a :=
  ⟨⟨by bv_omega, by bv_omega, by bv_omega, by bv_omega⟩, by bv_omega, by bv_omega⟩

theorem readDataByte_plain {a : Word} (m : Machine) (h : Plain a) :
    (readDataByte a).run m = some (m.load a, m) := by
  rcases h with h | rfl | rfl | rfl | ⟨lo, hi⟩
  · have hr : a.toNat < 32 := by bv_omega
    simp only [readDataByte, Machine.load, StateT.run_bind, StateT.run_get, Option.pure_def,
      Option.bind_eq_bind, Option.bind_some, h, ↓reduceIte]
    exact run_onCpu (run_regAt hr)
  · rfl
  · rfl
  · rfl
  · obtain ⟨h₀, h₁, h₂, h₃⟩ := (sram_routed lo).core
    rw [readDataByte_routed m (sram_routed lo), if_pos hi]
    simp only [Machine.load, h₀, h₁, h₂, h₃, ↓reduceIte]
    cases m.timer0.timer0Read (timerIo a) <;> rfl

theorem writeDataByte_plain {a : Word} (m : Machine) (v : Byte) (h : Plain a) :
    (writeDataByte a v).run m = some ((), m.store a v) := by
  rcases h with h | rfl | rfl | rfl | ⟨lo, hi⟩
  · have hr : a.toNat < 32 := by bv_omega
    simp only [writeDataByte, Machine.store, StateT.run_bind, StateT.run_get, Option.pure_def,
      Option.bind_eq_bind, Option.bind_some, h, ↓reduceIte]
    exact run_onCpu (run_setRegAt v hr)
  · rfl
  · rfl
  · rfl
  · obtain ⟨h₀, h₁, h₂, h₃⟩ := (sram_routed lo).core
    rw [writeDataByte_routed m v (sram_routed lo), if_pos hi]
    simp only [Machine.store, h₀, h₁, h₂, h₃, ↓reduceIte]
    cases m.timer0.timer0Write (timerIo a) v <;> rfl

theorem store_unshadowed (m : Machine) {a : Word} (v : Byte) (h : Plain a) (hs : ¬ Shadowed a) :
    ∃ s, m.store a v = m.setState s := by
  unfold Machine.store
  repeat' split
  all_goals first | exact ⟨_, rfl⟩ | skip
  next h₀ h₁ h₂ h₃ _ timer0 hw =>
    have sram : 0x0100 ≤ a ∧ a ≤ 0x08FF := by
      rcases h with h | h | h | h | h
      · exact absurd h h₀
      · exact absurd h h₁
      · exact absurd h h₂
      · exact absurd h h₃
      · exact h
    have answers := m.timer0.timer0Write_isSome (timerIo a) v
    rw [hw] at answers
    exact absurd ⟨sram.1, sram.2, answers.symm⟩ hs

theorem spl_write (sp : Word) (v : Byte) :
    (((sp &&& 0xFF00) ||| v.setWidth 16) &&& 0xFF).setWidth 8 = v ∧
      (((sp &&& 0xFF00) ||| v.setWidth 16) >>> 8).setWidth 8 = (sp >>> 8).setWidth 8 := by
  constructor <;> ext i hi <;> interval_cases i <;> simp

theorem sph_write (sp : Word) (v : Byte) :
    (((sp &&& 0x00FF) ||| (v.setWidth 16 <<< 8)) >>> 8).setWidth 8 = v ∧
      (((sp &&& 0x00FF) ||| (v.setWidth 16 <<< 8)) &&& 0xFF).setWidth 8 =
        (sp &&& 0xFF).setWidth 8 := by
  constructor <;> ext i hi <;> interval_cases i <;> simp

theorem load_reg (m : Machine) {b : Word} (h : b < 0x20) : m.load b = m.state.reg b.toNat := by
  simp only [Machine.load, h, ↓reduceIte]

theorem load_sram (m : Machine) {b : Word} (lo : 0x0100 ≤ b) :
    m.load b = (m.timer0.timer0Read (timerIo b)).getD (m.state.sram.peek b.toNat) := by
  obtain ⟨h₀, h₁, h₂, h₃⟩ := (sram_routed lo).core
  simp only [Machine.load, h₀, h₁, h₂, h₃, ↓reduceIte]

theorem store_reg (m : Machine) {a : Word} (v : Byte) (h : a < 0x20) :
    m.store a v = m.setState (m.state.setReg a.toNat v) := by
  simp only [Machine.store, h, ↓reduceIte]

theorem store_sram (m : Machine) {a : Word} (v : Byte) (lo : 0x0100 ≤ a) (hi : a ≤ 0x08FF)
    (hs : ¬ Shadowed a) :
    m.store a v = m.setState { m.state with sram := m.state.sram.poke a.toNat v } := by
  obtain ⟨h₀, h₁, h₂, h₃⟩ := (sram_routed lo).core
  have silent : m.timer0.timer0Write (timerIo a) v = none := by
    rw [← Option.not_isSome_iff_eq_none, Timer0.timer0Write_isSome]
    exact fun answers => hs ⟨lo, hi, answers⟩
  simp only [Machine.store, h₀, h₁, h₂, h₃, ↓reduceIte, silent]

/-- A read depends on its own cell and on Timer0. -/
theorem load_congr {m m' : Machine} {b : Word} (reg : m'.state.reg b.toNat = m.state.reg b.toNat)
    (spl : b = 0x5D → (m'.state.sp &&& 0xFF).setWidth 8 = (m.state.sp &&& 0xFF).setWidth 8)
    (sph : b = 0x5E → (m'.state.sp >>> 8).setWidth 8 = (m.state.sp >>> 8).setWidth 8)
    (sreg : b = 0x5F → m'.state.sreg = m.state.sreg)
    (sram : m'.state.sram.peek b.toNat = m.state.sram.peek b.toNat)
    (timer0 : m'.timer0 = m.timer0) : m'.load b = m.load b := by
  unfold Machine.load
  split
  · exact reg
  split
  next h => exact spl h
  split
  next h => exact sph h
  split
  next h => exact sreg h
  · rw [timer0, sram]

/-- A plain write reads back where no register shadows it. -/
theorem load_store_self {a : Word} (m : Machine) (v : Byte) (ha : Plain a) (hs : ¬ Shadowed a) :
    (m.store a v).load a = v := by
  rcases ha with h | rfl | rfl | rfl | ⟨lo, hi⟩
  · rw [store_reg m v h, load_reg _ h]
    exact AvrState.reg_setReg_self _ _ (by bv_omega)
  · exact (spl_write m.state.sp v).1
  · exact (sph_write m.state.sp v).1
  · rfl
  · have silent : m.timer0.timer0Read (timerIo a) = none := by
      rw [← Option.not_isSome_iff_eq_none, Timer0.timer0Read_isSome]
      exact fun answers => hs ⟨lo, hi, answers⟩
    have bound : a.toNat < 2304 := by bv_omega
    rw [store_sram m v lo hi hs, load_sram _ lo]
    simp [Machine.setState, silent, bound]

theorem load_store_of_ne {a b : Word} (m : Machine) (v : Byte) (ha : Plain a) (hs : ¬ Shadowed a)
    (ne : b ≠ a) : (m.store a v).load b = m.load b := by
  have apart : b.toNat ≠ a.toNat := fun h => ne (BitVec.eq_of_toNat_eq h)
  rcases ha with h | rfl | rfl | rfl | ⟨lo, hi⟩
  · rw [store_reg m v h]
    exact load_congr (AvrState.reg_setReg_of_ne _ _ apart) (fun _ => rfl) (fun _ => rfl)
      (fun _ => rfl) rfl rfl
  · exact load_congr rfl (fun h => absurd h ne) (fun _ => (spl_write m.state.sp v).2)
      (fun _ => rfl) rfl rfl
  · exact load_congr rfl (fun _ => (sph_write m.state.sp v).2) (fun h => absurd h ne)
      (fun _ => rfl) rfl rfl
  · exact load_congr rfl (fun _ => rfl) (fun _ => rfl) (fun h => absurd h ne) rfl rfl
  · rw [store_sram m v lo hi hs]
    exact load_congr rfl (fun _ => rfl) (fun _ => rfl) (fun _ => rfl)
      (Cells.peek_poke_of_ne _ _ apart) rfl

/-- The cell a plain write hits, and the frame around it. -/
theorem load_store {a : Word} (b : Word) (m : Machine) (v : Byte) (ha : Plain a)
    (hs : ¬ Shadowed a) : (m.store a v).load b = if b = a then v else m.load b := by
  split
  next same =>
    rw [same]
    exact load_store_self m v ha hs
  next apart => exact load_store_of_ne m v ha hs apart

/-! ## The storage law -/

/-- No fault is raised and no peripheral register or pending interrupt changes. -/
structure Quiet (m m' : Machine) : Prop where
  fault : m'.fault = m.fault
  timer0 : m'.timer0 = m.timer0
  uart : m'.uart = m.uart
  interrupts : m'.interrupts = m.interrupts

theorem Quiet.refl (m : Machine) : Quiet m m := ⟨rfl, rfl, rfl, rfl⟩

theorem Quiet.trans {m₁ m₂ m₃ : Machine} (h : Quiet m₁ m₂) (h' : Quiet m₂ m₃) : Quiet m₁ m₃ :=
  ⟨h'.fault.trans h.fault, h'.timer0.trans h.timer0, h'.uart.trans h.uart,
    h'.interrupts.trans h.interrupts⟩

/-- A read of `b` after a write of `v` to `a`, against the read of `b` before it. -/
def StorageLaw (m : Machine) (a b : Word) (v : Byte) : Prop :=
  ∃ old m₀ m₁ new m₂,
    (readDataByte b).run m = some (old, m₀) ∧
    (writeDataByte a v).run m = some ((), m₁) ∧
    (readDataByte b).run m₁ = some (new, m₂) ∧
    new = (if b = a then v else old) ∧ Quiet m m₁ ∧ Quiet m₁ m₂

/-- The Timer0 register at an I/O address is in the state that storing `v` gives. -/
def Timer0.Absorbs (t : Timer0) (ioAddr v : Byte) : Prop :=
  match ioAddr with
  | 0x24 => v = t.tccr0a
  | 0x25 => v = t.tccr0b
  | 0x26 => v = t.tcnt0 ∧ 0 = t.prescalerAcc
  | 0x27 => v = t.ocr0a
  | 0x28 => v = t.ocr0b
  | 0x4E => v = t.timsk0
  | 0x15 => t.tifr0 &&& v = 0
  | _ => True

/-- Either `a` is not shadowed, or the Timer0 register in its place already holds
the stored value. TIFR0 stores nothing, so it can only ever give back 0. -/
def Agrees (t : Timer0) (a b : Word) (v : Byte) : Prop :=
  Shadowed a → t.Absorbs (timerIo a) v ∧ (b = a → timerIo a = 0x15 → t.tifr0 = v)

theorem storageLaw_iff {a b : Word} (m : Machine) (v : Byte) (ha : Plain a) (hb : Plain b) :
    StorageLaw m a b v ↔
      (m.store a v).load b = (if b = a then v else m.load b) ∧ Quiet m (m.store a v) := by
  constructor
  · rintro ⟨old, m₀, m₁, new, m₂, hr, hw, hr', hn, q, -⟩
    rw [readDataByte_plain m hb] at hr
    rw [writeDataByte_plain m v ha] at hw
    cases hr
    cases hw
    rw [readDataByte_plain _ hb] at hr'
    cases hr'
    exact ⟨hn, q⟩
  · rintro ⟨hn, q⟩
    exact ⟨_, _, _, _, _, readDataByte_plain m hb, writeDataByte_plain m v ha,
      readDataByte_plain _ hb, hn, q, Quiet.refl _⟩

theorem Timer0.absorbs_iff (t : Timer0) (io v : Byte) (h : answers io = true) :
    t.Absorbs io v ↔ t.timer0Write io v = some t := by
  obtain ⟨a, b, c, o, o', k, f, p⟩ := t
  unfold Absorbs timer0Write
  split <;> simp_all [answers, Bits.and_not_self_iff]

theorem store_shadowed (m : Machine) {a : Word} (v : Byte) (hs : Shadowed a) :
    ∃ t, m.timer0.timer0Write (timerIo a) v = some t ∧ m.store a v = { m with timer0 := t } := by
  obtain ⟨lo, hi, answers⟩ := hs
  obtain ⟨h₀, h₁, h₂, h₃⟩ := (sram_routed lo).core
  rw [← m.timer0.timer0Write_isSome _ v] at answers
  obtain ⟨t, ht⟩ := Option.isSome_iff_exists.mp answers
  exact ⟨t, ht, by simp only [Machine.store, h₀, h₁, h₂, h₃, ↓reduceIte, ht]⟩

/-- A register that absorbs the stored value gives it back, TIFR0 excepted. -/
theorem Timer0.read_absorbed (t : Timer0) (io v : Byte) (h : answers io = true)
    (ha : t.Absorbs io v) : t.timer0Read io = some v ↔ (io = 0x15 → t.tifr0 = v) := by
  unfold Absorbs at ha
  unfold timer0Read
  split <;> simp_all [answers]

/-- A shadowed write keeps the law exactly when the register absorbs it. -/
theorem shadowed_law {a b : Word} (m : Machine) (v : Byte) (hs : Shadowed a) :
    (m.store a v).load b = (if b = a then v else m.load b) ∧ Quiet m (m.store a v) ↔
      m.timer0.Absorbs (timerIo a) v ∧ (b = a → timerIo a = 0x15 → m.timer0.tifr0 = v) := by
  obtain ⟨t, ht, hstore⟩ := store_shadowed m v hs
  have lo := hs.1
  have hi := hs.2.1
  have answers := hs.2.2
  rw [hstore, Timer0.absorbs_iff _ _ _ answers]
  constructor
  · rintro ⟨hl, q⟩
    have same : t = m.timer0 := q.timer0
    subst same
    refine ⟨ht, ?_⟩
    rintro rfl
    have absorbs := (Timer0.absorbs_iff _ _ _ answers).mpr ht
    rw [if_pos rfl, load_sram _ lo] at hl
    obtain ⟨w, hw⟩ := Option.isSome_iff_exists.mp
      ((m.timer0.timer0Read_isSome (timerIo b)).trans answers)
    rw [hw, Option.getD_some] at hl
    exact (Timer0.read_absorbed _ _ _ answers absorbs).mp (hl ▸ hw)
  · rintro ⟨absorbed, back⟩
    have same : t = m.timer0 := by
      rw [ht] at absorbed
      exact Option.some.inj absorbed
    subst same
    refine ⟨?_, Quiet.refl m⟩
    split
    next h =>
      subst h
      have absorbs := (Timer0.absorbs_iff _ _ _ answers).mpr absorbed
      rw [load_sram _ lo, (Timer0.read_absorbed _ _ _ answers absorbs).mpr (back rfl)]
      rfl
    next => rfl

theorem law_iff_agrees {a b : Word} (m : Machine) (v : Byte) (ha : Plain a) (hb : Plain b) :
    StorageLaw m a b v ↔ Agrees m.timer0 a b v := by
  rw [storageLaw_iff m v ha hb]
  unfold Agrees
  by_cases hs : Shadowed a
  · simp only [hs, true_imp_iff]
    exact shadowed_law m v hs
  · have quiet : Quiet m (m.store a v) := by
      obtain ⟨s, h⟩ := store_unshadowed m v ha hs
      rw [h]
      exact ⟨rfl, rfl, rfl, rfl⟩
    simp only [hs, false_imp_iff, iff_true]
    exact ⟨load_store b m v ha hs, quiet⟩

def writeAll : List (Word × Byte) → Emu Unit
  | [] => pure ()
  | w :: ws => do
    writeDataByte w.1 w.2
    writeAll ws

/-- The value of the last write to `b`, if there is one. -/
def lastWrite : List (Word × Byte) → Word → Option Byte
  | [], _ => none
  | w :: ws, b => (lastWrite ws b).or (if b = w.1 then some w.2 else none)

theorem lastWrite_append (first second : List (Word × Byte)) (a : Word) :
    lastWrite (first ++ second) a = (lastWrite second a).or (lastWrite first a) := by
  induction first with
  | nil => exact Option.or_none.symm
  | cons w ws ih => rw [List.cons_append, lastWrite, lastWrite, ih, Option.or_assoc]

/-- A run of writes that agree with the Timer0 registers reads back everywhere. -/
theorem writeAll_reads (ws : List (Word × Byte)) (m : Machine)
    (hw : ∀ w ∈ ws, Plain w.1 ∧ Agrees m.timer0 w.1 w.1 w.2) :
    ∃ m', (writeAll ws).run m = some ((), m') ∧ Quiet m m' ∧
      ∀ b, Plain b → m'.load b = (lastWrite ws b).getD (m.load b) := by
  induction ws generalizing m with
  | nil => exact ⟨m, rfl, Quiet.refl m, fun b _ => rfl⟩
  | cons w ws ih =>
    obtain ⟨plain, agrees⟩ := hw w List.mem_cons_self
    have step (b : Word) (hb : Plain b) :=
      (storageLaw_iff m w.2 plain hb).mp ((law_iff_agrees m w.2 plain hb).mpr fun hs =>
        ⟨(agrees hs).1, fun _ => (agrees hs).2 rfl⟩)
    have quiet : Quiet m (m.store w.1 w.2) := (step w.1 plain).2
    obtain ⟨m', hrun, hq, hload⟩ := ih (m.store w.1 w.2) (by
      intro u hu
      rw [quiet.timer0]
      exact hw u (List.mem_cons_of_mem _ hu))
    refine ⟨m', ?_, quiet.trans hq, ?_⟩
    · rw [writeAll, Checked.run_bind_of (writeDataByte_plain m w.2 plain), hrun]
    · intro b hb
      rw [hload b hb, (step b hb).1, lastWrite]
      cases lastWrite ws b with
      | some x => rfl
      | none =>
        by_cases h : b = w.1 <;> simp [h]

/-- Reads and writes of the plain data space obey the storage law exactly where
no Timer0 register shadows the written cell or the register already agrees. -/
theorem plain_storage_law (m : Machine) :
    (∀ (a b : Word) (v : Byte), Plain a → Plain b →
      (StorageLaw m a b v ↔ Agrees m.timer0 a b v)) ∧
    (∀ ws : List (Word × Byte), (∀ w ∈ ws, Plain w.1 ∧ Agrees m.timer0 w.1 w.1 w.2) →
      ∃ m', (writeAll ws).run m = some ((), m') ∧ Quiet m m' ∧
        ∀ b, Plain b → ∃ old m₀, (readDataByte b).run m = some (old, m₀) ∧
          (readDataByte b).run m' = some ((lastWrite ws b).getD old, m')) := by
  refine ⟨fun a b v ha hb => law_iff_agrees m v ha hb, ?_⟩
  intro ws hw
  obtain ⟨m', hrun, hq, hload⟩ := writeAll_reads ws m hw
  refine ⟨m', hrun, hq, fun b hb => ⟨_, _, readDataByte_plain m hb, ?_⟩⟩
  rw [readDataByte_plain m' hb, hload b hb]

theorem plain_storage_law_at_ramend : StorageLaw (Machine.initial .zero) 0x08FF 0x08FF 0x5A :=
  ((plain_storage_law _).1 _ _ _ (by decide) (by decide)).mpr fun h => absurd h (by decide)

/-- 0x0135 is cut to the address of TIFR0: the byte stored there is lost. -/
theorem storage_law_fails :
    Plain 0x0135 ∧ ¬ StorageLaw (Machine.initial .zero) 0x0135 0x0135 0x5A := by
  refine ⟨by decide, ?_⟩
  rintro ⟨old, m₀, m₁, new, m₂, -, hw, hr, hn, -, -⟩
  cases hw
  cases hr
  rw [if_pos rfl] at hn
  exact absurd hn (by decide)

end AvrEmulator
