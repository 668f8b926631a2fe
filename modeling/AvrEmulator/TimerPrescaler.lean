import AvrEmulator.Library.Transition
import AvrEmulator.TimerCycles

/-! The prescaler accumulator under register writes between the ticks. It holds
the cycles of an unfinished prescaler tick, counted for whichever divider was
selected at the time. -/

namespace AvrEmulator

namespace Timer0

open Transition

/-- A call into the timer. -/
inductive Action where
  | tick (cycles : Word)
  | write (ioAddr value : Byte)
  deriving DecidableEq, Repr

/-- A write that `timer0Write` does not answer changes nothing. -/
def act (t : Timer0) : Action → Timer0
  | .tick cycles => t.timer0Tick cycles
  | .write ioAddr value => (t.timer0Write ioAddr value).getD t

def actStep (t : Timer0) (a : Action) : Option (Unit × Timer0) := some ((), t.act a)

/-- Less than one prescaler tick is left over. -/
def Fractional (t : Timer0) : Prop :=
  t.prescalerDivider ≠ 0 → t.prescalerAcc < t.prescalerDivider

instance (t : Timer0) : Decidable t.Fractional := by unfold Fractional; infer_instance

/-- The divider that a write to TCCR0B selects. -/
def selects (t : Timer0) (value : Byte) : Word := prescalerDivider { t with tccr0b := value }

/-- A write to TCCR0B stops the clock or selects a divider above the accumulator. -/
def Coarser (t : Timer0) : Action → Prop
  | .write ioAddr value =>
    ioAddr = 0x25 → t.selects value = 0 ∨ t.prescalerAcc < t.selects value
  | .tick _ => True

instance (t : Timer0) (a : Action) : Decidable (t.Coarser a) := by
  cases a <;> unfold Coarser <;> infer_instance

/-- A tick is so many turns of the drain loop on the refilled accumulator. -/
theorem timer0Tick_turns (t : Timer0) (cycles : Word) (hdiv : t.prescalerDivider ≠ 0) :
    t.timer0Tick cycles = (tickOnce t.prescalerDivider t.wgm t.top)^[
        (t.prescalerAcc + cycles).toNat / t.prescalerDivider.toNat]
        { t with prescalerAcc := t.prescalerAcc + cycles } ∧
      (t.timer0Tick cycles).prescalerAcc.toNat =
        (t.prescalerAcc + cycles).toNat % t.prescalerDivider.toNat := by
  have hpos : 0 < t.prescalerDivider.toNat := by bv_omega
  have drained := drain_turns t.wgm t.top_lt hpos (t.prescalerAcc + cycles).toNat
    { t with prescalerAcc := t.prescalerAcc + cycles } (Nat.le_refl _)
  have run : t.timer0Tick cycles =
      drain t.prescalerDivider t.wgm t.top (t.prescalerAcc + cycles).toNat
        { t with prescalerAcc := t.prescalerAcc + cycles } := by
    simp only [timer0Tick, hdiv, ↓reduceIte]
    rfl
  rw [run]
  exact drained

theorem iterate_tickOnce_setup {div : Word} {mode : Byte} {top : Word} (htop : top.toNat < 256)
    (t : Timer0) (n : Nat) : SameSetup t ((tickOnce div mode top)^[n] t) := by
  induction n with
  | zero => exact ⟨rfl, rfl, rfl, rfl, rfl⟩
  | succ n ih =>
    rw [Function.iterate_succ_apply']
    exact ih.trans (tickOnce_spec div mode top _ htop).setup

theorem timer0Tick_divider (t : Timer0) (cycles : Word) :
    (t.timer0Tick cycles).prescalerDivider = t.prescalerDivider := by
  by_cases hdiv : t.prescalerDivider = 0
  · simp only [timer0Tick, hdiv, ↓reduceIte]
  · rw [(t.timer0Tick_turns cycles hdiv).1]
    exact (iterate_tickOnce_setup t.top_lt _ _).divider

/-- Every tick ends with less than one prescaler tick left over. -/
theorem timer0Tick_fractional (t : Timer0) (cycles : Word) : (t.timer0Tick cycles).Fractional := by
  intro hdiv
  rw [timer0Tick_divider] at hdiv ⊢
  have hpos : 0 < t.prescalerDivider.toNat := by bv_omega
  rw [BitVec.lt_def, (t.timer0Tick_turns cycles hdiv).2]
  exact Nat.mod_lt _ hpos

/-- A write anywhere but to TCCR0B keeps the divider and does not raise the accumulator. -/
theorem write_fractional {t : Timer0} {ioAddr value : Byte} (old : t.Fractional)
    (other : ioAddr ≠ 0x25) : (t.act (.write ioAddr value)).Fractional := by
  have kept {u : Timer0} (control : u.tccr0b = t.tccr0b) (acc : u.prescalerAcc ≤ t.prescalerAcc) :
      u.Fractional := by
    unfold Fractional at old ⊢
    have divider : u.prescalerDivider = t.prescalerDivider := by
      simp only [prescalerDivider, control]
    rw [divider]
    intro hdiv
    exact Nat.lt_of_le_of_lt acc (old hdiv)
  have same : t.prescalerAcc ≤ t.prescalerAcc := Nat.le_refl _
  unfold act timer0Write
  dsimp only
  split
  case h_2 => exact absurd rfl other
  case h_3 => exact kept rfl (Nat.zero_le _)
  all_goals exact kept rfl same

/-- The invariant survives a call exactly under the condition. -/
theorem act_fractional_iff {t : Timer0} (a : Action) (old : t.Fractional) :
    (t.act a).Fractional ↔ t.Coarser a := by
  cases a with
  | tick cycles => exact iff_of_true (t.timer0Tick_fractional cycles) trivial
  | write ioAddr value =>
    by_cases control : ioAddr = 0x25
    · subst control
      have written : (t.act (.write 0x25 value)).Fractional ↔
          t.selects value = 0 ∨ t.prescalerAcc < t.selects value := Decidable.imp_iff_not_or.trans
        (or_congr_left not_not)
      rw [written]
      exact ⟨fun h _ => h, fun h => h rfl⟩
    · exact iff_of_true (write_fractional old control) fun h => absurd h control

/-- With less than a prescaler tick left over a tick makes at most `⌈c / d⌉` turns. -/
theorem turns_le {acc c d : Nat} (hd : 0 < d) (h : acc < d) :
    (acc + c) % 65536 / d ≤ (c + d - 1) / d := by
  have wrapped : (acc + c) % 65536 ≤ acc + c := Nat.mod_le _ _
  exact Nat.div_le_div_right (by omega)

theorem reset_fractional : timer0Reset.Fractional := by decide

/-- In every run from reset in which no TCCR0B write selects a divider that the
accumulator has reached, less than one prescaler tick is left over before every
tick, and a tick counts at most `⌈c / d⌉`. That condition is exact for each call. -/
theorem accumulator_stays_fractional (t : Timer0) :
    (∀ trace : List (Action × Unit), Run actStep Coarser timer0Reset trace t →
      t.Fractional ∧ ∀ cycles : Word, t.prescalerDivider ≠ 0 →
        ∃ n ≤ (cycles.toNat + t.prescalerDivider.toNat - 1) / t.prescalerDivider.toNat,
          t.timer0Tick cycles = (tickOnce t.prescalerDivider t.wgm t.top)^[n]
            { t with prescalerAcc := t.prescalerAcc + cycles }) ∧
    ∀ a : Action, t.Fractional → ((t.act a).Fractional ↔ t.Coarser a) := by
  refine ⟨fun trace run => ?_, fun a old => act_fractional_iff a old⟩
  have fractional : t.Fractional := by
    refine run.invariant (fun t a e u old coarser taken => ?_) reset_fractional
    cases taken
    exact (act_fractional_iff a old).mpr coarser
  refine ⟨fractional, fun cycles hdiv => ⟨_, ?_, (t.timer0Tick_turns cycles hdiv).1⟩⟩
  rw [BitVec.toNat_add]
  exact turns_le (by bv_omega) (fractional hdiv)

/-- Divider 1024 is stopped and restarted, then 8 is selected with 4 cycles left over. -/
theorem slower_clock_then_faster : ∃ t : Timer0,
    Run actStep Coarser timer0Reset
      [(.write 0x25 5, ()), (.tick 4, ()), (.write 0x25 0, ()), (.write 0x25 2, ())] t ∧
    t.Fractional := by
  have h : (feed actStep Coarser timer0Reset
      [.write 0x25 5, .tick 4, .write 0x25 0, .write 0x25 2]).isSome = true := by decide
  obtain ⟨⟨es, t⟩, fed⟩ := Option.isSome_iff_exists.mp h
  have run := run_of_feed fed
  match es, run with
  | [(), (), (), ()], run => exact ⟨t, run, ((accumulator_stays_fractional t).1 _ run).1⟩

/-- After two 4-cycle instructions under divider 1024, divider 1 is selected: the
8 cycles left over become 8 counts, and the next cycle makes the ninth. -/
theorem faster_clock_counts_a_burst : ∃ t : Timer0,
    Run actStep anything timer0Reset
      [(.write 0x25 5, ()), (.tick 4, ()), (.tick 4, ()), (.write 0x25 1, ())] t ∧
    t.prescalerDivider = 1 ∧ t.prescalerAcc = 8 ∧ t.tcnt0 = 0 ∧ (t.timer0Tick 1).tcnt0 = 9 := by
  refine ⟨_, .cons trivial rfl <| .cons trivial rfl <| .cons trivial rfl <|
    .cons trivial rfl <| .nil _, ?_⟩
  decide

end Timer0

end AvrEmulator
