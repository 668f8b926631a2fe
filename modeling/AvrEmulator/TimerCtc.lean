import AvrEmulator.TimerPrescaler

/-! The counter in CTC mode, one prescaler tick at a time. The counter wraps by
comparing its next value with OCR0A, the match compares the previous one. -/

namespace AvrEmulator

namespace Timer0

/-- How often a call turns the drain loop. -/
def turnCount (t : Timer0) (cycles : Word) : Nat :=
  if t.prescalerDivider = 0 then 0
  else (t.prescalerAcc + cycles).toNat / t.prescalerDivider.toNat

/-- The timer after so many turns of the loop. -/
def turned (t : Timer0) (cycles : Word) (n : Nat) : Timer0 :=
  (tickOnce t.prescalerDivider t.wgm t.top)^[n] { t with prescalerAcc := t.prescalerAcc + cycles }

/-- A counter step in CTC mode: to 0 from OCR0A, which is flagged, and from 0xFF;
up by one from everywhere else. -/
structure CtcStep (t t' : Timer0) : Prop where
  atTop : t.tcnt0 = t.ocr0a → t'.tcnt0 = 0 ∧ t'.flagged .compA = true
  atMax : t.tcnt0 ≠ t.ocr0a → t.tcnt0 = 0xFF → t'.tcnt0 = 0
  between : t.tcnt0 ≠ t.ocr0a → t.tcnt0 ≠ 0xFF → t'.tcnt0 = t.tcnt0 + 1

/-- Every turn of a call is such a step. -/
def LawfulTick (t : Timer0) (cycles : Word) : Prop :=
  ∀ j < t.turnCount cycles, CtcStep (t.turned cycles j) (t.turned cycles (j + 1))

/-- Every call in CTC mode is lawful. -/
def CtcLaw : Timer0 → List Action → Prop
  | _, [] => True
  | t, .tick cycles :: calls =>
    (t.wgm = wgmCtc → t.LawfulTick cycles) ∧ CtcLaw (t.act (.tick cycles)) calls
  | t, .write ioAddr value :: calls => CtcLaw (t.act (.write ioAddr value)) calls

/-- The counter has not run past OCR0A, or has come to its last value. -/
def NotPassed (t : Timer0) : Prop := t.tcnt0 ≤ t.ocr0a ∨ t.tcnt0 = 0xFF

instance (t : Timer0) : Decidable t.NotPassed := by unfold NotPassed; infer_instance

/-- Whenever a call moves the counter in CTC mode, it has not passed OCR0A. -/
def NeverPassed : Timer0 → List Action → Prop
  | _, [] => True
  | t, .tick cycles :: calls =>
    (t.wgm = wgmCtc → t.turnCount cycles ≠ 0 → t.NotPassed) ∧
      NeverPassed (t.act (.tick cycles)) calls
  | t, .write ioAddr value :: calls => NeverPassed (t.act (.write ioAddr value)) calls

theorem timer0Tick_turned (t : Timer0) (cycles : Word) (hdiv : t.prescalerDivider ≠ 0) :
    t.timer0Tick cycles = t.turned cycles (t.turnCount cycles) := by
  rw [turnCount, if_neg hdiv]
  exact (t.timer0Tick_turns cycles hdiv).1

/-- A turn is a lawful step exactly from a counter that has not passed OCR0A. -/
theorem ctcStep_iff {div : Word} {t t' : Timer0}
    (tick : Tick div wgmCtc (t.ocr0a.setWidth 16) t t') : CtcStep t t' ↔ t.NotPassed := by
  have count := tick.tcnt0
  have top : (t.ocr0a.setWidth 16 : Word).toNat = t.ocr0a.toNat := by
    rw [BitVec.toNat_setWidth]
    omega
  rw [top] at count
  have wraps (h : t.ocr0a ≤ t.tcnt0) : t'.tcnt0 = 0 := by
    rw [if_pos (by bv_omega)] at count
    exact BitVec.eq_of_toNat_eq count
  have counts (h : t.tcnt0 < t.ocr0a) : t'.tcnt0 = t.tcnt0 + 1 := by
    rw [if_neg (by bv_omega)] at count
    bv_omega
  constructor
  · intro step
    by_contra passed
    obtain ⟨above, below⟩ := not_or.mp passed
    have up := step.between (by bv_omega) below
    rw [wraps (by bv_omega)] at up
    bv_omega
  · intro standing
    refine ⟨fun same => ⟨wraps (by bv_omega), ?_⟩, fun _ last => wraps (by bv_omega),
      fun differs notLast => counts ?_⟩
    · rw [flagged_iff, tick.tifr0]
      simp [Source.bit, same]
    · have low := standing.resolve_right notLast
      bv_omega

/-- The count is compared with OCR0A before it is stored. -/
theorem notPassed_tick {div : Word} {t t' : Timer0}
    (tick : Tick div wgmCtc (t.ocr0a.setWidth 16) t t') : t'.NotPassed := by
  have count := tick.tcnt0
  have top : (t.ocr0a.setWidth 16 : Word).toNat = t.ocr0a.toNat := by
    rw [BitVec.toNat_setWidth]
    omega
  rw [top] at count
  left
  rw [tick.setup.ocr0a]
  split at count <;> bv_omega

theorem turned_succ (t : Timer0) (cycles : Word) (j : Nat) : t.turned cycles (j + 1) =
    tickOnce t.prescalerDivider t.wgm t.top (t.turned cycles j) :=
  Function.iterate_succ_apply' _ _ _

theorem tick_turned {t : Timer0} (ctc : t.wgm = wgmCtc) (cycles : Word) (j : Nat) :
    Tick t.prescalerDivider wgmCtc ((t.turned cycles j).ocr0a.setWidth 16)
      (t.turned cycles j) (t.turned cycles (j + 1)) := by
  have top : t.top = (t.turned cycles j).ocr0a.setWidth 16 := by
    rw [Timer0.top, if_pos ctc]
    have same : SameSetup { t with prescalerAcc := t.prescalerAcc + cycles } (t.turned cycles j) :=
      iterate_tickOnce_setup t.top_lt _ j
    exact congrArg _ same.ocr0a.symm
  rw [turned_succ, ← top, ← ctc]
  exact tickOnce_spec _ _ _ _ t.top_lt

theorem notPassed_turned {t : Timer0} (ctc : t.wgm = wgmCtc) (cycles : Word) (h : t.NotPassed)
    (j : Nat) : (t.turned cycles j).NotPassed := by
  cases j with
  | zero => exact h
  | succ j => exact notPassed_tick (tick_turned ctc cycles j)

/-- A call that moves the counter is lawful exactly when it starts from one that has
not passed OCR0A. -/
theorem lawfulTick_iff {t : Timer0} (ctc : t.wgm = wgmCtc) (cycles : Word) :
    t.LawfulTick cycles ↔ (t.turnCount cycles ≠ 0 → t.NotPassed) := by
  constructor
  · intro lawful moves
    exact (ctcStep_iff (tick_turned ctc cycles 0)).mp (lawful 0 (Nat.pos_of_ne_zero moves))
  · intro standing j hj
    exact (ctcStep_iff (tick_turned ctc cycles j)).mpr
      (notPassed_turned ctc cycles (standing (by omega)) j)

/-- Ticks alone do not move the counter past OCR0A. -/
theorem notPassed_timer0Tick {t : Timer0} (ctc : t.wgm = wgmCtc) (h : t.NotPassed)
    (cycles : Word) : (t.timer0Tick cycles).NotPassed := by
  by_cases hdiv : t.prescalerDivider = 0
  · rwa [timer0Tick, if_pos hdiv]
  · rw [timer0Tick_turned t cycles hdiv]
    exact notPassed_turned ctc cycles h _

theorem wgm_timer0Tick (t : Timer0) (cycles : Word) : (t.timer0Tick cycles).wgm = t.wgm := by
  by_cases hdiv : t.prescalerDivider = 0
  · rw [timer0Tick, if_pos hdiv]
  · rw [timer0Tick_turned t cycles hdiv]
    exact (iterate_tickOnce_setup t.top_lt _ _).wgm

theorem ctcLaw_iff (t : Timer0) (calls : List Action) : CtcLaw t calls ↔ NeverPassed t calls := by
  induction calls generalizing t with
  | nil => exact Iff.rfl
  | cons a calls ih =>
    cases a with
    | tick cycles => exact and_congr (forall_congr' fun ctc => lawfulTick_iff ctc cycles) (ih _)
    | write ioAddr value => exact ih _

theorem neverPassed_ticks {t : Timer0} (ctc : t.wgm = wgmCtc) (h : t.NotPassed)
    (cs : List Word) : NeverPassed t (cs.map .tick) := by
  induction cs generalizing t with
  | nil => trivial
  | cons c cs ih =>
    exact ⟨fun _ _ => h, ih ((wgm_timer0Tick t c).trans ctc) (notPassed_timer0Tick ctc h c)⟩

/-- A sequence of ticks and register writes obeys the law exactly when no tick moves a
CTC counter that has passed OCR0A. For ticks alone it is enough that it has not passed
OCR0A before the first. -/
theorem ctc_never_wraps_early_iff (t : Timer0) :
    (∀ calls : List Action, CtcLaw t calls ↔ NeverPassed t calls) ∧
    (t.wgm = wgmCtc → t.NotPassed → ∀ cs : List Word, CtcLaw t (cs.map .tick)) :=
  ⟨ctcLaw_iff t, fun ctc h cs => (ctcLaw_iff t _).mpr (neverPassed_ticks ctc h cs)⟩

/-- OCR0A = 2, counted from 0. -/
theorem ctc_eight_is_lawful : CtcLaw ctcEight (([10, 4, 7] : List Word).map .tick) :=
  (ctc_never_wraps_early_iff ctcEight).2 (by decide) (by decide) [10, 4, 7]

/-- The counter has reached 20 when firmware lowers OCR0A to 10. The next count is 0,
and OCF0A stays clear. -/
theorem lowered_compare_wraps_early :
    let calls : List Action := [.write 0x24 0x02, .write 0x27 0xFF, .write 0x25 0x01, .tick 20,
      .write 0x27 0x0A]
    let t := calls.foldl act timer0Reset
    t.wgm = wgmCtc ∧ t.tcnt0 = 20 ∧ t.ocr0a = 10 ∧ (t.timer0Tick 1).tcnt0 = 0 ∧
      (t.timer0Tick 1).flagged .compA = false ∧ ¬ CtcLaw timer0Reset (calls ++ [.tick 1]) := by
  refine ⟨by decide, by decide, by decide, by decide, by decide, ?_⟩
  intro law
  have passed := (ctcLaw_iff _ _).mp law
  exact absurd (passed.2.1 (by decide) (by decide)) (by decide)

end Timer0

end AvrEmulator
