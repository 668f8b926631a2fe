import Mathlib.Algebra.BigOperators.Group.List.Basic
import Mathlib.Logic.Function.Iterate
import AvrEmulator.Timer0

/-! Timer0 over any sequence of `timer0Tick` calls. -/

namespace AvrEmulator

theorem succ_mod (x m : Nat) (h : 0 < m) :
    (x + 1) % m = if x % m + 1 = m then 0 else x % m + 1 := by
  have lt := Nat.mod_lt x h
  have quotient := Nat.div_add_mod x m
  split
  next top =>
    have whole : x + 1 = m * (x / m + 1) := by
      rw [Nat.mul_add]
      omega
    rw [whole, Nat.mul_mod_right]
  next below =>
    have part : x + 1 = m * (x / m) + (x % m + 1) := by omega
    rw [part, Nat.mul_add_mod, Nat.mod_eq_of_lt (by omega)]

namespace Timer0

theorem Source.bit_lt (s : Source) : s.bit < 8 := by cases s <;> decide

theorem flagged_iff (t : Timer0) (s : Source) : t.flagged s ↔ t.tifr0.getLsbD s.bit = true := by
  simp only [flagged, decide_eq_true_eq]
  exact Bits.and_one_shl_ne_zero _ s.bit_lt

theorem setFlag_tifr0 (t : Timer0) (s : Source) (i : Nat) :
    (t.setFlag s).tifr0.getLsbD i = (t.tifr0.getLsbD i || decide (i = s.bit)) := by
  have bound := s.bit_lt
  simp only [setFlag, BitVec.getLsbD_or, Bits.getLsbD_one_shl]
  congr 1
  simp only [decide_eq_decide]
  omega

theorem top_lt (t : Timer0) : t.top.toNat < 256 := by
  unfold top
  split <;> simp
  omega

theorem count_tcnt0 (mode : Byte) (top : Word) (t : Timer0) (htop : top.toNat < 256) :
    (count mode top t).tcnt0.toNat =
      if top.toNat < t.tcnt0.toNat + 1 then 0 else t.tcnt0.toNat + 1 := by
  have bound : t.tcnt0.toNat < 256 := t.tcnt0.isLt
  have next : (t.tcnt0.setWidth 16 + 1).toNat = t.tcnt0.toNat + 1 := by
    simp
    omega
  simp only [count, gt_iff_lt, BitVec.lt_def, next]
  split
  · split <;> rfl
  · simp only [BitVec.toNat_setWidth, next]
    omega

theorem count_tifr0 (mode : Byte) (top : Word) (t : Timer0) (i : Nat) :
    (count mode top t).tifr0.getLsbD i = (t.tifr0.getLsbD i ||
      decide (i = 0 ∧ mode ≠ wgmCtc ∧ top.toNat < t.tcnt0.toNat + 1)) := by
  have bound : t.tcnt0.toNat < 256 := t.tcnt0.isLt
  have next : (t.tcnt0.setWidth 16 + 1).toNat = t.tcnt0.toNat + 1 := by
    simp
    omega
  simp only [count, gt_iff_lt, BitVec.lt_def, next]
  split
  next wrapped =>
    split
    next hmode => by_cases hi : i = 0 <;> simp [setFlag_tifr0, hmode, wrapped, Source.bit, hi]
    next hmode => simp [not_not.mp hmode]
  next below => simp [below]

/-- The registers no tick writes. -/
structure SameSetup (t t' : Timer0) : Prop where
  tccr0a : t'.tccr0a = t.tccr0a
  tccr0b : t'.tccr0b = t.tccr0b
  ocr0a : t'.ocr0a = t.ocr0a
  ocr0b : t'.ocr0b = t.ocr0b
  timsk0 : t'.timsk0 = t.timsk0

theorem SameSetup.trans {t₁ t₂ t₃ : Timer0} (h : SameSetup t₁ t₂) (h' : SameSetup t₂ t₃) :
    SameSetup t₁ t₃ :=
  ⟨h'.tccr0a.trans h.tccr0a, h'.tccr0b.trans h.tccr0b, h'.ocr0a.trans h.ocr0a,
    h'.ocr0b.trans h.ocr0b, h'.timsk0.trans h.timsk0⟩

theorem count_setup (mode : Byte) (top : Word) (t : Timer0) :
    SameSetup t (count mode top t) ∧ (count mode top t).prescalerAcc = t.prescalerAcc := by
  simp only [count]
  split
  · split <;> exact ⟨⟨rfl, rfl, rfl, rfl, rfl⟩, rfl⟩
  · exact ⟨⟨rfl, rfl, rfl, rfl, rfl⟩, rfl⟩

/-- A compare unit sets at most its own flag. -/
theorem compare_frame (t : Timer0) (s : Source) (prev value : Byte) :
    ∃ u, u = (if prev = value then t.setFlag s else t) ∧ SameSetup t u ∧ u.tcnt0 = t.tcnt0 ∧
      u.prescalerAcc = t.prescalerAcc ∧
      ∀ i, u.tifr0.getLsbD i = (t.tifr0.getLsbD i || decide (i = s.bit ∧ prev = value)) := by
  refine ⟨_, rfl, ?_⟩
  split
  next same =>
    refine ⟨⟨rfl, rfl, rfl, rfl, rfl⟩, rfl, rfl, ?_⟩
    intro i
    rw [setFlag_tifr0]
    simp only [same, and_true]
  next differs => exact ⟨⟨rfl, rfl, rfl, rfl, rfl⟩, rfl, rfl, by simp [differs]⟩

/-- Everything one turn of the loop does. -/
structure Tick (div : Word) (mode : Byte) (top : Word) (t t' : Timer0) : Prop where
  setup : SameSetup t t'
  acc : t'.prescalerAcc = t.prescalerAcc - div
  tcnt0 : t'.tcnt0.toNat = if top.toNat < t.tcnt0.toNat + 1 then 0 else t.tcnt0.toNat + 1
  tifr0 : ∀ i, t'.tifr0.getLsbD i = (t.tifr0.getLsbD i ||
    decide (i = 0 ∧ mode ≠ wgmCtc ∧ top.toNat < t.tcnt0.toNat + 1) ||
    decide (i = 1 ∧ t.tcnt0 = t.ocr0a) || decide (i = 2 ∧ t.tcnt0 = t.ocr0b))

theorem tickOnce_spec (div : Word) (mode : Byte) (top : Word) (t : Timer0)
    (htop : top.toNat < 256) : Tick div mode top t (tickOnce div mode top t) := by
  obtain ⟨drained, hd⟩ : ∃ u, u = { t with prescalerAcc := t.prescalerAcc - div } := ⟨_, rfl⟩
  obtain ⟨counted, hc⟩ : ∃ u, u = count mode top drained := ⟨_, rfl⟩
  obtain ⟨setup, acc⟩ := count_setup mode top drained
  have tcnt0 := count_tcnt0 mode top drained htop
  have tifr0 := count_tifr0 mode top drained
  rw [← hc] at setup acc tcnt0 tifr0
  obtain ⟨a, ha, setupA, tcntA, accA, tifrA⟩ := compare_frame counted .compA t.tcnt0 counted.ocr0a
  obtain ⟨b, hb, setupB, tcntB, accB, tifrB⟩ := compare_frame a .compB t.tcnt0 a.ocr0b
  have turn : tickOnce div mode top t = b := by
    rw [hb, ha, hc, hd]
    rfl
  have start : SameSetup t drained := hd ▸ ⟨rfl, rfl, rfl, rfl, rfl⟩
  rw [turn]
  constructor
  case setup => exact ((start.trans setup).trans setupA).trans setupB
  case acc => rw [accB, accA, acc, hd]
  case tcnt0 => rw [tcntB, tcntA, tcnt0, hd]
  case tifr0 =>
    intro i
    rw [tifrB, tifrA, tifr0, (setup.trans setupA).ocr0b, setup.ocr0a, hd]
    rfl

/-! ## The drain loop -/

/-- `t` is `t₀` after `n` prescaler ticks, apart from the accumulator. -/
structure Ticked (t₀ : Timer0) (n : Nat) (t : Timer0) : Prop where
  setup : SameSetup t₀ t
  tcnt0 : t.tcnt0.toNat = (t₀.tcnt0.toNat + n) % (t₀.top.toNat + 1)
  tov0 : t.flagged .overflow ↔
    t₀.flagged .overflow ∨ t₀.wgm ≠ wgmCtc ∧ 256 ≤ t₀.tcnt0.toNat + n
  ocf0a : t.flagged .compA ↔ t₀.flagged .compA ∨
    ∃ j < n, (t₀.tcnt0.toNat + j) % (t₀.top.toNat + 1) = t₀.ocr0a.toNat
  ocf0b : t.flagged .compB ↔ t₀.flagged .compB ∨
    ∃ j < n, (t₀.tcnt0.toNat + j) % (t₀.top.toNat + 1) = t₀.ocr0b.toNat
  rest : ∀ i, 3 ≤ i → t.tifr0.getLsbD i = t₀.tifr0.getLsbD i

theorem ticked_zero {t₀ : Timer0} (h : t₀.tcnt0.toNat ≤ t₀.top.toNat) : Ticked t₀ 0 t₀ := by
  have bound : t₀.tcnt0.toNat < 256 := t₀.tcnt0.isLt
  constructor
  case setup => exact ⟨rfl, rfl, rfl, rfl, rfl⟩
  case tcnt0 => exact (Nat.mod_eq_of_lt (by omega)).symm
  case tov0 =>
    have early : ¬ 256 ≤ t₀.tcnt0.toNat + 0 := by omega
    simp only [early, and_false, or_false]
  case ocf0a => simp
  case ocf0b => simp
  case rest => exact fun _ _ => rfl

/-- The accumulator is no part of it. -/
theorem Ticked.refill {t₀ t : Timer0} {n : Nat} (h : Ticked t₀ n t) (acc : Word) :
    Ticked t₀ n { t with prescalerAcc := acc } :=
  { setup := ⟨h.setup.tccr0a, h.setup.tccr0b, h.setup.ocr0a, h.setup.ocr0b, h.setup.timsk0⟩
    tcnt0 := h.tcnt0, tov0 := h.tov0, ocf0a := h.ocf0a, ocf0b := h.ocf0b, rest := h.rest }

theorem exists_lt_succ {n : Nat} {P : Nat → Prop} :
    (∃ j < n + 1, P j) ↔ (∃ j < n, P j) ∨ P n := by
  constructor
  · rintro ⟨j, hj, hp⟩
    rcases Nat.lt_succ_iff_lt_or_eq.mp hj with h | rfl
    · exact .inl ⟨j, h, hp⟩
    · exact .inr hp
  · rintro (⟨j, hj, hp⟩ | hp)
    · exact ⟨j, by omega, hp⟩
    · exact ⟨n, by omega, hp⟩

theorem tick_ticked {t₀ t t' : Timer0} {n : Nat} {div : Word} (h : Ticked t₀ n t)
    (tick : Tick div t₀.wgm t₀.top t t') : Ticked t₀ (n + 1) t' := by
  have htop := t₀.top_lt
  have wrap := succ_mod (t₀.tcnt0.toNat + n) (t₀.top.toNat + 1) (by omega)
  have hcount := h.tcnt0
  have below := Nat.mod_lt (t₀.tcnt0.toNat + n) (show 0 < t₀.top.toNat + 1 by omega)
  have bit (s : Source) := tick.tifr0 s.bit
  constructor
  case setup => exact h.setup.trans tick.setup
  case tcnt0 =>
    rw [tick.tcnt0, ← Nat.add_assoc, wrap, hcount]
    split <;> split <;> omega
  case tov0 =>
    have old := h.tov0
    -- Outside CTC mode the top is 0xFF, and the count wraps once it reaches 256.
    have wraps : t₀.wgm ≠ wgmCtc →
        (256 ≤ t₀.tcnt0.toNat + (n + 1) ↔
          256 ≤ t₀.tcnt0.toNat + n ∨ t₀.top.toNat < t.tcnt0.toNat + 1) := by
      intro hmode
      have full : t₀.top.toNat = 255 := by simp [top, hmode]
      rw [full] at hcount ⊢
      omega
    rw [flagged_iff] at old ⊢
    rw [bit, and_congr_right wraps]
    simp only [Source.bit, Bool.or_eq_true, decide_eq_true_eq] at old ⊢
    rw [old]
    simp only [zero_ne_one, OfNat.zero_ne_ofNat, false_and, true_and, decide_false,
      Bool.false_eq_true, or_false]
    rw [and_or_left, or_assoc]
  case ocf0a =>
    have old := h.ocf0a
    rw [flagged_iff] at old ⊢
    rw [exists_lt_succ, ← or_assoc, ← old, bit, ← hcount, h.setup.ocr0a]
    simp [Source.bit, BitVec.toNat_inj]
  case ocf0b =>
    have old := h.ocf0b
    rw [flagged_iff] at old ⊢
    rw [exists_lt_succ, ← or_assoc, ← old, bit, ← hcount, h.setup.ocr0b]
    simp [Source.bit, BitVec.toNat_inj]
  case rest =>
    intro i hi
    rw [tick.tifr0, h.rest i hi]
    simp [show i ≠ 0 by omega, show i ≠ 1 by omega, show i ≠ 2 by omega]

/-- Draining is as many turns of the loop as the accumulator holds prescaler ticks. -/
theorem drain_turns {div : Word} (mode : Byte) {top : Word} (htop : top.toNat < 256)
    (hdiv : 0 < div.toNat) (fuel : Nat) :
    ∀ t : Timer0, t.prescalerAcc.toNat ≤ fuel →
      drain div mode top fuel t = (tickOnce div mode top)^[t.prescalerAcc.toNat / div.toNat] t ∧
        (drain div mode top fuel t).prescalerAcc.toNat = t.prescalerAcc.toNat % div.toNat := by
  induction fuel with
  | zero =>
    intro t h
    have zero : t.prescalerAcc.toNat = 0 := by omega
    rw [zero, Nat.zero_div, Nat.zero_mod]
    exact ⟨rfl, zero⟩
  | succ fuel ih =>
    intro t h
    unfold drain
    by_cases hge : div ≤ t.prescalerAcc
    · have hle : div.toNat ≤ t.prescalerAcc.toNat := hge
      have acc : (tickOnce div mode top t).prescalerAcc.toNat =
          t.prescalerAcc.toNat - div.toNat := by
        rw [(tickOnce_spec div mode top t htop).acc, BitVec.toNat_sub_of_le hge]
      obtain ⟨turns, rest⟩ := ih (tickOnce div mode top t) (by omega)
      rw [acc] at turns rest
      rw [if_pos hge, rest, turns, Nat.mod_eq_sub_mod hle, Nat.div_eq_sub_div hdiv hle,
        Function.iterate_succ_apply]
      exact ⟨rfl, rfl⟩
    · have hlt : t.prescalerAcc.toNat < div.toNat := Nat.lt_of_not_le hge
      rw [if_neg hge, Nat.div_eq_of_lt hlt, Nat.mod_eq_of_lt hlt]
      exact ⟨rfl, rfl⟩

theorem turns_ticked {t₀ t : Timer0} {n : Nat} (div : Word) (h : Ticked t₀ n t) (k : Nat) :
    Ticked t₀ (n + k) ((tickOnce div t₀.wgm t₀.top)^[k] t) := by
  induction k with
  | zero => exact h
  | succ k ih =>
    rw [Function.iterate_succ_apply']
    exact tick_ticked ih (tickOnce_spec div t₀.wgm t₀.top _ t₀.top_lt)

/-- `t` is `t₀` after `cycles` CPU cycles. -/
structure Advanced (t₀ : Timer0) (cycles : Nat) (t : Timer0) : Prop where
  acc : t.prescalerAcc.toNat = (t₀.prescalerAcc.toNat + cycles) % t₀.prescalerDivider.toNat
  ticked : Ticked t₀ ((t₀.prescalerAcc.toNat + cycles) / t₀.prescalerDivider.toNat) t

theorem SameSetup.divider {t t' : Timer0} (h : SameSetup t t') :
    t'.prescalerDivider = t.prescalerDivider := by
  simp only [prescalerDivider, h.tccr0b]

theorem SameSetup.wgm {t t' : Timer0} (h : SameSetup t t') : t'.wgm = t.wgm := by
  simp only [Timer0.wgm, h.tccr0a, h.tccr0b]

theorem SameSetup.top {t t' : Timer0} (h : SameSetup t t') : t'.top = t.top := by
  simp only [Timer0.top, h.wgm, h.ocr0a]

theorem tick_advanced {t₀ t : Timer0} {cycles : Nat} {c : Word}
    (hdiv : t₀.prescalerDivider ≠ 0) (h : Advanced t₀ cycles t)
    (fits : c.toNat + t₀.prescalerDivider.toNat - 1 ≤ 65535) :
    Advanced t₀ (cycles + c.toNat) (t.timer0Tick c) := by
  have hpos : 0 < t₀.prescalerDivider.toNat := by bv_omega
  have hacc := h.acc
  have below := Nat.mod_lt (t₀.prescalerAcc.toNat + cycles) hpos
  have sum : (t.prescalerAcc + c).toNat = t.prescalerAcc.toNat + c.toNat := by
    rw [BitVec.toNat_add]
    omega
  have ticked := h.ticked.refill (t.prescalerAcc + c)
  obtain ⟨turns, hrest⟩ := drain_turns t₀.wgm t₀.top_lt hpos (t.prescalerAcc + c).toNat
    { t with prescalerAcc := t.prescalerAcc + c } (Nat.le_refl _)
  have hticked := turns_ticked t₀.prescalerDivider ticked
    ((t.prescalerAcc + c).toNat / t₀.prescalerDivider.toNat)
  have run : t.timer0Tick c = drain t₀.prescalerDivider t₀.wgm t₀.top (t.prescalerAcc + c).toNat
      { t with prescalerAcc := t.prescalerAcc + c } := by
    have hdiv' : ¬ t.prescalerDivider = 0 := h.ticked.setup.divider ▸ hdiv
    simp only [timer0Tick, hdiv', ↓reduceIte]
    rw [h.ticked.setup.divider, h.ticked.setup.wgm, ticked.setup.top]
  simp only [sum, hacc] at turns hticked hrest
  have quotient := Nat.div_add_mod (t₀.prescalerAcc.toNat + cycles) t₀.prescalerDivider.toNat
  have total : t₀.prescalerAcc.toNat + (cycles + c.toNat) = t₀.prescalerDivider.toNat *
      ((t₀.prescalerAcc.toNat + cycles) / t₀.prescalerDivider.toNat) +
        ((t₀.prescalerAcc.toNat + cycles) % t₀.prescalerDivider.toNat + c.toNat) := by
    omega
  rw [run, sum, hacc]
  constructor
  case acc => rw [hrest, total, Nat.mul_add_mod]
  case ticked => rwa [turns, total, Nat.mul_add_div hpos]

theorem ticks_advanced {t₀ t : Timer0} {cycles : Nat} (cs : List Word)
    (hdiv : t₀.prescalerDivider ≠ 0) (h : Advanced t₀ cycles t)
    (fits : ∀ c ∈ cs, c.toNat + t₀.prescalerDivider.toNat - 1 ≤ 65535) :
    Advanced t₀ (cycles + (cs.map BitVec.toNat).sum) (cs.foldl timer0Tick t) := by
  induction cs generalizing t cycles with
  | nil => exact h
  | cons c cs ih =>
    have step := tick_advanced hdiv h (fits c List.mem_cons_self)
    have rest := ih step fun d hd => fits d (List.mem_cons_of_mem _ hd)
    rw [List.map_cons, List.sum_cons, ← Nat.add_assoc]
    exact rest

theorem start_advanced {t₀ : Timer0} (htop : t₀.tcnt0.toNat ≤ t₀.top.toNat)
    (hacc : t₀.prescalerAcc.toNat < t₀.prescalerDivider.toNat) : Advanced t₀ 0 t₀ := by
  constructor
  case acc => exact (Nat.mod_eq_of_lt hacc).symm
  case ticked =>
    rw [Nat.add_zero, Nat.div_eq_of_lt hacc]
    exact ticked_zero htop

theorem flagged_congr {t t' : Timer0} {s : Source} (h : t.flagged s ↔ t'.flagged s) :
    t.tifr0.getLsbD s.bit = t'.tifr0.getLsbD s.bit := by
  rw [flagged_iff, flagged_iff] at h
  exact Bool.eq_iff_iff.mpr h

/-- The total number of cycles determines every register. -/
theorem Advanced.unique {t₀ t t' : Timer0} {cycles : Nat} (h : Advanced t₀ cycles t)
    (h' : Advanced t₀ cycles t') : t = t' := by
  have tcnt0 : t.tcnt0 = t'.tcnt0 :=
    BitVec.eq_of_toNat_eq (h.ticked.tcnt0.trans h'.ticked.tcnt0.symm)
  have acc : t.prescalerAcc = t'.prescalerAcc := BitVec.eq_of_toNat_eq (h.acc.trans h'.acc.symm)
  have tifr0 : t.tifr0 = t'.tifr0 := by
    apply BitVec.eq_of_getLsbD_eq
    intro i hi
    match i with
    | 0 => exact flagged_congr (s := .overflow) (h.ticked.tov0.trans h'.ticked.tov0.symm)
    | 1 => exact flagged_congr (s := .compA) (h.ticked.ocf0a.trans h'.ticked.ocf0a.symm)
    | 2 => exact flagged_congr (s := .compB) (h.ticked.ocf0b.trans h'.ticked.ocf0b.symm)
    | i + 3 => exact (h.ticked.rest _ (by omega)).trans (h'.ticked.rest _ (by omega)).symm
  have s := h.ticked.setup
  have s' := h'.ticked.setup
  exact Timer0.ext (s.tccr0a.trans s'.tccr0a.symm) (s.tccr0b.trans s'.tccr0b.symm) tcnt0
    (s.ocr0a.trans s'.ocr0a.symm) (s.ocr0b.trans s'.ocr0b.symm) (s.timsk0.trans s'.timsk0.symm)
    tifr0 acc

/-- Ticking loses and invents no cycles, however they are split over the calls. -/
theorem ticks_count_every_cycle (t : Timer0) (hdiv : t.prescalerDivider ≠ 0)
    (htop : t.tcnt0.toNat ≤ t.top.toNat)
    (hacc : t.prescalerAcc.toNat < t.prescalerDivider.toNat) :
    (∀ cs : List Word, (∀ c ∈ cs, c.toNat + t.prescalerDivider.toNat - 1 ≤ 65535) →
      Advanced t (cs.map BitVec.toNat).sum (cs.foldl timer0Tick t)) ∧
    (∀ cs cs' : List Word, (∀ c ∈ cs, c.toNat + t.prescalerDivider.toNat - 1 ≤ 65535) →
      (∀ c ∈ cs', c.toNat + t.prescalerDivider.toNat - 1 ≤ 65535) →
      (cs.map BitVec.toNat).sum = (cs'.map BitVec.toNat).sum →
      cs.foldl timer0Tick t = cs'.foldl timer0Tick t) := by
  have total (cs : List Word) (fits : ∀ c ∈ cs, c.toNat + t.prescalerDivider.toNat - 1 ≤ 65535) :
      Advanced t (cs.map BitVec.toNat).sum (cs.foldl timer0Tick t) := by
    have run := ticks_advanced cs hdiv (start_advanced htop hacc) fits
    rwa [Nat.zero_add] at run
  refine ⟨total, ?_⟩
  intro cs cs' fits fits' same
  exact (total cs fits).unique (same ▸ total cs' fits')

/-- CTC mode with OCR0A = 2 and divider 8. -/
def ctcEight : Timer0 := { timer0Reset with tccr0a := 2, tccr0b := 2, ocr0a := 2 }

theorem ctc_ticks_count_every_cycle :
    Advanced ctcEight (([10, 4, 7] : List Word).map BitVec.toNat).sum
      (([10, 4, 7] : List Word).foldl timer0Tick ctcEight) := by
  have divider : ctcEight.prescalerDivider = 8 := by decide
  have law := ticks_count_every_cycle ctcEight (by decide) (by decide) (by decide)
  have fits : ∀ c ∈ ([10, 4, 7] : List Word),
      c.toNat + ctcEight.prescalerDivider.toNat - 1 ≤ 65535 := by
    rw [divider]
    simp
  exact law.1 [10, 4, 7] fits

end Timer0

end AvrEmulator
