import AvrEmulator.State

/-! The interrupt controller's own state (`interrupt.cpp`): a 32-bit set of
pending vectors, vector `N` at bit `N - 1`. -/

namespace AvrEmulator

/-- A vector number. The enumeration is cast from the pending set, so numbers
outside the named vectors occur. -/
abbrev InterruptVector := Byte

namespace InterruptVector

def TIMER0_COMPA : InterruptVector := 15
def TIMER0_COMPB : InterruptVector := 16
def TIMER0_OVF : InterruptVector := 17
def USART_RX : InterruptVector := 19
def USART_UDRE : InterruptVector := 20
def USART_TX : InterruptVector := 21

end InterruptVector

/-- `bound` says that `g_state` points at the running state. -/
structure Interrupts where
  bound : Bool
  pending : BitVec 32
  deriving DecidableEq, Repr

namespace Interrupts

def interruptSetState (i : Interrupts) : Interrupts := { i with bound := true }

def interruptReset (i : Interrupts) : Interrupts := { i with pending := 0 }

/-- `1U << (vec - 1)`. -/
def mask (vec : InterruptVector) : BitVec 32 := (1 : BitVec 32) <<< (vec.toNat - 1)

def interruptRaise (i : Interrupts) (vec : InterruptVector) : Interrupts :=
  { i with pending := i.pending ||| mask vec }

def drop (i : Interrupts) (vec : InterruptVector) : Interrupts :=
  { i with pending := i.pending &&& ~~~mask vec }

def isPending (i : Interrupts) (vec : InterruptVector) : Bool := i.pending.getLsbD (vec.toNat - 1)

def vectorAddr (vec : InterruptVector) : Word := (vec.setWidth 16 - 1) * 4

/-- The lowest pending vector number, 0 when nothing is pending. -/
def highestPending (i : Interrupts) : InterruptVector :=
  if i.pending = 0 then 0 else i.pending.ctz.setWidth 8 + 1

theorem getLsbD_mask (vec : InterruptVector) (k : Nat) :
    (mask vec).getLsbD k = decide (k < 32 ∧ k = vec.toNat - 1) := by
  rw [mask, Bits.getLsbD_one_shl]

/-- Two vectors that share a bit of the pending set. -/
def sameBit (v w : InterruptVector) : Bool := v.toNat - 1 = w.toNat - 1

theorem isPending_raise (i : Interrupts) {v w : InterruptVector} (hw : w.toNat ≤ 32) :
    (i.interruptRaise v).isPending w = (i.isPending w || sameBit w v) := by
  have bound : w.toNat - 1 < 32 := by omega
  simp only [isPending, interruptRaise, BitVec.getLsbD_or, getLsbD_mask, bound, true_and, sameBit]

/-- Raising a pending vector changes nothing. -/
theorem interruptRaise_eq_iff (i : Interrupts) {vec : InterruptVector} (h : vec.toNat ≤ 32) :
    i.interruptRaise vec = i ↔ i.isPending vec = true := by
  constructor
  · intro same
    rw [← same, isPending_raise i h, sameBit, decide_eq_true rfl, Bool.or_true]
  · intro pending
    have kept : i.pending ||| mask vec = i.pending := by
      apply BitVec.eq_of_getLsbD_eq
      intro k _
      rw [BitVec.getLsbD_or, getLsbD_mask]
      by_cases bit : k < 32 ∧ k = vec.toNat - 1
      · have set : i.pending.getLsbD k = true := by rwa [bit.2]
        rw [set, Bool.true_or]
      · rw [decide_eq_false bit, Bool.or_false]
    rw [interruptRaise, kept]

theorem isPending_drop (i : Interrupts) {v w : InterruptVector} (hw : w.toNat ≤ 32) :
    (i.drop v).isPending w = (i.isPending w && !sameBit w v) := by
  have bound : w.toNat - 1 < 32 := by omega
  simp only [isPending, drop, BitVec.getLsbD_and, BitVec.getLsbD_not, getLsbD_mask, bound,
    true_and, decide_true, Bool.true_and, sameBit]

theorem isPending_reset (i : Interrupts) (w : InterruptVector) :
    i.interruptReset.isPending w = false := by
  simp [isPending, interruptReset]

theorem highestPending_number {i : Interrupts} (some : i.pending ≠ 0) :
    i.highestPending.toNat = i.pending.ctz.toNat + 1 ∧ i.pending.ctz.toNat < 32 := by
  have small : i.pending.ctz.toNat < 32 := by
    have := BitVec.ctz_lt_iff_ne_zero.mpr some
    simpa [BitVec.lt_def] using this
  refine ⟨?_, small⟩
  rw [highestPending, if_neg some, BitVec.toNat_add, BitVec.toNat_setWidth]
  simp
  omega

theorem pending_ne_zero {i : Interrupts} (h : i.highestPending ≠ 0) : i.pending ≠ 0 := by
  intro none
  exact h (by rw [highestPending, if_pos none])

theorem isPending_highestPending {i : Interrupts} (h : i.highestPending ≠ 0) :
    i.isPending i.highestPending = true := by
  have some := pending_ne_zero h
  have number : i.highestPending.toNat - 1 = i.pending.ctz.toNat := by
    rw [(highestPending_number some).1, Nat.add_sub_cancel]
  rw [isPending, number]
  exact BitVec.getLsbD_true_ctz_of_ne_zero some

/-- No pending vector has a lower number. -/
theorem highestPending_lowest {i : Interrupts} {vec : InterruptVector}
    (h : i.isPending vec = true) :
    i.highestPending ≠ 0 ∧ i.highestPending.toNat ≤ vec.toNat - 1 + 1 := by
  have some : i.pending ≠ 0 := by
    intro none
    simp [isPending, none] at h
  obtain ⟨number, small⟩ := highestPending_number some
  constructor
  · intro zero
    rw [zero] at number
    cases number
  · by_contra above
    have clear := BitVec.getLsbD_false_of_lt_ctz (x := i.pending) (i := vec.toNat - 1) (by omega)
    rw [isPending, clear] at h
    cases h

end Interrupts

end AvrEmulator
