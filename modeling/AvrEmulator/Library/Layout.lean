import Mathlib.Data.BitVec
import Mathlib.Data.Nat.Bitwise
import Mathlib.Logic.Function.Basic

/-! Bit layouts of instruction words, as manuals print them: fixed bits and the
bits of named fields, most significant bit first. A field takes as many bits
as it occurs, its own most significant bit first. -/

/-- One bit of a layout. -/
inductive Slot (φ : Type) where
  | bit (b : Bool)
  | field (f : φ)
  deriving DecidableEq, Repr

namespace Layout

variable {φ : Type}

def fixed (l : List (Slot φ)) : List Bool :=
  l.map fun | .bit _ => true | .field _ => false

def pattern (l : List (Slot φ)) : List Bool :=
  l.map fun | .bit b => b | .field _ => false

/-- A word of `w` bits from its bits, most significant first. -/
def word (w : Nat) (bs : List Bool) : BitVec w := (BitVec.ofBoolListBE bs).setWidth w

def mask (w : Nat) (l : List (Slot φ)) : BitVec w := word w (fixed l)

def code (w : Nat) (l : List (Slot φ)) : BitVec w := word w (pattern l)

theorem getMsbD_word {w : Nat} {bs : List Bool} (h : bs.length = w) (j : Nat) :
    (word w bs).getMsbD j = bs.getD j false := by
  subst h
  rw [word, BitVec.setWidth_eq, BitVec.getMsbD_ofBoolListBE]

@[simp] theorem getElem_word {w : Nat} (bs : List Bool) {i : Nat} (h : i < w) :
    (word w bs)[i] = (decide (i < bs.length) && bs.getD (bs.length - 1 - i) false) := by
  rw [← BitVec.getLsbD_eq_getElem, word, BitVec.getLsbD_setWidth, BitVec.getLsbD_ofBoolListBE]
  simp [h]

/-- The bits match the fixed part of the layout. -/
def Fits (l : List (Slot φ)) (bs : List Bool) : Prop :=
  List.Forall₂ (fun s b => ∀ c, s = Slot.bit c → b = c) l bs

theorem fits_iff {l : List (Slot φ)} {bs : List Bool} (h : bs.length = l.length) :
    Fits l bs ↔
      ∀ j, (bs.getD j false && (fixed l).getD j false) = (pattern l).getD j false := by
  induction l generalizing bs with
  | nil =>
    cases List.length_eq_zero_iff.mp h
    exact ⟨fun _ _ => rfl, fun _ => .nil⟩
  | cons s l ih =>
    obtain ⟨b, bs, rfl⟩ := List.exists_cons_of_length_eq_add_one h
    have tail := ih (Nat.succ.inj h)
    constructor
    · rintro (_ | ⟨head, rest⟩) j
      cases j with
      | zero =>
        cases s with
        | bit c => simp [fixed, pattern, head c rfl]
        | field f => simp [fixed, pattern]
      | succ j => exact tail.mp rest j
    · intro all
      refine .cons (fun c hc => ?_) (tail.mpr fun j => all (j + 1))
      subst hc
      simpa [fixed, pattern] using all 0

theorem and_mask_iff {w : Nat} {l : List (Slot φ)} {bs : List Bool} (hl : l.length = w)
    (hb : bs.length = w) : word w bs &&& mask w l = code w l ↔ Fits l bs := by
  have hf : (fixed l).length = w := by simp [fixed, hl]
  have hp : (pattern l).length = w := by simp [pattern, hl]
  rw [fits_iff (hb.trans hl.symm)]
  constructor
  · intro h j
    have bit := congrArg (fun x : BitVec w => x.getMsbD j) h
    simpa only [BitVec.getMsbD_and, mask, code, getMsbD_word, hf, hp, hb] using bit
  · intro h
    apply BitVec.eq_of_getMsbD_eq
    intro j _
    simpa only [BitVec.getMsbD_and, mask, code, getMsbD_word, hf, hp, hb] using h j

variable [DecidableEq φ]

/-- How many bits a field has. -/
def width (f : φ) (l : List (Slot φ)) : Nat := l.count (.field f)

/-- The bits of the word that carries the field values `v`. -/
def bits (v : φ → Nat) : List (Slot φ) → List Bool
  | [] => []
  | .bit b :: l => b :: bits v l
  | .field f :: l => (v f).testBit (width f l) :: bits v l

def encode (w : Nat) (l : List (Slot φ)) (v : φ → Nat) : BitVec w := word w (bits v l)

@[simp] theorem width_nil (f : φ) : width f [] = 0 := rfl

@[simp] theorem width_bit (f : φ) (b : Bool) (l : List (Slot φ)) :
    width f (.bit b :: l) = width f l := by
  simp [width]

@[simp] theorem width_field_self (f : φ) (l : List (Slot φ)) :
    width f (.field f :: l) = width f l + 1 := by
  simp [width]

theorem width_field_of_ne {f g : φ} (h : g ≠ f) (l : List (Slot φ)) :
    width f (.field g :: l) = width f l := by
  simp [width, h]

@[simp] theorem length_bits (v : φ → Nat) (l : List (Slot φ)) : (bits v l).length = l.length := by
  induction l with
  | nil => rfl
  | cons s l ih => cases s <;> simp [bits, ih]

/-- Only the low bits of each field value matter. -/
theorem bits_congr {v u : φ → Nat} (l : List (Slot φ))
    (h : ∀ f i, i < width f l → (v f).testBit i = (u f).testBit i) : bits v l = bits u l := by
  induction l with
  | nil => rfl
  | cons s l ih =>
    cases s with
    | bit b =>
      have tail := ih fun f i hi => h f i (by rwa [width_bit])
      simp only [bits, tail]
    | field g =>
      have tail := ih fun f i hi => h f i (by
        by_cases hg : g = f
        · subst hg
          rw [width_field_self]
          omega
        · rwa [width_field_of_ne hg])
      have head := h g (width g l) (by
        rw [width_field_self]
        omega)
      simp only [bits, tail, head]

theorem fits_bits (v : φ → Nat) (l : List (Slot φ)) : Fits l (bits v l) := by
  induction l with
  | nil => exact .nil
  | cons s l ih =>
    cases s with
    | bit b => exact .cons (fun c h => by cases h; rfl) ih
    | field f => exact .cons (fun c h => by cases h) ih

/-- Every word that fits a layout carries some values of its fields. -/
theorem exists_bits {l : List (Slot φ)} {bs : List Bool} (h : Fits l bs) :
    ∃ v : φ → Nat, bits v l = bs ∧ ∀ f, v f < 2 ^ width f l := by
  induction h with
  | nil => exact ⟨fun _ => 0, rfl, fun f => by simp⟩
  | @cons s b l bs head tail ih =>
    obtain ⟨v, hv, bound⟩ := ih
    cases s with
    | bit c =>
      refine ⟨v, ?_, fun f => by rw [width_bit]; exact bound f⟩
      rw [bits, hv, head c rfl]
    | field f =>
      have low : (v f).testBit (width f l) = false := Nat.testBit_lt_two_pow (bound f)
      let u := Function.update v f (v f ||| (b.toNat <<< width f l))
      have here : u f = v f ||| (b.toNat <<< width f l) := Function.update_self ..
      have rest : bits u l = bits v l := bits_congr l fun g i hi => by
        by_cases hg : g = f
        · subst hg
          simp [here, Nat.testBit_shiftLeft, hi]
        · rw [show u g = v g from Function.update_of_ne hg ..]
      refine ⟨u, ?_, fun g => ?_⟩
      · have top : (u f).testBit (width f l) = b := by
          rw [here, Nat.testBit_or, low]
          cases b <;> simp
        rw [bits, rest, hv, top]
      · by_cases hg : g = f
        · subst hg
          rw [width_field_self, here]
          apply Nat.or_lt_two_pow
          · exact Nat.lt_of_lt_of_le (bound g) (Nat.pow_le_pow_right (by decide) (Nat.le_succ _))
          · rw [Nat.shiftLeft_eq, Nat.pow_succ, Nat.mul_comm]
            exact Nat.mul_lt_mul_of_pos_left (by cases b <;> decide) (Nat.two_pow_pos _)
        · rw [width_field_of_ne (Ne.symm hg), show u g = v g from Function.update_of_ne hg ..]
          exact bound g

/-- An encoded word has the layout's fixed bits. -/
theorem encode_and_mask {w : Nat} {l : List (Slot φ)} (hl : l.length = w) (v : φ → Nat) :
    encode w l v &&& mask w l = code w l :=
  (and_mask_iff hl ((length_bits v l).trans hl)).mpr (fits_bits v l)

/-- Every word with the fixed bits of a layout encodes some values of its fields. -/
theorem exists_encode {w : Nat} {l : List (Slot φ)} (hl : l.length = w) {x : BitVec w}
    (h : x &&& mask w l = code w l) : ∃ v, encode w l v = x ∧ ∀ f, v f < 2 ^ width f l := by
  have self : word w (List.ofFn fun j : Fin w => x.getMsbD j) = x := by
    apply BitVec.eq_of_getMsbD_eq
    intro j hj
    rw [getMsbD_word (List.length_ofFn), List.getD_eq_getElem _ _ (by simpa using hj)]
    simp
  rw [← self, and_mask_iff hl List.length_ofFn] at h
  obtain ⟨v, hv, bound⟩ := exists_bits h
  exact ⟨v, by rw [encode, hv, self], bound⟩

/-! ## Reading a field -/

section

variable {w m : Nat}

/-- Where the bits of a field are, its least significant bit first. -/
def positions (f : φ) : List (Slot φ) → List Nat
  | [] => []
  | .bit _ :: l => positions f l
  | .field g :: l => if g = f then positions f l ++ [l.length] else positions f l

theorem length_positions (f : φ) (l : List (Slot φ)) : (positions f l).length = width f l := by
  induction l with
  | nil => rfl
  | cons s l ih =>
    cases s with
    | bit b => rw [positions, width_bit, ih]
    | field g =>
      by_cases hg : g = f
      · subst hg
        simp [positions, ih]
      · rw [positions, if_neg hg, width_field_of_ne hg, ih]

theorem testBit_positions (v : φ → Nat) (f : φ) (l : List (Slot φ)) {i : Nat}
    (h : i < width f l) :
    (bits v l).reverse[(positions f l).getD i 0]? = some ((v f).testBit i) := by
  induction l with
  | nil => simp at h
  | cons s l ih =>
    have inside {j : Nat} {x b : Bool} (found : (bits v l).reverse[j]? = some x) :
        (b :: bits v l).reverse[j]? = some x := by
      rw [List.reverse_cons, List.getElem?_append_left (List.getElem?_eq_some_iff.mp found).1,
        found]
    cases s with
    | bit b =>
      rw [width_bit] at h
      exact inside (ih h)
    | field g =>
      by_cases hg : g = f
      · subst hg
        rw [width_field_self] at h
        rw [positions, if_pos rfl, bits]
        by_cases low : i < width g l
        · rw [List.getD_append _ _ _ _ (by rwa [length_positions])]
          exact inside (ih low)
        · obtain rfl : i = width g l := by omega
          rw [List.getD_append_right _ _ _ _ (by rw [length_positions]), length_positions]
          simp
      · rw [width_field_of_ne hg] at h
        rw [positions, if_neg hg]
        exact inside (ih h)

/-- `e` moves the bits of a word at `ps`, least significant first, into a value. -/
def Gathers (e : BitVec w → BitVec m) (ps : List Nat) : Prop :=
  ∀ x i, i < m → (e x).getLsbD i = (decide (i < ps.length) && x.getLsbD (ps.getD i 0))

/-- What gathers the bits of a field reads the field of an encoded word. -/
theorem gather_encode {e : BitVec w → BitVec m} {f : φ} {l : List (Slot φ)}
    (he : Gathers e (positions f l)) (hl : l.length = w) (v : φ → Nat)
    (high : ∀ i < m, width f l ≤ i → (v f).testBit i = false) :
    e (encode w l v) = BitVec.ofNat m (v f) := by
  apply BitVec.eq_of_getLsbD_eq
  intro i hi
  rw [he _ i hi, length_positions, BitVec.getLsbD_ofNat]
  by_cases inside : i < width f l
  · obtain ⟨small, bit⟩ := List.getElem?_eq_some_iff.mp (testBit_positions v f l inside)
    generalize (positions f l).getD i 0 = p at small bit ⊢
    have place : p < w := by simpa [hl] using small
    have last : w - 1 - p < w := by omega
    rw [List.getElem_reverse] at bit
    simp only [length_bits, hl] at bit
    rw [BitVec.getLsbD_eq_getElem place, encode, getElem_word]
    simp [length_bits, hl, inside, place, last, hi, bit]
  · simp [inside, high i hi (Nat.not_lt.mp inside)]

end

def fill (f : φ) (n : Nat) : List (Slot φ) → List (Slot φ)
  | [] => []
  | .bit b :: l => .bit b :: fill f n l
  | .field g :: l => (if g = f then .bit (n.testBit (width f l)) else .field g) :: fill f n l

theorem width_fill_of_ne {f g : φ} (h : g ≠ f) (n : Nat) (l : List (Slot φ)) :
    width g (fill f n l) = width g l := by
  induction l with
  | nil => rfl
  | cons s l ih =>
    cases s with
    | bit b => rw [fill, width_bit, width_bit, ih]
    | field x =>
      by_cases hx : x = f
      · rw [fill, if_pos hx, width_bit, width_field_of_ne (hx ▸ Ne.symm h), ih]
      · rw [fill, if_neg hx]
        by_cases hg : x = g
        · subst hg
          rw [width_field_self, width_field_self, ih]
        · rw [width_field_of_ne hg, width_field_of_ne hg, ih]

theorem bits_fill (v : φ → Nat) (f : φ) (n : Nat) (l : List (Slot φ)) :
    bits v (fill f n l) = bits (Function.update v f n) l := by
  induction l with
  | nil => rfl
  | cons s l ih =>
    cases s with
    | bit b => rw [fill, bits, bits, ih]
    | field x =>
      by_cases hx : x = f
      · subst hx
        rw [fill, if_pos rfl, bits, bits, ih, Function.update_self]
      · rw [fill, if_neg hx, bits, bits, ih, Function.update_of_ne hx, width_fill_of_ne hx]

end Layout
