import Mathlib.Data.List.Basic
import Mathlib.Data.BitVec

/-! Numbers as text, and taking concatenated text apart again. A part that lacks the
first character of a separator ends where the separator begins. -/

namespace Text

def decimal (n : Nat) : String := toString n

/-- With a sign also for what is not negative. -/
def signed (n : Int) : String :=
  if 0 ≤ n then "+" ++ decimal n.natAbs else "-" ++ decimal n.natAbs

def hexDigits : List Char := "0123456789ABCDEF".toList

def hexDigit (n : Nat) : Char := hexDigits.getD n '0'

def hexChars : Nat → Nat → List Char
  | 0, _ => []
  | width + 1, n => hexChars width (n / 16) ++ [hexDigit (n % 16)]

/-- `width` digits, for a number that needs no more. -/
def hex (width n : Nat) : String := String.ofList (hexChars width n)

theorem decimal_injective {m n : Nat} (h : decimal m = decimal n) : m = n := by
  have chars := congrArg String.toList h
  simp only [decimal, Nat.toString_eq_repr, Nat.toList_repr] at chars
  have digits := congrArg (fun l => Nat.ofDigitChars 10 l 0) chars
  simpa only [Nat.ofDigitChars_ten_toDigits] using digits

theorem notMem_decimal {c : Char} (other : c.isDigit = false) (n : Nat) :
    c ∉ (decimal n).toList := by
  intro member
  rw [decimal, Nat.toString_eq_repr, Nat.toList_repr] at member
  rw [Nat.isDigit_of_mem_toDigits (by decide) (by decide) member] at other
  cases other

theorem signed_injective {m n : Int} (h : signed m = signed n) : m = n := by
  have sign : ∀ k l : Nat, "+" ++ decimal k ≠ "-" ++ decimal l := by
    intro k l same
    simpa using congrArg (fun t => t.toList.head?) same
  unfold signed at h
  split at h <;> split at h
  next => have size := decimal_injective ((String.append_right_inj _).mp h); omega
  next => exact absurd h (sign _ _)
  next => exact absurd h.symm (sign _ _)
  next => have size := decimal_injective ((String.append_right_inj _).mp h); omega

theorem notMem_signed {c : Char} (other : c.isDigit = false) (plus : c ≠ '+') (minus : c ≠ '-')
    (n : Int) : c ∉ (signed n).toList := by
  unfold signed
  split <;> simp [plus, minus, notMem_decimal other]

/-- The number that upper-case digits write. -/
def readHex (cs : List Char) : Nat := cs.foldl (fun n c => 16 * n + hexDigits.idxOf c) 0

theorem readHex_hexChars {width n : Nat} (h : n < 16 ^ width) :
    readHex (hexChars width n) = n := by
  induction width generalizing n with
  | zero => exact (Nat.lt_one_iff.mp h).symm
  | succ width ih =>
    have digits : ∀ i < 16, hexDigits.idxOf (hexDigit i) = i := by decide
    have high : n / 16 < 16 ^ width := Nat.div_lt_of_lt_mul (by omega)
    rw [hexChars, readHex, List.foldl_append]
    change 16 * readHex (hexChars width (n / 16)) + hexDigits.idxOf (hexDigit (n % 16)) = n
    rw [ih high, digits _ (Nat.mod_lt n (by decide))]
    omega

theorem length_hexChars (width n : Nat) : (hexChars width n).length = width := by
  induction width generalizing n with
  | zero => rfl
  | succ width ih => rw [hexChars, List.length_append, ih, List.length_singleton]

theorem hexChars_injective {width m n : Nat} (hm : m < 16 ^ width) (hn : n < 16 ^ width)
    (h : hexChars width m = hexChars width n) : m = n := by
  rw [← readHex_hexChars hm, h, readHex_hexChars hn]

theorem hex_injective {width m n : Nat} (hm : m < 16 ^ width) (hn : n < 16 ^ width)
    (h : hex width m = hex width n) : m = n :=
  hexChars_injective hm hn (String.ofList_inj.mp h)

theorem mem_hexDigits {width n : Nat} {c : Char} (member : c ∈ hexChars width n) :
    c ∈ hexDigits := by
  induction width generalizing n with
  | zero => cases member
  | succ width ih =>
    rcases List.mem_append.mp member with high | low
    · exact ih high
    · have digits : ∀ i < 16, hexDigit i ∈ hexDigits := by decide
      rw [List.mem_singleton.mp low]
      exact digits _ (Nat.mod_lt n (by decide))

theorem notMem_hex {c : Char} (other : c ∉ hexDigits) (width n : Nat) :
    c ∉ (hex width n).toList := by
  rw [hex, String.toList_ofList]
  exact fun member => other (mem_hexDigits member)

theorem append_cons_inj {c : Char} {a b x y : List Char} (ha : c ∉ a) (hb : c ∉ b)
    (h : a ++ c :: x = b ++ c :: y) : a = b ∧ x = y := by
  induction a generalizing b with
  | nil =>
    cases b with
    | nil => exact ⟨rfl, (List.cons.inj h).2⟩
    | cons d b => exact absurd (List.cons.inj h).1 (List.ne_of_not_mem_cons hb)
  | cons d a ih =>
    cases b with
    | nil => exact absurd (List.cons.inj h).1.symm (List.ne_of_not_mem_cons ha)
    | cons e b =>
      obtain ⟨rfl, tail⟩ := List.cons.inj h
      obtain ⟨rfl, rest⟩ :=
        ih (List.not_mem_of_not_mem_cons ha) (List.not_mem_of_not_mem_cons hb) tail
      exact ⟨rfl, rest⟩

/-- The first separator ends the first part. -/
theorem split_at {a b x y sep : String} {c : Char} {rest : List Char}
    (hsep : sep.toList = c :: rest) (ha : c ∉ a.toList) (hb : c ∉ b.toList)
    (h : a ++ (sep ++ x) = b ++ (sep ++ y)) : a = b ∧ x = y := by
  have chars := congrArg String.toList h
  simp only [String.toList_append, hsep, List.cons_append] at chars
  obtain ⟨first, second⟩ := append_cons_inj ha hb chars
  exact ⟨String.toList_inj.mp first, String.toList_inj.mp (List.append_cancel_left second)⟩

/-- Nothing, or something that begins with a blank. -/
def BlankOrNone (s : String) : Prop := s.toList = [] ∨ s.toList.head? = some ' '

/-- A word that ends at a blank or at the end is the shorter of two only up to a blank. -/
theorem shorter_word {a b x y : String} (hx : BlankOrNone x)
    (shorter : a.toList.length ≤ b.toList.length) (h : a ++ x = b ++ y) :
    a = b ∨ x.toList ≠ [] ∧ a.toList ++ [' '] <+: b.toList := by
  have chars : a.toList ++ x.toList = b.toList ++ y.toList := by
    simpa only [String.toList_append] using congrArg String.toList h
  obtain ⟨rest, split⟩ : a.toList <+: b.toList :=
    List.prefix_of_prefix_length_le ⟨_, chars⟩ ⟨_, rfl⟩ shorter
  rw [← split, List.append_assoc] at chars
  have tail := List.append_cancel_left chars
  cases rest with
  | nil => exact .inl (String.toList_inj.mp (by rw [← split, List.append_nil]))
  | cons c rest =>
    have blank : c = ' ' := by
      rcases hx with none | first
      · rw [tail] at none
        cases none
      · rw [tail] at first
        exact Option.some.inj first
    refine .inr ⟨by rw [tail]; exact List.cons_ne_nil _ _, rest, ?_⟩
    rw [← split, blank, List.append_assoc]
    rfl

/-- Words followed by a blank or by nothing are equal where no word goes on with a blank
behind another one that is followed by something. -/
theorem words_eq {a b x y : String} (hx : BlankOrNone x) (hy : BlankOrNone y)
    (apart : x.toList ≠ [] → ¬ a.toList ++ [' '] <+: b.toList)
    (apart' : y.toList ≠ [] → ¬ b.toList ++ [' '] <+: a.toList) (h : a ++ x = b ++ y) :
    a = b ∧ x = y := by
  have same : a = b := by
    rcases Nat.le_total a.toList.length b.toList.length with shorter | longer
    · exact (shorter_word hx shorter h).resolve_right fun go => apart go.1 go.2
    · exact ((shorter_word hy longer h.symm).resolve_right fun go => apart' go.1 go.2).symm
  rw [same] at h
  exact ⟨same, (String.append_right_inj b).mp h⟩

end Text
