import AvrEmulator.InstructionSet

/-! Which 22-bit word addresses `decodeK22` reads back from the two words of a JMP or CALL
that carry them. -/

namespace AvrEmulator

namespace Form

open Layout (Gathers)

/-- JMP and CALL, the forms with a 22-bit word address. -/
def long (call : Bool) : Form := if call then CALL else JMP

/-- The two words of a JMP or CALL to the word address `k`. -/
def encodeK22 (call : Bool) (k : Nat) : Word × Word :=
  ((long call).word1 fun _ => k, (long call).word2 fun _ => k)

/-- `k[21:16]` as the comment above `decodeK22` places it: bits 8 to 4, then bit 0. -/
def highK22 (w : Word) : BitVec 6 := w.extractLsb' 4 5 ++ w.extractLsb' 0 1

/-- The word address that the two words carry. -/
def carriedK22 (words : Word × Word) : BitVec 22 := highK22 words.1 ++ words.2

theorem field_8_4_0 : Gathers highK22 [0, 4, 5, 6, 7, 8] := by
  intro x i hi
  unfold highK22
  rw [BitVec.getLsbD_append]
  interval_cases i <;> simp

theorem highK22_encode (call : Bool) (k : Nat) :
    highK22 (encodeK22 call k).1 = BitVec.ofNat 6 (k >>> 16) := by
  cases call with
  | false =>
    have bits : Layout.width Field.k JMP.layout = 6 := rfl
    exact Layout.gather_encode (f := .k) (l := JMP.layout) field_8_4_0 rfl _ (by omega)
  | true =>
    have bits : Layout.width Field.k CALL.layout = 6 := rfl
    exact Layout.gather_encode (f := .k) (l := CALL.layout) field_8_4_0 rfl _ (by omega)

theorem second_encode (call : Bool) (k : Nat) : (encodeK22 call k).2 = BitVec.ofNat 16 k :=
  word2_eq (by cases call <;> decide)

theorem carried_high (words : Word × Word) :
    (carriedK22 words).extractLsb' 16 6 = highK22 words.1 :=
  BitVec.extractLsb'_append_eq_left

theorem carried_low (words : Word × Word) : (carriedK22 words).setWidth 16 = words.2 :=
  BitVec.setWidth_append_eq_right

/-- The encoding carries the address it is given. -/
theorem carried_encode (call : Bool) (k : Nat) :
    carriedK22 (encodeK22 call k) = BitVec.ofNat 22 k := by
  rw [carriedK22, highK22_encode, second_encode]
  apply BitVec.eq_of_getLsbD_eq
  intro i hi
  simp only [BitVec.getLsbD_append, BitVec.getLsbD_ofNat, Nat.testBit_shiftRight]
  by_cases low : i < 16
  · simp [low, hi]
  · have shifted : 16 + (i - 16) = i := by omega
    have high : i - 16 < 6 := by omega
    simp [low, hi, high, shifted]

/-- A first word is its fixed bits and the six address bits. -/
theorem word_of_parts (w : Word) :
    (w &&& (0xFE0E : Word)) ||| (((highK22 w).setWidth 16 >>> 1) <<< 4) |||
      ((highK22 w).setWidth 16 &&& 1) = w := by
  apply BitVec.eq_of_getLsbD_eq
  intro i hi
  unfold highK22
  simp only [BitVec.getLsbD_or, BitVec.getLsbD_and, BitVec.getLsbD_shiftLeft,
    BitVec.getLsbD_ushiftRight, BitVec.getLsbD_setWidth, BitVec.getLsbD_append]
  interval_cases i <;> simp

theorem highK22_eq_zero_iff (w : Word) : highK22 w = 0 ↔ w &&& 0x01F1 = 0 := by
  have same : highK22 (w &&& 0x01F1) = highK22 w := by
    apply BitVec.eq_of_getLsbD_eq
    intro i hi
    rw [field_8_4_0 _ i hi, field_8_4_0 w i hi]
    interval_cases i <;> simp
  constructor
  · intro none
    rw [← word_of_parts (w &&& 0x01F1), same, none, BitVec.and_assoc]
    simp
  · intro none
    rw [← same, none]
    rfl

theorem encode_fixed (call : Bool) (k : Nat) :
    (encodeK22 call k).1 &&& 0xFE0E = (encodeK22 call 0).1 := by
  cases call with
  | false => exact Layout.encode_and_mask (l := JMP.layout) rfl _
  | true => exact Layout.encode_and_mask (l := CALL.layout) rfl _

/-- A first word of a JMP or CALL, by its fixed bits. -/
theorem long_word {call : Bool} {w : Word} {row : Opcode} (found : decodeInstruction w = some row)
    (op : row.op = (long call).op) : w &&& 0xFE0E = (encodeK22 call 0).1 := by
  have rows : ∀ row ∈ opcodeTable, row.op = (long call).op →
      row.mask = 0xFE0E ∧ row.code = (encodeK22 call 0).1 := by
    cases call <;> decide +kernel
  obtain ⟨mem, hit⟩ := MaskTable.lookup_match found
  obtain ⟨mask, code⟩ := rows row mem op
  rw [← mask, ← code, hit]

/-- The words of a JMP or CALL encode the address they carry. -/
theorem encode_carried {call : Bool} {w : Word} (second : Word)
    (fixed : w &&& 0xFE0E = (encodeK22 call 0).1) :
    encodeK22 call (carriedK22 (w, second)).toNat = (w, second) := by
  have carried := carried_encode call (carriedK22 (w, second)).toNat
  rw [BitVec.ofNat_toNat, BitVec.setWidth_eq] at carried
  have high : highK22 (encodeK22 call (carriedK22 (w, second)).toNat).1 = highK22 w := by
    rw [← carried_high, carried, carried_high]
  have low : (encodeK22 call (carriedK22 (w, second)).toNat).2 = second := by
    rw [← carried_low, carried, carried_low]
  refine Prod.ext ?_ low
  rw [← word_of_parts (encodeK22 call _).1, high, encode_fixed, ← fixed]
  exact word_of_parts w

/-- The decoder takes bits 9 to 4, so bit 0 is lost and bits 8 to 4 move down by one. -/
theorem decodeK22_long {call : Bool} {w : Word} (second : Word)
    (fixed : w &&& 0xFE0E = (encodeK22 call 0).1) :
    (decodeK22 w second).k.toNat = ((highK22 w >>> 1) ++ second).toNat := by
  have bit : w[9] = false := by
    have code : (encodeK22 call 0).1[9] = false := by cases call <;> rfl
    rw [← fixed] at code
    simpa using code
  have wide : (decodeK22 w second).k = ((highK22 w >>> 1) ++ second).setWidth 32 := by
    unfold decodeK22 highK22
    apply BitVec.eq_of_getLsbD_eq
    intro i hi
    simp only [BitVec.getLsbD_append, BitVec.getLsbD_setWidth, BitVec.getLsbD_ushiftRight]
    interval_cases i <;> simp [bit]
  rw [wide, BitVec.toNat_setWidth_of_le (by decide)]

/-- It finds the address where the six bits are their own shift, which is where they are 0. -/
theorem decodeK22_eq_carried_iff {call : Bool} {w : Word} (second : Word)
    (fixed : w &&& 0xFE0E = (encodeK22 call 0).1) :
    (decodeK22 w second).k.toNat = (carriedK22 (w, second)).toNat ↔ highK22 w = 0 := by
  have own : ∀ high : BitVec 6, high >>> 1 = high ↔ high = 0 := by decide
  rw [decodeK22_long second fixed, carriedK22, BitVec.toNat_inj, BitVec.append_left_inj, own]

theorem decode_encode_iff (call : Bool) (k : BitVec 22) :
    (decodeK22 (encodeK22 call k.toNat).1 (encodeK22 call k.toNat).2).k.toNat = k.toNat ↔
      k.toNat < 2 ^ 16 := by
  have carried : carriedK22 ((encodeK22 call k.toNat).1, (encodeK22 call k.toNat).2) = k := by
    rw [carried_encode, BitVec.ofNat_toNat, BitVec.setWidth_eq]
  have read := decodeK22_eq_carried_iff (encodeK22 call k.toNat).2 (encode_fixed call k.toNat)
  rw [carried, highK22_encode] at read
  have high : BitVec.ofNat 6 (k.toNat >>> 16) = 0 ↔ k.toNat < 2 ^ 16 := by
    have wide := k.isLt
    have zero : (0 : BitVec 6).toNat = 0 := rfl
    rw [← BitVec.toNat_inj, BitVec.toNat_ofNat, Nat.shiftRight_eq_div_pow, zero]
    omega
  exact read.trans high

theorem encode_decode_iff {call : Bool} {w : Word} (second : Word)
    (fixed : w &&& 0xFE0E = (encodeK22 call 0).1) :
    encodeK22 call (decodeK22 w second).k.toNat = (w, second) ↔ w &&& 0x01F1 = 0 := by
  rw [← highK22_eq_zero_iff, ← decodeK22_eq_carried_iff second fixed]
  constructor
  · intro same
    have carried := congrArg carriedK22 same
    rw [carried_encode, decodeK22_long second fixed, BitVec.ofNat_toNat, BitVec.setWidth_eq]
      at carried
    rw [decodeK22_long second fixed, carried]
  · intro same
    rw [same]
    exact encode_carried second fixed

end Form

open Form

/-- Decoding undoes encoding for the addresses below 0x10000, and encoding undoes decoding
for the first words with no address bit set. -/
theorem decodeK22_inverts_iff (call : Bool) (k : BitVec 22) {w : Word} (second : Word)
    {row : Opcode} (found : decodeInstruction w = some row) (op : row.op = (long call).op) :
    ((decodeK22 (encodeK22 call k.toNat).1 (encodeK22 call k.toNat).2).k.toNat = k.toNat ↔
      k.toNat < 2 ^ 16) ∧
    (encodeK22 call (decodeK22 w second).k.toNat = (w, second) ↔ w &&& 0x01F1 = 0) :=
  ⟨decode_encode_iff call k, encode_decode_iff second (long_word found op)⟩

/-- The last word address below 0x10000, and a JMP with no address bit in its first word. -/
theorem jmp_ffff_inverts :
    (decodeK22 (encodeK22 false 0xFFFF).1 (encodeK22 false 0xFFFF).2).k.toNat = 0xFFFF ∧
      encodeK22 false (decodeK22 0x940C 0xFFFF).k.toNat = (0x940C, 0xFFFF) := by
  obtain ⟨row, found, op⟩ : ∃ row, decodeInstruction 0x940C = some row ∧ row.op = .JMP :=
    ⟨⟨0xFE0E, 0x940C, .JMP, .k22, 2, 3, "JMP"⟩, by decide +kernel, rfl⟩
  have inverts := decodeK22_inverts_iff false 0xFFFF 0xFFFF found op
  exact ⟨inverts.1.mpr (by decide), inverts.2.mpr (by decide)⟩

/-- JMP 0x20000 is the words 0x941C and 0, which decode to 0x10000, and that is encoded in
other words. -/
theorem jmp_20000_decodes_as_10000 :
    (decodeK22 (encodeK22 false 0x20000).1 (encodeK22 false 0x20000).2).k.toNat = 0x10000 ∧
      (decodeInstruction 0x941C).map Opcode.op = some .JMP ∧
      encodeK22 false (decodeK22 0x941C 0).k.toNat = (0x940D, 0) := by
  decide +kernel

end AvrEmulator
