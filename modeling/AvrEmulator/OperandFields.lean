import AvrEmulator.LogicFlags

/-! The operand extractors of the decoder as bit fields of the instruction word. -/

namespace AvrEmulator

/-- A shifted and masked word is the bit field it selects. -/
theorem shift_and_mask (w : Word) {a n : Nat} {k : Word} (hk : k.toNat = 2 ^ n - 1)
    (hn : n ≤ 16) : (w >>> a) &&& k = (w.extractLsb' a n).setWidth 16 := by
  apply BitVec.eq_of_toNat_eq
  have small : w.toNat >>> a % 2 ^ n < 2 ^ 16 :=
    Nat.lt_of_lt_of_le (Nat.mod_lt _ (Nat.two_pow_pos n)) (Nat.pow_le_pow_right (by decide) hn)
  rw [BitVec.toNat_and, BitVec.toNat_ushiftRight, hk, Nat.and_two_pow_sub_one_eq_mod,
    BitVec.toNat_setWidth, BitVec.extractLsb'_toNat, Nat.mod_eq_of_lt small]

theorem decodeRd_d (w : Word) : (decodeRd w).d.toNat = (w.extractLsb' 4 5).toNat := decodeRdRr_d w

theorem decodeRd06Rr06_d (w : Word) :
    (decodeRd06Rr06 w).d.toNat = (w.extractLsb' 4 4).toNat := by
  change (((w >>> 4) &&& 0x0F).setWidth 8).toNat = _
  rw [shift_and_mask w (n := 4) rfl (by decide)]
  simp only [BitVec.toNat_setWidth]
  omega

theorem decodeRd06Rr06_r (w : Word) :
    (decodeRd06Rr06 w).r.toNat = (w.extractLsb' 0 4).toNat := by
  have field := shift_and_mask w (k := 0x0F) (a := 0) (n := 4) rfl (by decide)
  rw [BitVec.ushiftRight_zero] at field
  change ((w &&& 0x0F).setWidth 8).toNat = _
  rw [field]
  simp only [BitVec.toNat_setWidth]
  omega

theorem decodeRdRrMpy_d (w : Word) :
    (decodeRdRrMpy w).d.toNat = 16 + (w.extractLsb' 4 3).toNat := by
  change ((((w >>> 4) &&& 0x07) + 16).setWidth 8).toNat = _
  rw [shift_and_mask w (n := 3) rfl (by decide)]
  simp only [BitVec.toNat_setWidth, BitVec.toNat_add, show (16 : Word).toNat = 16 from rfl]
  omega

theorem decodeRdRrMpy_r (w : Word) :
    (decodeRdRrMpy w).r.toNat = 16 + (w.extractLsb' 0 3).toNat := by
  have field := shift_and_mask w (k := 0x07) (a := 0) (n := 3) rfl (by decide)
  rw [BitVec.ushiftRight_zero] at field
  change (((w &&& 0x07) + 16).setWidth 8).toNat = _
  rw [field]
  simp only [BitVec.toNat_setWidth, BitVec.toNat_add, show (16 : Word).toNat = 16 from rfl]
  omega

theorem decodeRd06K6_d (w : Word) :
    (decodeRd06K6 w).d.toNat = 24 + 2 * (w.extractLsb' 4 2).toNat := by
  change (((24 : Word) + (((w >>> 4) &&& 0x03) <<< 1)).setWidth 8).toNat = _
  rw [shift_and_mask w (n := 2) rfl (by decide)]
  simp only [BitVec.toNat_setWidth, BitVec.toNat_add, BitVec.toNat_shiftLeft, Nat.shiftLeft_eq,
    show (24 : Word).toNat = 24 from rfl]
  omega

theorem decodeRd06K6_k (w : Word) :
    (decodeRd06K6 w).k = (w.extractLsb' 6 2 ++ w.extractLsb' 0 4).setWidth 8 := by
  apply BitVec.eq_of_getLsbD_eq
  intro i hi
  rw [BitVec.getLsbD_setWidth, BitVec.getLsbD_append]
  unfold decodeRd06K6
  interval_cases i <;> simp

theorem decodeRrB_r (w : Word) : (decodeRrB w).r.toNat = (w.extractLsb' 4 5).toNat := decodeRdRr_d w

theorem decodeRrB_b (w : Word) : (decodeRrB w).b.toNat = (w.extractLsb' 0 3).toNat := by
  have field := shift_and_mask w (k := 0x07) (a := 0) (n := 3) rfl (by decide)
  rw [BitVec.ushiftRight_zero] at field
  change ((w &&& 0x07).setWidth 8).toNat = _
  rw [field]
  simp only [BitVec.toNat_setWidth]
  omega

theorem decodeIOB_a (w : Word) : (decodeIOB w).a = (w.extractLsb' 3 5).setWidth 8 := by
  change ((w >>> 3) &&& 0x1F).setWidth 8 = _
  rw [shift_and_mask w (n := 5) rfl (by decide)]
  apply BitVec.eq_of_toNat_eq
  simp only [BitVec.toNat_setWidth]
  omega

theorem decodeIOB_b (w : Word) : (decodeIOB w).b.toNat = (w.extractLsb' 0 3).toNat := decodeRrB_b w

theorem decodeK7_k (w : Word) : (decodeK7 w).k = (w.extractLsb' 3 7).signExtend 8 := by
  have raw : ((w >>> 3) &&& 0x7F).setWidth 8 = (w.extractLsb' 3 7).setWidth 8 := by
    rw [shift_and_mask w (n := 7) rfl (by decide), BitVec.setWidth_setWidth_of_le _ (by decide)]
  rw [← Bits.sign_extend (w := 8) (w.extractLsb' 3 7) (by decide), ← raw]
  rfl

theorem decodeK7_s (w : Word) : (decodeK7 w).s.toNat = (w.extractLsb' 0 3).toNat := decodeRrB_b w

theorem decodeK02_k (w : Word) : (decodeK02 w).k = (w.extractLsb' 0 12).signExtend 16 := by
  have raw := shift_and_mask w (k := 0x0FFF) (a := 0) (n := 12) rfl (by decide)
  rw [BitVec.ushiftRight_zero] at raw
  rw [← Bits.sign_extend (w := 16) (w.extractLsb' 0 12) (by decide), ← raw]
  rfl

end AvrEmulator
