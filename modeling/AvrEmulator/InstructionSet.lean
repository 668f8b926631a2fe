import AvrEmulator.DecodeForms

/-! Decoding and dispatch realise the reference encoding. -/

namespace AvrEmulator

namespace Form

/-- An alias has its own layout in the table and names a form with one field
fixed. The aliases of two equal registers or of an inverted immediate have no
layout of their own: their words are words of the form they stand for. -/
structure Alias where
  layout : List (Slot Field)
  form : Form
  field : Field
  value : Nat

def aliases : List Alias := [
  ⟨[I,O,O,O, O,O,O,d, d,d,d,d, I,O,O,O], LDD_Y, .q, 0⟩,
  ⟨[I,O,O,O, O,O,O,d, d,d,d,d, O,O,O,O], LDD_Z, .q, 0⟩,
  ⟨[I,O,O,O, O,O,I,r, r,r,r,r, I,O,O,O], STD_Y, .q, 0⟩,
  ⟨[I,O,O,O, O,O,I,r, r,r,r,r, O,O,O,O], STD_Z, .q, 0⟩,
  ⟨[I,I,I,I, O,I,k,k, k,k,k,k, k,O,O,O], BRBC, .s, 0⟩,
  ⟨[I,I,I,I, O,O,k,k, k,k,k,k, k,O,O,O], BRBS, .s, 0⟩,
  ⟨[I,I,I,I, O,O,k,k, k,k,k,k, k,O,O,I], BRBS, .s, 1⟩,
  ⟨[I,I,I,I, O,I,k,k, k,k,k,k, k,I,O,O], BRBC, .s, 4⟩,
  ⟨[I,I,I,I, O,I,k,k, k,k,k,k, k,I,O,I], BRBC, .s, 5⟩,
  ⟨[I,I,I,I, O,O,k,k, k,k,k,k, k,I,O,I], BRBS, .s, 5⟩,
  ⟨[I,I,I,I, O,I,k,k, k,k,k,k, k,I,I,I], BRBC, .s, 7⟩,
  ⟨[I,I,I,I, O,O,k,k, k,k,k,k, k,I,I,I], BRBS, .s, 7⟩,
  ⟨[I,I,I,I, O,O,k,k, k,k,k,k, k,I,O,O], BRBS, .s, 4⟩,
  ⟨[I,I,I,I, O,O,k,k, k,k,k,k, k,O,I,O], BRBS, .s, 2⟩,
  ⟨[I,I,I,I, O,I,k,k, k,k,k,k, k,O,O,I], BRBC, .s, 1⟩,
  ⟨[I,I,I,I, O,I,k,k, k,k,k,k, k,O,I,O], BRBC, .s, 2⟩,
  ⟨[I,I,I,I, O,I,k,k, k,k,k,k, k,I,I,O], BRBC, .s, 6⟩,
  ⟨[I,I,I,I, O,O,k,k, k,k,k,k, k,I,I,O], BRBS, .s, 6⟩,
  ⟨[I,I,I,I, O,I,k,k, k,k,k,k, k,O,I,I], BRBC, .s, 3⟩,
  ⟨[I,I,I,I, O,O,k,k, k,k,k,k, k,O,I,I], BRBS, .s, 3⟩,
  ⟨[I,O,O,I, O,I,O,O, O,O,O,O, I,O,O,O], BSET, .s, 0⟩,
  ⟨[I,O,O,I, O,I,O,O, O,O,O,I, I,O,O,O], BSET, .s, 1⟩,
  ⟨[I,O,O,I, O,I,O,O, O,O,I,O, I,O,O,O], BSET, .s, 2⟩,
  ⟨[I,O,O,I, O,I,O,O, O,O,I,I, I,O,O,O], BSET, .s, 3⟩,
  ⟨[I,O,O,I, O,I,O,O, O,I,O,O, I,O,O,O], BSET, .s, 4⟩,
  ⟨[I,O,O,I, O,I,O,O, O,I,O,I, I,O,O,O], BSET, .s, 5⟩,
  ⟨[I,O,O,I, O,I,O,O, O,I,I,O, I,O,O,O], BSET, .s, 6⟩,
  ⟨[I,O,O,I, O,I,O,O, O,I,I,I, I,O,O,O], BSET, .s, 7⟩,
  ⟨[I,O,O,I, O,I,O,O, I,O,O,O, I,O,O,O], BCLR, .s, 0⟩,
  ⟨[I,O,O,I, O,I,O,O, I,O,O,I, I,O,O,O], BCLR, .s, 1⟩,
  ⟨[I,O,O,I, O,I,O,O, I,O,I,O, I,O,O,O], BCLR, .s, 2⟩,
  ⟨[I,O,O,I, O,I,O,O, I,O,I,I, I,O,O,O], BCLR, .s, 3⟩,
  ⟨[I,O,O,I, O,I,O,O, I,I,O,O, I,O,O,O], BCLR, .s, 4⟩,
  ⟨[I,O,O,I, O,I,O,O, I,I,O,I, I,O,O,O], BCLR, .s, 5⟩,
  ⟨[I,O,O,I, O,I,O,O, I,I,I,O, I,O,O,O], BCLR, .s, 6⟩,
  ⟨[I,O,O,I, O,I,O,O, I,I,I,I, I,O,O,O], BCLR, .s, 7⟩]

theorem alias_layouts : ∀ a ∈ aliases, a.form.second = [] ∧
    a.layout = Layout.fill a.field a.value a.form.layout := by
  decide

theorem alias_word (a : Alias) (h : a ∈ aliases) (v : Field → Nat) :
    Layout.encode 16 a.layout v = a.form.word1 (Function.update v a.field a.value) := by
  obtain ⟨hsecond, hlayout⟩ := alias_layouts a h
  have whole : (fun x => Function.update v a.field a.value x >>> Layout.width x a.form.second) =
      Function.update v a.field a.value := by
    funext x
    rw [hsecond, Layout.width_nil, Nat.shiftRight_zero]
  rw [word1, whole, Layout.encode, Layout.encode, hlayout, Layout.bits_fill]

def all : List Form := [
  ADC, ADD, AND, CP, CPC, CPSE, EOR, MOV, MUL, OR, SBC, SUB, ANDI, CPI, LDI, ORI, SBCI, SUBI,
  SER, ASR, COM, DEC, INC, LSR, NEG, POP, PUSH, ROR, SWAP, LPM_Z, LPM_ZInc, MULS, MOVW, MULSU,
  FMUL, FMULS, FMULSU, ADIW, SBIW, BSET, BCLR, BLD, BST, SBRC, SBRS, CBI, SBI, SBIC, SBIS, IN,
  OUT, BRBC, BRBS, RJMP, RCALL, JMP, CALL, LD_X, LD_XInc, LD_XDec, LDD_Y, LD_YInc, LD_YDec,
  LDD_Z, LD_ZInc, LD_ZDec, ST_X, ST_XInc, ST_XDec, STD_Y, ST_YInc, ST_YDec, STD_Z, ST_ZInc,
  ST_ZDec, LDS, STS, LPM, IJMP, ICALL, RET, RETI, NOP, SLEEP, WDR, BREAK, SPM]

/-- Every word with `w &&& m = c` has the fixed bits of the form. -/
def Takes (f : Form) (m c : Word) : Prop :=
  Layout.mask 16 f.layout &&& m = Layout.mask 16 f.layout ∧
    c &&& Layout.mask 16 f.layout = Layout.code 16 f.layout

instance (f : Form) (m c : Word) : Decidable (f.Takes m c) := by unfold Takes; infer_instance

/-- The two indirect rows through X leave their low bits to the mode, and one
value of these is POP or PUSH. So each row is taken apart by its low two bits. -/
theorem row_taken : ∀ row ∈ opcodeTable, ∀ low : BitVec 2,
    low.setWidth 16 &&& row.mask = row.code &&& 3 →
      ∃ f ∈ all, f.Takes (row.mask ||| 3) (row.code ||| low.setWidth 16) := by
  decide +kernel

theorem exists_word1 {f : Form} {w m c : Word} (h : f.Takes m c) (hw : w &&& m = c) :
    ∃ v, f.InRange v ∧ f.word1 v = w := by
  have fixed : w &&& Layout.mask 16 f.layout = Layout.code 16 f.layout := by
    rw [← h.2, ← hw, BitVec.and_assoc, BitVec.and_comm m, h.1]
  obtain ⟨u, hu, bound⟩ := Layout.exists_encode f.layout_length fixed
  refine ⟨fun x => u x <<< Layout.width x f.second, fun x => ?_, ?_⟩
  · change u x <<< Layout.width x f.second < _
    rw [Nat.shiftLeft_eq, Nat.pow_add]
    exact Nat.mul_lt_mul_of_pos_right (bound x) (Nat.two_pow_pos _)
  · have high : (fun x => (u x <<< Layout.width x f.second) >>> Layout.width x f.second) = u := by
      funext x
      exact Nat.shiftLeft_shiftRight _ _
    rw [word1, high, hu]

theorem exists_form {w : Word} {row : Opcode} (h : decodeInstruction w = some row) :
    ∃ (f : Form) (v : Field → Nat), f.InRange v ∧ f.word1 v = w := by
  have found : MaskTable.lookup Opcode.mask Opcode.code opcodeTable w = some row := h
  obtain ⟨mem, hit⟩ := MaskTable.lookup_match found
  have low : (w.setWidth 2).setWidth 16 = w &&& 3 := by
    ext i hi
    interval_cases i <;> simp
  have agrees : (w.setWidth 2).setWidth 16 &&& row.mask = row.code &&& 3 := by
    rw [low, ← hit, BitVec.and_assoc, BitVec.and_assoc, BitVec.and_comm 3]
  obtain ⟨f, -, takes⟩ := row_taken row mem (w.setWidth 2) agrees
  obtain ⟨v, range, hv⟩ := exists_word1 takes (w := w)
    (by rw [BitVec.and_or_distrib_left, hit, low])
  exact ⟨f, v, range, hv⟩

end Form

/-- Every form decodes to a row of its length and runs its own execute function
on its own operands; aliases are words of their canonical forms; every other
word is rejected. -/
theorem decoder_realises_encoding :
    (∀ (f : Form) (v : Field → Nat), f.InRange v →
      ∃ row, decodeInstruction (f.word1 v) = some row ∧ row.words.toNat = f.words ∧
        ∀ m : Machine, (executeInstruction row (f.word1 v) (f.word2 v)).run m =
          ((f.execute v).run m).map fun p => (true, p.2)) ∧
    (∀ a ∈ Form.aliases, ∀ v, Layout.encode 16 a.layout v =
      a.form.word1 (Function.update v a.field a.value)) ∧
    (∀ w : Word, (∀ (f : Form) (v : Field → Nat), f.InRange v → f.word1 v ≠ w) →
      decodeInstruction w = none) := by
  refine ⟨fun f v h => ?_, Form.alias_word, fun w h => ?_⟩
  · obtain ⟨row, mem, hrow, hit⟩ := f.decode_word1 v
    refine ⟨row, hrow, (f.rows_op row mem).2.1, ?_⟩
    intro m
    rw [executeInstruction, f.dispatch_word1 h mem hit, StateT.run_bind]
    cases (f.execute v).run m <;> rfl
  · cases hd : decodeInstruction w with
    | none => rfl
    | some row =>
      obtain ⟨f, v, range, hv⟩ := Form.exists_form hd
      exact absurd hv (h f v range)

/-- The LDI word that the SER row takes first. -/
theorem ldi_under_ser : ∃ row, decodeInstruction 0xEF0F = some row ∧ row.words.toNat = 1 ∧
    ∀ m : Machine, (executeInstruction row 0xEF0F 0).run m =
      ((onCpu (executeLDI ⟨16, 0xFF⟩)).run m).map fun p => (true, p.2) := by
  have range : Form.LDI.InRange fun x => if x = .K then 0xFF else 0 := by
    intro x
    cases x <;> decide
  have word : (Form.LDI.word1 fun x => if x = .K then 0xFF else 0) = 0xEF0F := by decide
  have realised := decoder_realises_encoding.1 .LDI _ range
  rw [word] at realised
  exact realised

end AvrEmulator
