import AvrEmulator.ArrayBounds
import AvrEmulator.Disasm
import AvrEmulator.Jumps

/-! The targets that the disassembler shows behind jumps, calls and branches, and the ones
that the executor goes to. -/

namespace AvrEmulator

open Checked Text

/-- The number that the last four digits of a text write. -/
def shownTarget (text : String) : Nat := readHex (text.toList.drop (text.toList.length - 4))

theorem shownTarget_hex16 (front : String) (target : Word) :
    shownTarget (front ++ hex16 target) = target.toNat := by
  have digits : (front ++ hex16 target).toList =
      (front ++ "0x").toList ++ hexChars 4 target.toNat := by
    simp [hex16, hex]
  rw [shownTarget, digits, List.length_append, length_hexChars, Nat.add_sub_cancel,
    List.drop_left, readHex_hexChars target.isLt]

namespace Jump

/-- The target in the text of the instruction at `pc`. The text of an indirect jump has none. -/
def shown (j : Jump) (w extra pc : Word) : Option Word :=
  match j with
  | .long _ => some (((decodeK22 w extra).k * 2).setWidth 16)
  | .indirect _ => none
  | .relative _ => some (pc + 2 + (decodeK02 w).k * 2)
  | .branch _ => some (pc + 2 + (decodeK7 w).k.signExtend 16 * 2)

/-- The flag that a branch tests is as it wants it. -/
def Taken (j : Jump) (w : Word) (s : AvrState) : Prop :=
  match j with
  | .branch set => s.sreg.getLsbD (w.extractLsb' 0 3).toNat = set
  | _ => True

/-- The format of a jump's row. -/
def format : Jump → AvrFmt
  | .long false => .k22
  | .long true => .k22_call
  | .indirect _ => .NONE
  | .relative false => .k02
  | .relative true => .k02_call
  | .branch _ => .k7

theorem format_of_row : ∀ row ∈ opcodeTable, ∀ j, jump row.op = some j → row.fmt = j.format := by
  decide +kernel

/-- The text ends with the target. -/
theorem disassemble_shown {j : Jump} {w extra pc target : Word} {row : Opcode}
    (found : decodeInstruction w = some row) (hj : jump row.op = some j)
    (shown : j.shown w extra pc = some target) :
    shownTarget (disassemble w extra pc) = target.toNat := by
  have format := format_of_row row (MaskTable.lookup_match found).1 j hj
  rw [disassemble, found]
  dsimp only
  unfold disassembleOp
  cases j with
  | long call =>
    cases shown
    cases call <;> rw [format] <;> exact shownTarget_hex16 _ _
  | indirect call => cases shown
  | relative call =>
    cases shown
    cases call <;> rw [format] <;> exact shownTarget_hex16 _ _
  | branch set =>
    cases shown
    rw [format]
    exact shownTarget_hex16 _ _

/-- A jump that is taken and shows its target goes to it. -/
theorem exists_target {j : Jump} {w second : Word} {s : AvrState} (taken : j.Taken w s) :
    ∃ T, j.target w second s = some T := by
  cases j with
  | long | indirect | relative => exact ⟨_, rfl⟩
  | branch set => exact ⟨_, if_pos taken⟩

/-- What the disassembler adds up is the exact target, cut to 16 bits. -/
theorem shown_eq {j : Jump} {w second : Word} {s : AvrState} {T : Int}
    (direct : ∀ call, j ≠ indirect call) (target : j.target w second s = some T) :
    j.shown w second s.pc = some (BitVec.ofInt 16 (2 * T + j.odd s)) := by
  cases j with
  | long call =>
    cases target
    rw [show (long call).odd s = 0 from rfl, Int.natCast_zero, Int.add_zero]
    exact congrArg some ((Form.decodeK22_target w second).trans (double_long _ _))
  | indirect call => exact absurd rfl (direct call)
  | relative call =>
    cases target
    rw [shown, decodeK02_k]
    exact congrArg some (offset_pc _ _)
  | branch set =>
    unfold Jump.target at target
    dsimp only at target
    split at target
    · cases target
      rw [shown, decodeK7_k, branch_offset]
      exact congrArg some (offset_pc _ _)
    · cases target

/-- Only a long jump shows its second word. -/
theorem shown_extra {j : Jump} {w extra second pc : Word} {row : Opcode}
    (found : decodeInstruction w = some row) (hj : jump row.op = some j)
    (same : row.words = 2 → extra = second) : j.shown w extra pc = j.shown w second pc := by
  have rows : ∀ row ∈ opcodeTable, ∀ call, jump row.op = some (.long call) → row.words = 2 := by
    decide +kernel
  cases j with
  | long call =>
    rw [same (rows row (MaskTable.lookup_match found).1 call hj)]
  | indirect | relative | branch => rfl

end Jump

/-- From every PC in flash and in every state, a direct jump or call, or a branch that is
taken, goes to the address that the text of the instruction ends with. -/
theorem shown_target_is_executed {m : Machine} {row : Opcode} {j : Jump} (extra : Word)
    (inside : m.state.pc.toNat + 1 < avrFlashSize)
    (found : decodeInstruction (m.flashWord m.state.pc.toNat) = some row)
    (whole : row.words = 2 → m.state.pc.toNat + 3 < avrFlashSize)
    (second : row.words = 2 → extra = m.flashWord (m.state.pc.toNat + 2))
    (hj : jump row.op = some j) (direct : ∀ call, j ≠ .indirect call)
    (taken : j.Taken (m.flashWord m.state.pc.toNat) m.state) :
    ∃ outcome m', fetchExecute.run m = some (outcome, m') ∧
      shownTarget (disassemble (m.flashWord m.state.pc.toNat) extra m.state.pc) =
        m'.state.pc.toNat := by
  obtain ⟨m₁, fetched⟩ := run_fetch_whole inside found whole
  obtain ⟨outcome, m', run⟩ := fetchExecute_defined.run m
  refine ⟨outcome, m', run, ?_⟩
  rw [fetchExecute, run_bind_of fetched] at run
  obtain ⟨T, target⟩ := Jump.exists_target taken
  have lands := execute_lands fetched hj target run
  have shown := Jump.shown_eq direct target
  have same : row.words = 2 →
      extra = if row.words = 2 then m.flashWord (m.state.pc.toNat + 2) else 0 := by
    intro long
    rw [second long, if_pos long]
  rw [← Jump.shown_extra found hj same] at shown
  rw [Jump.disassemble_shown found hj shown, lands]

/-- RJMP over the start of flash, from byte 0. -/
theorem backward_jump_wraps : disassemble 0xCFFE 0 0 = "RJMP -2  ; → 0xFFFE" ∧
    ∃ outcome m', fetchExecute.run (.initial (Program.firmware [0xCFFE])) = some (outcome, m') ∧
      shownTarget (disassemble 0xCFFE 0 0) = m'.state.pc.toNat ∧ m'.state.pc.toNat = 0xFFFE := by
  have text : disassemble 0xCFFE 0 0 = "RJMP -2  ; → 0xFFFE" := by decide +kernel
  have word : (Machine.initial (Program.firmware [0xCFFE])).flashWord 0 = 0xCFFE := by
    decide +kernel
  have found : decodeInstruction 0xCFFE = some ⟨0xF000, 0xC000, .RJMP, .k02, 1, 2, "RJMP"⟩ := by
    decide +kernel
  obtain ⟨outcome, m', run, same⟩ := @shown_target_is_executed
    (.initial (Program.firmware [0xCFFE])) _ (.relative false) 0 (by decide) (word.symm ▸ found)
    (by decide) (by decide) rfl (by simp) trivial
  change shownTarget (disassemble ((Machine.initial _).flashWord 0) 0 0) = _ at same
  rw [word] at same
  have target : shownTarget (disassemble 0xCFFE 0 0) = 0xFFFE := by
    rw [text]
    decide +kernel
  exact ⟨text, outcome, m', run, same, same.symm.trans target⟩

end AvrEmulator
