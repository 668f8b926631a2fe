import Mathlib.Data.List.Pairwise
import AvrEmulator.Disasm
import AvrEmulator.InstructionSet
import AvrEmulator.OperandFields

/-! The rows of the opcode table that decode some word, and the names they print. -/

namespace AvrEmulator

def liveRows : List Opcode := opcodeTable.filter fun row => decodeInstruction row.code = some row

theorem mem_all (f : Form) : f ∈ Form.all := by cases f <;> decide

theorem rows_live : ∀ f ∈ Form.all, ∀ row ∈ f.rows,
    decodeInstruction row.code = some row ∨
      row.mask = 0xFF8F ∧ (row.code = 0x9408 ∨ row.code = 0x9488) := by
  decide +kernel

theorem flag_word {w code : Word} (hit : w &&& 0xFF8F = code) :
    w = (BitVec.ofNat 16 (w.extractLsb' 4 3).toNat <<< 4) ||| code := by
  rw [BitVec.ofNat_toNat, ← hit]
  ext i hi
  interval_cases i <;> simp

/-- The words of the generic BSET and BCLR rows are taken by the named ones. -/
theorem flag_rows : ∀ s < 8,
    (decodeInstruction ((BitVec.ofNat 16 s <<< 4) ||| 0x9408)).map Opcode.mask = some 0xFFFF ∧
    (decodeInstruction ((BitVec.ofNat 16 s <<< 4) ||| 0x9488)).map Opcode.mask = some 0xFFFF := by
  decide +kernel

theorem mask_of_flag {w : Word} (hit : w &&& 0xFF8F = 0x9408 ∨ w &&& 0xFF8F = 0x9488) :
    (decodeInstruction w).map Opcode.mask = some 0xFFFF := by
  obtain ⟨set, clear⟩ := flag_rows _ (w.extractLsb' 4 3).isLt
  rcases hit with hit | hit
  · rwa [← flag_word hit] at set
  · rwa [← flag_word hit] at clear

theorem live_of_decode {w : Word} {row : Opcode} (found : decodeInstruction w = some row) :
    row ∈ liveRows := by
  have live : decodeInstruction row.code = some row := by
    obtain ⟨f, v, -, rfl⟩ := Form.exists_form found
    obtain ⟨row', mem, found', hit⟩ := f.decode_word1 v
    obtain rfl := Option.some.inj (found.symm.trans found')
    apply (rows_live f (mem_all f) row mem).resolve_right
    rintro ⟨mask, code⟩
    have named := mask_of_flag (w := f.word1 v) (by rwa [← mask, hit])
    rw [found, Option.map_some, mask] at named
    exact absurd named (by decide)
  exact List.mem_filter.mpr ⟨(MaskTable.lookup_match found).1, decide_eq_true live⟩

theorem hit_of_decode {w : Word} {row : Opcode} (found : decodeInstruction w = some row) :
    w &&& row.mask = row.code :=
  (MaskTable.lookup_match found).2

/-- The conditional branches are named after the flag they test. -/
def branchNames (row : Opcode) : List String :=
  if row.op = .BRBS then brbsNames else brbcNames

def names (row : Opcode) : List String :=
  if row.fmt = .k7 then branchNames row else [row.mnemonic]

def name (row : Opcode) (w : Word) : String :=
  if row.fmt = .k7 then (branchNames row).getD (decodeK7 w).s.toNat "" else row.mnemonic

/-- Nothing is printed behind the name. -/
def bare (row : Opcode) : Bool := row.fmt = .NONE ∨ row.op = .LPM

/-- The names that the formatter spells out are those of the table, and it gives the
aliases that no word decodes to a text of their own. -/
structure Spelled (row : Opcode) : Prop where
  clr : row.op = .CLR → row.mnemonic = "CLR"
  ser : row.op = .SER → row.mnemonic = "SER"
  pairs : row.fmt = .Rd06_Rr06 → row.mnemonic = if row.op = .MOVW then "MOVW" else "MULS"
  rcall : row.fmt = .k02_call → row.mnemonic = "RCALL"
  jmp : row.fmt = .k22 → row.mnemonic = "JMP"
  call : row.fmt = .k22_call → row.mnemonic = "CALL"
  lpm : row.op = .LPM → row.fmt = .NONE ∨ row.fmt = .Rd_only
  aliases : row.op ≠ .TST ∧ row.op ≠ .LSL ∧ row.op ≠ .ROL ∧ row.op ≠ .CBR ∧ row.op ≠ .SBR
  pop : row.fmt = .LD_family → row.op ≠ .POP
  flags : row.fmt ≠ .b_only

theorem spelled_iff (row : Opcode) : Spelled row ↔
    (row.op = .CLR → row.mnemonic = "CLR") ∧ (row.op = .SER → row.mnemonic = "SER") ∧
    (row.fmt = .Rd06_Rr06 → row.mnemonic = if row.op = .MOVW then "MOVW" else "MULS") ∧
    (row.fmt = .k02_call → row.mnemonic = "RCALL") ∧ (row.fmt = .k22 → row.mnemonic = "JMP") ∧
    (row.fmt = .k22_call → row.mnemonic = "CALL") ∧
    (row.op = .LPM → row.fmt = .NONE ∨ row.fmt = .Rd_only) ∧
    (row.op ≠ .TST ∧ row.op ≠ .LSL ∧ row.op ≠ .ROL ∧ row.op ≠ .CBR ∧ row.op ≠ .SBR) ∧
    (row.fmt = .LD_family → row.op ≠ .POP) ∧ row.fmt ≠ .b_only :=
  ⟨fun h => ⟨h.clr, h.ser, h.pairs, h.rcall, h.jmp, h.call, h.lpm, h.aliases, h.pop, h.flags⟩,
    fun ⟨clr, ser, pairs, rcall, jmp, call, lpm, aliases, pop, flags⟩ =>
      ⟨clr, ser, pairs, rcall, jmp, call, lpm, aliases, pop, flags⟩⟩

instance (row : Opcode) : Decidable (Spelled row) := decidable_of_iff' _ (spelled_iff row)

theorem spelled_of_live : ∀ row ∈ liveRows, Spelled row := by
  have rows : ∀ row ∈ opcodeTable, Spelled row ∨ decodeInstruction row.code ≠ some row := by
    decide +kernel
  intro row live
  obtain ⟨mem, found⟩ := List.mem_filter.mp live
  exact (rows row mem).resolve_right (not_not_intro (of_decide_eq_true found))

/-- No two rows share a name. -/
theorem nodup_names : (liveRows.flatMap names).Nodup := by
  decide +kernel

/-- Up to a blank, no name goes on behind the name of a row with operands. -/
theorem no_longer_name : ∀ longer ∈ (opcodeTable.flatMap names).filter (·.toList.contains ' '),
    ∀ n ∈ (opcodeTable.filter fun row => !bare row).flatMap names,
      ¬ n.toList ++ [' '] <+: longer.toList := by
  decide +kernel

theorem name_mem (row : Opcode) (w : Word) : name row w ∈ names row := by
  unfold name names
  split
  next =>
    have small : (decodeK7 w).s.toNat < 8 := by
      rw [decodeK7_s]
      exact BitVec.isLt _
    have eight : (branchNames row).length = 8 := by
      unfold branchNames
      split <;> rfl
    rw [List.getD_eq_getElem _ _ (by omega)]
    exact List.getElem_mem _
  next => exact List.mem_singleton_self _

theorem row_of_name {row row' : Opcode} (live : row ∈ liveRows) (live' : row' ∈ liveRows)
    {n : String} (mem : n ∈ names row) (mem' : n ∈ names row') : row = row' := by
  by_contra other
  have : Std.Symm (Function.onFun List.Disjoint names) := ⟨fun _ _ h => h.symm⟩
  have apart := (List.nodup_flatMap.mp nodup_names).2.forall live live' other
  exact List.disjoint_left.mp apart mem mem'

theorem not_longer {row row' : Opcode} (live : row ∈ liveRows) (live' : row' ∈ liveRows)
    (follows : bare row = false) {n n' : String} (mem : n ∈ names row) (mem' : n' ∈ names row') :
    ¬ n.toList ++ [' '] <+: n'.toList := by
  intro longer
  have blank : ' ' ∈ n'.toList := longer.subset (by simp)
  have listed := (List.mem_filter.mp live).1
  have listed' := (List.mem_filter.mp live').1
  refine no_longer_name n' ?_ n ?_ longer
  · exact List.mem_filter.mpr ⟨List.mem_flatMap.mpr ⟨row', listed', mem'⟩, by simpa using blank⟩
  · exact List.mem_flatMap.mpr ⟨row, List.mem_filter.mpr ⟨listed, by simp [follows]⟩, mem⟩

end AvrEmulator
