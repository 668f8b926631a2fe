import AvrEmulator.Library.Placement
import AvrEmulator.Firmware

/-! Initial values with no flash address of their own, and the flash already taken when
the loader places them. -/

namespace AvrEmulator

open Checked Placement

namespace Elf32Phdr

/-- The flash address a writable segment names itself, if it names one. -/
def flashAddr (ph : Elf32Phdr) : Option Nat :=
  if ph.pPaddr < 0x800000 then some ph.pPaddr.toNat else none

def fileSize (ph : Elf32Phdr) : Nat := ph.pFilesz.toNat

def filled (ph : Elf32Phdr) : Bool := ph.pFilesz ≠ 0

end Elf32Phdr

namespace ElfFile

/-- The blocks with an address of their own in the program headers. -/
def explicitBlocks (file : ElfFile) : List (Block Byte) :=
  file.texts.map file.textBlock ++
    file.datas.filterMap fun ph => ph.flashAddr.map fun base => ⟨base, file.content ph⟩

def ExplicitApart (file : ElfFile) : Prop := file.explicitBlocks.Pairwise Block.Apart

instance (file : ElfFile) : Decidable file.ExplicitApart := by
  unfold ExplicitApart
  infer_instance

/-- Every relocated segment is laid clear of all blocks laid before it. -/
def RelocatedClear (file : ElfFile) : Prop :=
  ∀ before init after, file.destinations = before ++ init :: after →
    0x800000 ≤ init.2.pPaddr →
    ∀ b ∈ file.texts.map file.textBlock ++ before.map file.initBlock,
      b.Apart (file.initBlock init)

/-- The writable segments with initial values, in table order. -/
def inits (file : ElfFile) : List Elf32Phdr := file.datas.filter Elf32Phdr.filled

/-- The flash of the text. -/
def textCells (file : ElfFile) : Set Nat :=
  {a | ∃ ph ∈ file.texts, ph.pVaddr.toNat ≤ a ∧ a < ph.pVaddr.toNat + ph.fileSize}

/-- The flash of the relocated segments that stand before all explicitly placed ones. -/
def leadingCells (file : ElfFile) : Set Nat :=
  Set.Ico (textEnd 0 file.texts)
    (textEnd 0 file.texts + floating Elf32Phdr.flashAddr Elf32Phdr.fileSize file.inits)

/-- Behind each explicitly placed segment there is free flash for the relocated ones that
follow it. -/
def RoomBehind (file : ElfFile) : Prop :=
  Room Elf32Phdr.flashAddr Elf32Phdr.fileSize (file.textCells ∪ file.leadingCells) file.inits

end ElfFile

theorem textEnd_mono {l : List Elf32Phdr} {start : Nat} : start ≤ textEnd start l := by
  induction l generalizing start with
  | nil => exact Nat.le_refl _
  | cons ph l ih => exact (Nat.le_max_left _ _).trans ih

/-- All text lies below the running address. -/
theorem le_textEnd {l : List Elf32Phdr} {ph : Elf32Phdr} (member : ph ∈ l) (start : Nat) :
    ph.pVaddr.toNat + ph.fileSize ≤ textEnd start l := by
  induction l generalizing start with
  | nil => cases member
  | cons first l ih =>
    cases member with
    | head => exact (Nat.le_max_right _ _).trans textEnd_mono
    | tail _ member => exact ih member _

/-- The loader places the segments with initial values at a running address. -/
theorem destinations_eq_place (next : Nat) (l : List Elf32Phdr) :
    destinations next l =
      place Elf32Phdr.flashAddr Elf32Phdr.fileSize next (l.filter Elf32Phdr.filled) := by
  induction l generalizing next with
  | nil => rfl
  | cons ph l ih =>
    rw [destinations, ih]
    by_cases empty : ph.pFilesz = 0
    · rw [placed, if_pos empty, placedEnd, if_pos empty, List.filter_cons_of_neg]
      · rfl
      · simp [Elf32Phdr.filled, empty]
    · have base_eq : base Elf32Phdr.flashAddr next ph = destination next ph := by
        unfold base Elf32Phdr.flashAddr destination
        split <;> rfl
      rw [placed, if_neg empty, placedEnd, if_neg empty, List.filter_cons_of_pos, place, base_eq]
      · rfl
      · simpa [Elf32Phdr.filled] using empty

theorem flashAddr_eq_none (ph : Elf32Phdr) : ph.flashAddr = none ↔ 0x800000 ≤ ph.pPaddr := by
  unfold Elf32Phdr.flashAddr
  rw [ite_eq_right_iff, ← BitVec.not_lt]
  exact ⟨fun none low => Option.some_ne_none _ (none low), fun high low => absurd low high⟩

theorem loadFirmware_accepts {file : ElfFile} {s t : AvrState}
    (accepted : (loadFirmware file).run s = some (true, t)) :
    Firmware file ∧ t = file.loaded s := by
  have decided := loadSegments_decides file s
  by_cases firmware : Firmware file
  · obtain ⟨⟨⟩, t', run, rfl⟩ := decided.accepts firmware
    have same := (run_bind_of run _).symm.trans accepted
    exact ⟨firmware, (congrArg Prod.snd (Option.some.inj same)).symm⟩
  · obtain ⟨e, t', run⟩ := decided.refuses firmware
    have same := (run_bind_of run _).symm.trans accepted
    cases congrArg Prod.fst (Option.some.inj same)

theorem length_loadable {file : ElfFile} (firmware : Firmware file) {ph : Elf32Phdr}
    (loadable : ph ∈ file.texts ++ file.datas) : (file.content ph).length = ph.fileSize := by
  obtain ⟨listed, load⟩ : ph ∈ file.phdrs ∧ ph.pType = ptLoad := by
    rcases List.mem_append.mp loadable with text | data
    · exact (List.mem_filter.mp text).imp_right fun text =>
        of_decide_eq_true (Bool.and_eq_true_iff.mp text).1
    · exact (List.mem_filter.mp data).imp_right fun data =>
        of_decide_eq_true (Bool.and_eq_true_iff.mp data).1
  exact file.length_content load (firmware.segments ph listed)

theorem covers_textBlock {file : ElfFile} (firmware : Firmware file) {ph : Elf32Phdr}
    (text : ph ∈ file.texts) (i : Nat) : (file.textBlock ph).Covers i ↔
      ph.pVaddr.toNat ≤ i ∧ i < ph.pVaddr.toNat + ph.fileSize := by
  rw [Block.covers_iff, ElfFile.textBlock, length_loadable firmware (List.mem_append_left _ text)]

theorem covers_initBlock {file : ElfFile} (firmware : Firmware file) {init : Nat × Elf32Phdr}
    (data : init.2 ∈ file.datas) (i : Nat) :
    (file.initBlock init).Covers i ↔ i ∈ span Elf32Phdr.fileSize init := by
  rw [Block.covers_iff, ElfFile.initBlock, length_loadable firmware (List.mem_append_right _ data)]
  rfl

/-- The cells that laid blocks cover are those of their segments. -/
theorem exists_covers_iff {file : ElfFile} (firmware : Firmware file)
    {l : List (Nat × Elf32Phdr)} (datas : ∀ p ∈ l, p.2 ∈ file.datas) (i : Nat) :
    (∃ b ∈ file.texts.map file.textBlock ++ l.map file.initBlock, b.Covers i) ↔
      i ∈ file.textCells ∪ cells Elf32Phdr.fileSize l := by
  have texts : (∃ b ∈ file.texts.map file.textBlock, b.Covers i) ↔ i ∈ file.textCells := by
    simp only [List.mem_map, exists_exists_and_eq_and]
    exact exists_congr fun ph => and_congr_right fun text => covers_textBlock firmware text i
  have inits : (∃ b ∈ l.map file.initBlock, b.Covers i) ↔ i ∈ cells Elf32Phdr.fileSize l := by
    simp only [List.mem_map, exists_exists_and_eq_and]
    exact exists_congr fun p => and_congr_right fun member =>
      covers_initBlock firmware (datas p member) i
  simp only [List.mem_append, or_and_right, exists_or]
  exact or_congr texts inits

theorem relocatedClear_iff_floatsClear {file : ElfFile} (firmware : Firmware file) :
    file.RelocatedClear ↔ FloatsClear Elf32Phdr.flashAddr Elf32Phdr.fileSize file.textCells
      (textEnd 0 file.texts) file.inits := by
  unfold ElfFile.RelocatedClear FloatsClear ElfFile.destinations
  rw [destinations_eq_place]
  refine forall₃_congr fun before init after => imp_congr_right fun split => ?_
  rw [flashAddr_eq_none]
  apply imp_congr_right
  intro relocated
  have datas : ∀ p ∈ before ++ init :: after, p.2 ∈ file.datas := by
    intro p member
    rw [← split] at member
    exact List.mem_of_mem_filter (mem_place _ _ member)
  have own (i : Nat) := covers_initBlock firmware (datas init (by simp)) i
  have taken (i : Nat) :=
    exists_covers_iff firmware (fun p member => datas p (List.mem_append_left _ member)) i
  rw [Set.disjoint_left]
  constructor
  · intro clear i used inside
    obtain ⟨b, laid, covers⟩ := (taken i).mpr used
    exact clear b laid i covers ((own i).mpr inside)
  · intro clear b laid i covers inside
    exact clear ((taken i).mp ⟨b, laid, covers⟩) ((own i).mp inside)

/-- The first relocated segments go behind all text. -/
theorem textCells_leading (file : ElfFile) : Disjoint file.textCells file.leadingCells := by
  rw [Set.disjoint_left]
  rintro a ⟨ph, text, -, below⟩ ⟨behind, -⟩
  exact absurd (below.trans_le (le_textEnd text 0)) (Nat.not_lt.mpr behind)

/-- In an accepted file the relocated initial values are laid clear of everything laid
before them exactly when there is room behind each explicitly placed segment. -/
theorem relocated_clear_iff (file : ElfFile) (s t : AvrState)
    (accepted : (loadFirmware file).run s = some (true, t)) :
    t.flash = file.flashBlocks.foldl Cells.lay s.flash ∧
      (file.RelocatedClear ↔ file.RoomBehind) := by
  obtain ⟨firmware, rfl⟩ := loadFirmware_accepts accepted
  refine ⟨rfl, ?_⟩
  rw [relocatedClear_iff_floatsClear firmware, floatsClear_iff]
  exact and_iff_right (textCells_leading file)

/-- Two bytes of text at 4, a byte of data for flash address `paddr` and a relocated one. -/
def relocatingElf (paddr : Byte) : ElfFile where
  bytes :=
    [0x7F, 0x45, 0x4C, 0x46, 1, 1, 1] ++ List.replicate 9 0 ++
    [2, 0, 83, 0, 1, 0, 0, 0] ++ [4, 0, 0, 0] ++ [52, 0, 0, 0] ++ List.replicate 8 0 ++
    [52, 0, 32, 0, 3, 0] ++ List.replicate 6 0 ++
    [1, 0, 0, 0] ++ [148, 0, 0, 0] ++ [4, 0, 0, 0] ++ [4, 0, 0, 0] ++ [2, 0, 0, 0] ++
    [2, 0, 0, 0] ++ [5, 0, 0, 0] ++ List.replicate 4 0 ++
    [1, 0, 0, 0] ++ [150, 0, 0, 0] ++ [0, 1, 0x80, 0] ++ [paddr, 0, 0, 0] ++ [1, 0, 0, 0] ++
    [1, 0, 0, 0] ++ [6, 0, 0, 0] ++ List.replicate 4 0 ++
    [1, 0, 0, 0] ++ [151, 0, 0, 0] ++ [1, 1, 0x80, 0] ++ [1, 1, 0x80, 0] ++ [1, 0, 0, 0] ++
    [1, 0, 0, 0] ++ [6, 0, 0, 0] ++ List.replicate 4 0 ++
    [0x08, 0x95, 0x5A, 0xA5]
  bound := by simp

/-- The byte behind the data at 6 is free. -/
theorem relocated_behind_data : ∃ t, (loadFirmware (relocatingElf 6)).run .zero = some (true, t) ∧
    (relocatingElf 6).ExplicitApart ∧ (relocatingElf 6).RelocatedClear := by
  have accepted : ((loadFirmware (relocatingElf 6)).run .zero).map Prod.fst = some true := by
    decide +kernel
  obtain ⟨⟨-, t⟩, run, rfl⟩ := Option.map_eq_some_iff.mp accepted
  refine ⟨t, run, by decide +kernel, (relocated_clear_iff _ _ t run).2.mpr ?_⟩
  have texts : (relocatingElf 6).texts = [⟨1, 148, 4, 4, 2, 2, 5⟩] := by decide +kernel
  have inits : (relocatingElf 6).inits =
      [⟨1, 150, 0x800100, 6, 1, 1, 6⟩, ⟨1, 151, 0x800101, 0x800101, 1, 1, 6⟩] := by decide +kernel
  unfold ElfFile.RoomBehind ElfFile.leadingCells ElfFile.textCells
  rw [texts, inits]
  refine ⟨Set.disjoint_left.mpr ?_, trivial⟩
  rintro a (⟨ph, text, -, below⟩ | ⟨behind, below⟩) ⟨room, -⟩
  · obtain rfl := List.mem_singleton.mp text
    exact absurd (below.trans_le (show 4 + 2 ≤ 7 by decide)) (Nat.not_lt.mpr room)
  · exact absurd (below.trans_le (show 6 + 0 ≤ 7 by decide)) (Nat.not_lt.mpr room)

/-- Behind the data at 3 stands the text, and the relocated byte is written over it. -/
theorem relocated_over_text : ∃ t, (loadFirmware (relocatingElf 3)).run .zero = some (true, t) ∧
    (relocatingElf 3).ExplicitApart ∧ ¬ (relocatingElf 3).RelocatedClear ∧
    (relocatingElf 3).texts.map (fun ph => ph.pVaddr.toNat) = [4] ∧
    (relocatingElf 3).texts.map (relocatingElf 3).content = [[0x08, 0x95]] ∧
    t.flash.peek 4 = 0xA5 := by
  have accepted : ((loadFirmware (relocatingElf 3)).run .zero).map
      (fun r => (r.1, r.2.flash.peek 4)) = some (true, 0xA5) := by decide +kernel
  obtain ⟨⟨result, t⟩, run, shown⟩ := Option.map_eq_some_iff.mp accepted
  obtain ⟨rfl, byte⟩ := Prod.mk.inj shown
  refine ⟨t, run, by decide +kernel, fun clear => ?_, by decide +kernel, by decide +kernel, byte⟩
  have placed : (relocatingElf 3).destinations =
      [(3, ⟨1, 150, 0x800100, 3, 1, 1, 6⟩)] ++
        (4, ⟨1, 151, 0x800101, 0x800101, 1, 1, 6⟩) :: [] := by decide +kernel
  have text : ⟨1, 148, 4, 4, 2, 2, 5⟩ ∈ (relocatingElf 3).texts := by decide +kernel
  have apart := clear _ _ _ placed (by decide) _
    (List.mem_append_left _ (List.mem_map_of_mem text))
  revert apart
  decide +kernel

end AvrEmulator
