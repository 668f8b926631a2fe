import AvrEmulator.Loader

/-! What a firmware file is and where its bytes go, and that the loader accepts
exactly such files and places exactly these bytes. -/

namespace AvrEmulator

open Checked

namespace Elf32Phdr

def isText (ph : Elf32Phdr) : Bool := decide (ph.pType = ptLoad) && !ph.writable

def isData (ph : Elf32Phdr) : Bool := decide (ph.pType = ptLoad) && ph.writable

/-- The offset in `sram[]` of a data-space address. -/
def sramBase (ph : Elf32Phdr) : Nat := ph.pVaddr.toNat - 0x800000

end Elf32Phdr

namespace ElfFile

def header (file : ElfFile) : Elf32Ehdr := .ofBytes (file.slice 0 sizeofEhdr)

def phdrs (file : ElfFile) : List Elf32Phdr :=
  (List.range file.header.ePhnum.toNat).map fun i =>
    .ofBytes (file.slice (file.header.ePhoff.toNat + i * sizeofPhdr) sizeofPhdr)

def texts (file : ElfFile) : List Elf32Phdr := file.phdrs.filter Elf32Phdr.isText

def datas (file : ElfFile) : List Elf32Phdr := file.phdrs.filter Elf32Phdr.isData

def content (file : ElfFile) (ph : Elf32Phdr) : List Byte :=
  file.slice ph.pOffset.toNat ph.pFilesz.toNat

end ElfFile

/-- The end of the text in flash. -/
def textEnd (start : Nat) (texts : List Elf32Phdr) : Nat :=
  texts.foldl (fun next ph => max next (ph.pVaddr.toNat + ph.pFilesz.toNat)) start

/-- Where in flash the initial values of a writable segment go: to a physical address
below data space, or else to the running address. -/
def destination (next : Nat) (ph : Elf32Phdr) : Nat :=
  if ph.pPaddr < 0x800000 then ph.pPaddr.toNat else next

/-- The initial values placed for one segment, none for a pure `.bss`. -/
def placed (next : Nat) (ph : Elf32Phdr) : List (Nat × Elf32Phdr) :=
  if ph.pFilesz = 0 then [] else [(destination next ph, ph)]

/-- The running address behind the segment. -/
def placedEnd (next : Nat) (ph : Elf32Phdr) : Nat :=
  if ph.pFilesz = 0 then next else destination next ph + ph.pFilesz.toNat

def destinations (next : Nat) : List Elf32Phdr → List (Nat × Elf32Phdr)
  | [] => []
  | ph :: rest => placed next ph ++ destinations (placedEnd next ph) rest

namespace ElfFile

def destinations (file : ElfFile) : List (Nat × Elf32Phdr) :=
  AvrEmulator.destinations (textEnd 0 file.texts) file.datas

def textBlock (file : ElfFile) (ph : Elf32Phdr) : Block Byte := ⟨ph.pVaddr.toNat, file.content ph⟩

def initBlock (file : ElfFile) (init : Nat × Elf32Phdr) : Block Byte :=
  ⟨init.1, file.content init.2⟩

/-- The file bytes of the segment, then zeros. -/
def sramBlock (file : ElfFile) (ph : Elf32Phdr) : Block Byte :=
  ⟨ph.sramBase, file.content ph ++ List.replicate (ph.pMemsz.toNat - ph.pFilesz.toNat) 0⟩

def flashBlocks (file : ElfFile) : List (Block Byte) :=
  file.texts.map file.textBlock ++ file.destinations.map file.initBlock

def sramBlocks (file : ElfFile) : List (Block Byte) := file.datas.map file.sramBlock

/-- The state after loading. -/
def loaded (file : ElfFile) (s : AvrState) : AvrState :=
  { s with
    flash := file.flashBlocks.foldl Cells.lay s.flash
    sram := file.sramBlocks.foldl Cells.lay s.sram
    pc := file.header.eEntry.setWidth 16 }

/-- A loadable segment has its bytes inside the file. -/
def Holds (file : ElfFile) (ph : Elf32Phdr) : Prop :=
  ph.pType = ptLoad → ph.pFilesz ≤ ph.pMemsz ∧
    ph.pOffset.toNat + ph.pFilesz.toNat ≤ file.bytes.length

end ElfFile

structure TextFits (ph : Elf32Phdr) : Prop where
  space : ph.pVaddr < 0x800000
  flash : ph.pVaddr.toNat + ph.pFilesz.toNat ≤ avrFlashSize

structure DataFits (ph : Elf32Phdr) : Prop where
  space : 0x800000 ≤ ph.pVaddr ∧ ph.pVaddr ≤ 0x80FFFF
  sram : ph.sramBase + ph.pMemsz.toNat ≤ avrSramSize

def InitFits (init : Nat × Elf32Phdr) : Prop :=
  init.1 + init.2.pFilesz.toNat ≤ avrFlashSize

/-- The program header table is there and inside the file. -/
structure TableFits (file : ElfFile) : Prop where
  some : file.header.ePhoff ≠ 0 ∧ file.header.ePhnum ≠ 0
  entry : file.header.ePhentsize = BitVec.ofNat 16 sizeofPhdr
  inside : file.header.ePhoff.toNat + file.header.ePhnum.toNat * sizeofPhdr ≤ file.bytes.length

/-- The segments are in the file and fit flash and SRAM, and the entry point is in flash. -/
structure SegmentsFit (file : ElfFile) : Prop where
  segments : ∀ ph ∈ file.phdrs, file.Holds ph
  texts : ∀ ph ∈ file.texts, TextFits ph
  someText : file.texts ≠ []
  datas : ∀ ph ∈ file.datas, DataFits ph
  inits : ∀ init ∈ file.destinations, InitFits init
  entry : file.header.eEntry.toNat < avrFlashSize

/-- An AVR executable that fits the emulator. -/
structure Firmware (file : ElfFile) : Prop extends SegmentsFit file where
  size : sizeofEhdr ≤ file.bytes.length
  supported : file.header.Supported
  table : TableFits file

theorem rangeFits_iff (offset size limit : BitVec 64) :
    rangeFits offset size limit = true ↔ offset.toNat + size.toNat ≤ limit.toNat := by
  simp only [rangeFits, Bool.and_eq_true, decide_eq_true_eq]
  bv_omega

theorem rangeFits_words (offset size : Elf32Word) (limit : BitVec 64) :
    rangeFits (offset.setWidth 64) (size.setWidth 64) limit = true ↔
      offset.toNat + size.toNat ≤ limit.toNat := by
  rw [rangeFits_iff, BitVec.toNat_setWidth_of_le (by decide),
    BitVec.toNat_setWidth_of_le (by decide)]

theorem ElfFile.size_toNat (file : ElfFile) : file.size.toNat = file.bytes.length :=
  Nat.mod_eq_of_lt (file.bound.trans (by decide))

theorem ElfFile.length_slice (file : ElfFile) {offset size : Nat}
    (inside : offset + size ≤ file.bytes.length) : (file.slice offset size).length = size := by
  rw [slice, List.length_take, List.length_drop]
  omega

theorem ElfFile.read_decides (file : ElfFile) {offset size : Nat} {failure : LoadError}
    {s : AvrState} (inside : offset + size ≤ file.bytes.length) :
    Decides (file.read offset size failure) s True
      (fun data t => data = file.slice offset size ∧ t = s) := by
  rw [read, if_pos inside]
  exact .pure trivial ⟨rfl, rfl⟩

theorem run_copyFlash {s : AvrState} {dest : Nat} {data : List Byte}
    (fits : dest + data.length ≤ avrFlashSize) :
    (copyFlash dest data).run s = some ((), { s with flash := s.flash.lay ⟨dest, data⟩ }) := by
  simp [copyFlash, Cells.copy?_eq s.flash (b := ⟨dest, data⟩) fits]

theorem run_copySram {s : AvrState} {dest : Nat} {data : List Byte}
    (fits : dest + data.length ≤ avrSramSize) :
    (copySram dest data).run s = some ((), { s with sram := s.sram.lay ⟨dest, data⟩ }) := by
  simp [copySram, Cells.copy?_eq s.sram (b := ⟨dest, data⟩) fits]

theorem tableFits_iff (file : ElfFile) :
    TableFits file ↔ ¬ (file.header.ePhoff = 0 ∨ file.header.ePhnum = 0) ∧
      ¬ (file.header.ePhentsize ≠ BitVec.ofNat 16 sizeofPhdr ∨
        ¬ rangeFits (file.header.ePhoff.setWidth 64)
          (file.header.ePhnum.setWidth 64 * BitVec.ofNat 64 sizeofPhdr) file.size) := by
  have table : (file.header.ePhnum.setWidth 64 * BitVec.ofNat 64 sizeofPhdr).toNat =
      file.header.ePhnum.toNat * sizeofPhdr := by
    have small := file.header.ePhnum.isLt
    rw [BitVec.toNat_mul, BitVec.toNat_setWidth_of_le (by decide)]
    exact Nat.mod_eq_of_lt (by unfold sizeofPhdr; simp; omega)
  have inside : rangeFits (file.header.ePhoff.setWidth 64)
      (file.header.ePhnum.setWidth 64 * BitVec.ofNat 64 sizeofPhdr) file.size = true ↔
      file.header.ePhoff.toNat + file.header.ePhnum.toNat * sizeofPhdr ≤ file.bytes.length := by
    rw [rangeFits_iff, table, BitVec.toNat_setWidth_of_le (by decide), file.size_toNat]
  rw [inside]
  constructor
  · rintro ⟨some, entry, inside⟩
    exact ⟨not_or.mpr some, fun h => h.elim (fun ne => ne entry) fun out => out inside⟩
  · rintro ⟨some, rest⟩
    obtain ⟨entry, inside⟩ := not_or.mp rest
    exact ⟨not_or.mp some, not_not.mp entry, not_not.mp inside⟩

theorem readHeader_decides (file : ElfFile) (s : AvrState) :
    Decides (readHeader file) s
      (sizeofEhdr ≤ file.bytes.length ∧ file.header.Supported ∧ TableFits file)
      (fun header t => header = file.header ∧ t = s) := by
  refine ((Decides.refuseIf s).bind (R := file.header.Supported ∧ TableFits file) ?_).congr
    (and_congr_left' Nat.not_lt)
  rintro size - t rfl
  apply (file.read_decides (by omega)).after
  rintro data t ⟨rfl, rfl⟩
  refine ((Decides.refuseIf t).bind (R := TableFits file) ?_).congr (and_congr_left' not_not)
  rintro - - t rfl
  rw [tableFits_iff]
  apply (Decides.refuseIf t).bind
  rintro - - t rfl
  refine ((Decides.refuseIf t).bind (R := True) ?_).congr (and_iff_left trivial)
  rintro - - t rfl
  exact .pure trivial ⟨rfl, rfl⟩

theorem readPhdrs_decides {file : ElfFile} (table : TableFits file) (s : AvrState) :
    Decides (readPhdrs file file.header) s True (fun phdrs t => phdrs = file.phdrs ∧ t = s) := by
  apply Decides.mapM
  intro i member
  have inside := table.inside
  have below : i < file.header.ePhnum.toNat := List.mem_range.mp member
  refine (file.read_decides ?_).after ?_
  · unfold sizeofPhdr at inside ⊢
    omega
  · rintro data t ⟨rfl, rfl⟩
    exact .pure trivial ⟨rfl, rfl⟩

theorem checkSegment_decides (file : ElfFile) (ph : Elf32Phdr) (s : AvrState) :
    Decides (checkSegment file ph) s (file.Holds ph) (fun _ t => t = s) := by
  unfold checkSegment ElfFile.Holds
  by_cases load : ph.pType = ptLoad
  · rw [if_neg (not_not_intro load)]
    apply (Decides.refuseIf s).congr
    rw [rangeFits_words, file.size_toNat, not_or, not_not, BitVec.not_lt]
    exact (imp_iff_right load).symm
  · rw [if_pos load]
    exact .pure (fun h => absurd h load) rfl

/-! ## Pass 1 -/

theorem ElfFile.length_content (file : ElfFile) {ph : Elf32Phdr} (load : ph.pType = ptLoad)
    (holds : file.Holds ph) : (file.content ph).length = ph.pFilesz.toNat :=
  file.length_slice (holds load).2

theorem toNat_later {w : Nat} (a b : BitVec w) :
    (if a < b then b else a).toNat = max a.toNat b.toNat := by
  split
  next later => exact (Nat.max_eq_right (Nat.le_of_lt later)).symm
  next earlier => exact (Nat.max_eq_left (Nat.le_of_not_lt earlier)).symm

theorem ElfFile.content_decides (file : ElfFile) {ph : Elf32Phdr} (load : ph.pType = ptLoad)
    (holds : file.Holds ph) {failure : LoadError} {s : AvrState} :
    Decides (file.read ph.pOffset.toNat ph.pFilesz.toNat failure) s True
      (fun data t => data = file.content ph ∧ t = s) :=
  file.read_decides (holds load).2

theorem loadText_skip (file : ElfFile) (pass : TextPass) {ph : Elf32Phdr}
    (skip : ph.isText = false) : loadText file pass ph = pure pass := by
  unfold loadText
  by_cases load : ph.pType = ptLoad
  · have writable : ph.writable = true := by simpa [Elf32Phdr.isText, load] using skip
    rw [if_neg (not_not_intro load), if_pos writable]
  · rw [if_pos load]

/-- What `loadText` does with a non-writable segment. -/
structure TextLoaded (file : ElfFile) (ph : Elf32Phdr) (pass : TextPass) (s : AvrState)
    (pass' : TextPass) (t : AvrState) : Prop where
  next : pass'.nextFlashAddr.toNat =
    max pass.nextFlashAddr.toNat (ph.pVaddr.toNat + ph.pFilesz.toNat)
  some : pass'.hasText = true
  state : t = { s with flash := s.flash.lay (file.textBlock ph) }

theorem textFits_iff (ph : Elf32Phdr) : TextFits ph ↔ ¬ 0x800000 ≤ ph.pVaddr ∧
    ¬ ¬ rangeFits (ph.pVaddr.setWidth 64) (ph.pFilesz.setWidth 64) flashLimit := by
  rw [not_not, rangeFits_words, BitVec.not_le]
  exact ⟨fun h => ⟨h.space, h.flash⟩, fun h => ⟨h.1, h.2⟩⟩

theorem loadText_decides {file : ElfFile} {ph : Elf32Phdr} (text : ph.isText = true)
    (holds : file.Holds ph) (pass : TextPass) (s : AvrState) :
    Decides (loadText file pass ph) s (TextFits ph) (TextLoaded file ph pass s) := by
  obtain ⟨load, plain⟩ : ph.pType = ptLoad ∧ ph.writable = false := by
    simpa [Elf32Phdr.isText] using text
  have length := file.length_content load holds
  unfold loadText
  rw [if_neg (not_not_intro load), if_neg (by simp [plain]), textFits_iff]
  apply (Decides.refuseIf s).bind
  rintro - - t rfl
  refine ((Decides.refuseIf t).bind (R := True) ?_).congr (and_iff_left trivial)
  rintro fits - s rfl
  rw [not_not, rangeFits_words] at fits
  change ph.pVaddr.toNat + ph.pFilesz.toNat ≤ 32768 at fits
  apply (file.content_decides load holds).after
  rintro data t ⟨rfl, rfl⟩
  have inside : ph.pVaddr.toNat + (file.content ph).length ≤ avrFlashSize := by rwa [length]
  apply (Decides.lift (run_copyFlash inside)).after
  rintro - t' ⟨-, rfl⟩
  refine .pure trivial ⟨?_, rfl, rfl⟩
  have segmentEnd : ((ph.pVaddr.setWidth 64 + BitVec.ofNat 64 (file.content ph).length).setWidth
      32).toNat = ph.pVaddr.toNat + ph.pFilesz.toNat := by
    rw [length]
    bv_omega
  rw [← segmentEnd]
  exact toNat_later _ _

/-- All non-writable segments, loaded in table order. -/
theorem loadTexts_decide (file : ElfFile) {l : List Elf32Phdr} (holds : ∀ ph ∈ l, file.Holds ph)
    (pass : TextPass) (s : AvrState) :
    Decides (l.foldlM (loadText file) pass) s
      (∀ ph ∈ l.filter Elf32Phdr.isText, TextFits ph) (fun pass' t =>
        pass'.nextFlashAddr.toNat =
          textEnd pass.nextFlashAddr.toNat (l.filter Elf32Phdr.isText) ∧
        (pass'.hasText = true ↔ pass.hasText = true ∨ l.filter Elf32Phdr.isText ≠ []) ∧
        t = { s with flash :=
          ((l.filter Elf32Phdr.isText).map file.textBlock).foldl Cells.lay s.flash }) := by
  induction l generalizing pass s with
  | nil => exact .pure (by simp) ⟨rfl, by simp, rfl⟩
  | cons ph l ih =>
    obtain ⟨first, rest⟩ := List.forall_mem_cons.mp holds
    rw [List.foldlM_cons]
    cases text : ph.isText with
    | false =>
      rw [loadText_skip file pass text, List.filter_cons_of_neg (by simp [text])]
      exact ih rest pass s
    | true =>
      rw [List.filter_cons_of_pos text]
      refine ((loadText_decides text first pass s).bind ?_).congr List.forall_mem_cons.symm
      rintro - pass' t ⟨next, some, rfl⟩
      apply (ih rest pass' _).weaken
      rintro - pass'' t ⟨next', some', rfl⟩
      refine ⟨?_, ?_, rfl⟩
      · rw [next', next]
        rfl
      · simp [some', some]

/-! ## Pass 2 -/

theorem loadData_skip (file : ElfFile) (next : Elf32Word) {ph : Elf32Phdr}
    (skip : ph.isData = false) : loadData file next ph = pure next := by
  unfold loadData
  by_cases load : ph.pType = ptLoad
  · have plain : ¬ ph.writable = true := by simpa [Elf32Phdr.isData, load] using skip
    rw [if_neg (not_not_intro load), if_pos plain]
  · rw [if_pos load]

theorem toNat_sramAddr {ph : Elf32Phdr} (space : 0x800000 ≤ ph.pVaddr ∧ ph.pVaddr ≤ 0x80FFFF) :
    ph.sramAddr.toNat = ph.sramBase := by
  unfold Elf32Phdr.sramAddr Elf32Phdr.sramBase
  bv_omega

theorem dataFits_iff (ph : Elf32Phdr) :
    DataFits ph ↔ ¬ (ph.pVaddr < 0x800000 ∨ 0x80FFFF < ph.pVaddr) ∧
      ¬ ¬ rangeFits (ph.sramAddr.setWidth 64) (ph.pMemsz.setWidth 64) sramLimit := by
  rw [not_or, BitVec.not_lt, BitVec.not_lt, not_not, rangeFits_iff,
    BitVec.toNat_setWidth_of_le (by decide), BitVec.toNat_setWidth_of_le (by decide)]
  constructor
  · rintro ⟨space, sram⟩
    exact ⟨space, by rw [toNat_sramAddr space]; exact sram⟩
  · rintro ⟨space, sram⟩
    rw [toNat_sramAddr space] at sram
    exact ⟨space, sram⟩

/-- What `loadInit` does once the segment fits in SRAM. -/
structure InitLoaded (file : ElfFile) (ph : Elf32Phdr) (next : Nat) (s : AvrState)
    (next' : Elf32Word) (t : AvrState) : Prop where
  running : next'.toNat = placedEnd next ph
  state : t = { s with
    flash := ((placed next ph).map file.initBlock).foldl Cells.lay s.flash
    sram := s.sram.lay ⟨ph.sramBase, file.content ph⟩ }

theorem toNat_flashDest (next : Elf32Word) (ph : Elf32Phdr) :
    (if 0x800000 ≤ ph.pPaddr then next else ph.pPaddr).toNat = destination next.toNat ph := by
  unfold destination
  by_cases low : ph.pPaddr < 0x800000
  · rw [if_pos low, if_neg (BitVec.not_le.mpr low)]
  · rw [if_neg low, if_pos (BitVec.not_lt.mp low)]

theorem loadInit_empty {file : ElfFile} {ph : Elf32Phdr} (load : ph.pType = ptLoad)
    (holds : file.Holds ph) (empty : ph.pFilesz = 0) (next : Elf32Word) (s : AvrState) :
    Decides (loadInit file next ph) s True (InitLoaded file ph next.toNat s) := by
  have none : placed next.toNat ph = [] := if_pos empty
  have content : file.content ph = [] := by
    rw [← List.length_eq_zero_iff, file.length_content load holds, empty]
    rfl
  unfold loadInit
  rw [if_neg (by rw [empty]; exact BitVec.lt_irrefl _)]
  refine .pure trivial ⟨(if_pos empty).symm, ?_⟩
  rw [none, content, Cells.lay_nil]
  rfl

theorem loadInit_filled {file : ElfFile} {ph : Elf32Phdr} (load : ph.pType = ptLoad)
    (holds : file.Holds ph) (fits : DataFits ph) (filled : ph.pFilesz ≠ 0) (next : Elf32Word)
    (s : AvrState) :
    Decides (loadInit file next ph) s (InitFits (destination next.toNat ph, ph))
      (InitLoaded file ph next.toNat s) := by
  have length := file.length_content load holds
  have some : placed next.toNat ph = [(destination next.toNat ph, ph)] := if_neg filled
  have positive : 0 < ph.pFilesz := by bv_omega
  have dest := toNat_flashDest next ph
  unfold loadInit
  rw [if_pos positive]
  dsimp only
  generalize (if 0x800000 ≤ ph.pPaddr then next else ph.pPaddr) = flashDest at dest ⊢
  refine ((Decides.refuseIf s).bind (R := True) ?_).congr ?_
  · rintro room - t rfl
    rw [not_not, rangeFits_words] at room
    change flashDest.toNat + ph.pFilesz.toNat ≤ 32768 at room
    apply (file.content_decides load holds).after
    rintro data t ⟨rfl, rfl⟩
    apply (Decides.lift (run_copyFlash (by rwa [length]))).after
    rintro - t' ⟨-, rfl⟩
    refine (Decides.lift (run_copySram ?_)).after ?_
    · rw [length, toNat_sramAddr fits.space]
      exact (Nat.add_le_add_left (holds load).1 _).trans fits.sram
    · rintro - t' ⟨-, rfl⟩
      refine .pure trivial ⟨?_, ?_⟩
      · rw [length, placedEnd, if_neg filled, ← dest]
        bv_omega
      · rw [some, ← dest, toNat_sramAddr fits.space]
        rfl
  · rw [and_iff_left trivial, not_not, rangeFits_words, ← dest]
    rfl

theorem loadInit_decides {file : ElfFile} {ph : Elf32Phdr} (load : ph.pType = ptLoad)
    (holds : file.Holds ph) (fits : DataFits ph) (next : Elf32Word) (s : AvrState) :
    Decides (loadInit file next ph) s (∀ init ∈ placed next.toNat ph, InitFits init)
      (InitLoaded file ph next.toNat s) := by
  unfold placed
  by_cases empty : ph.pFilesz = 0
  · rw [if_pos empty]
    exact (loadInit_empty load holds empty next s).congr (by simp)
  · rw [if_neg empty, List.forall_mem_singleton]
    exact loadInit_filled load holds fits empty next s

theorem run_zeroBss {ph : Elf32Phdr} (sizes : ph.pFilesz ≤ ph.pMemsz) (fits : DataFits ph)
    (s : AvrState) : (zeroBss ph).run s = some ((), { s with
      sram := s.sram.lay ⟨ph.sramBase + ph.pFilesz.toNat,
        List.replicate (ph.pMemsz.toNat - ph.pFilesz.toNat) 0⟩ }) := by
  have sram : ph.sramBase + ph.pMemsz.toNat ≤ 2304 := fits.sram
  have base := toNat_sramAddr fits.space
  unfold zeroBss
  by_cases bss : ph.pFilesz < ph.pMemsz
  · have start : (ph.sramAddr.setWidth 32 + ph.pFilesz).toNat =
        ph.sramBase + ph.pFilesz.toNat := by
      rw [← base] at sram ⊢
      bv_omega
    have size : (ph.pMemsz - ph.pFilesz).toNat = ph.pMemsz.toNat - ph.pFilesz.toNat :=
      BitVec.toNat_sub_of_le (BitVec.le_of_lt bss)
    rw [if_pos bss]
    dsimp only
    rw [start, size]
    apply run_copySram
    rw [List.length_replicate, avrSramSize]
    bv_omega
  · have same : ph.pMemsz.toNat - ph.pFilesz.toNat = 0 := by bv_omega
    rw [if_neg bss, same, List.replicate_zero, Cells.lay_nil]
    rfl

/-- What `loadData` does with a writable segment. -/
structure DataLoaded (file : ElfFile) (ph : Elf32Phdr) (next : Nat) (s : AvrState)
    (next' : Elf32Word) (t : AvrState) : Prop where
  running : next'.toNat = placedEnd next ph
  state : t = { s with
    flash := ((placed next ph).map file.initBlock).foldl Cells.lay s.flash
    sram := s.sram.lay (file.sramBlock ph) }

theorem loadData_decides {file : ElfFile} {ph : Elf32Phdr} (data : ph.isData = true)
    (holds : file.Holds ph) (next : Elf32Word) (s : AvrState) :
    Decides (loadData file next ph) s
      (DataFits ph ∧ ∀ init ∈ placed next.toNat ph, InitFits init)
      (DataLoaded file ph next.toNat s) := by
  obtain ⟨load, writable⟩ : ph.pType = ptLoad ∧ ph.writable = true := by
    simpa [Elf32Phdr.isData] using data
  have length := file.length_content load holds
  unfold loadData
  rw [if_neg (not_not_intro load), if_neg (not_not_intro writable), dataFits_iff, and_assoc]
  apply (Decides.refuseIf s).bind
  rintro space - t rfl
  apply (Decides.refuseIf t).bind
  rintro sram - s rfl
  have fits := (dataFits_iff ph).mpr ⟨space, sram⟩
  refine ((loadInit_decides load holds fits next s).bind (R := True) ?_).congr
    (and_iff_left trivial)
  rintro - next' t ⟨running, rfl⟩
  apply (Decides.lift (run_zeroBss (holds load).1 fits _)).after
  rintro - t ⟨-, rfl⟩
  refine .pure trivial ⟨running, ?_⟩
  dsimp only
  rw [ElfFile.sramBlock, ← Cells.lay_lay, length]

/-- All writable segments, loaded in table order. -/
theorem loadDatas_decide (file : ElfFile) {l : List Elf32Phdr} (holds : ∀ ph ∈ l, file.Holds ph)
    (next : Elf32Word) (s : AvrState) :
    Decides (l.foldlM (loadData file) next) s
      ((∀ ph ∈ l.filter Elf32Phdr.isData, DataFits ph) ∧
        ∀ init ∈ destinations next.toNat (l.filter Elf32Phdr.isData), InitFits init)
      (fun _ t => t = { s with
        flash := ((destinations next.toNat (l.filter Elf32Phdr.isData)).map
          file.initBlock).foldl Cells.lay s.flash
        sram := ((l.filter Elf32Phdr.isData).map file.sramBlock).foldl Cells.lay s.sram }) := by
  induction l generalizing next s with
  | nil => exact .pure (by simp [destinations]) rfl
  | cons ph l ih =>
    obtain ⟨first, rest⟩ := List.forall_mem_cons.mp holds
    rw [List.foldlM_cons]
    cases data : ph.isData with
    | false =>
      rw [loadData_skip file next data, List.filter_cons_of_neg (by simp [data])]
      exact ih rest next s
    | true =>
      rw [List.filter_cons_of_pos data]
      refine ((loadData_decides data first next s).bind
        (R := (∀ ph ∈ l.filter Elf32Phdr.isData, DataFits ph) ∧
          ∀ init ∈ destinations (placedEnd next.toNat ph) (l.filter Elf32Phdr.isData),
            InitFits init) ?_).congr ?_
      · rintro - next' t ⟨running, rfl⟩
        have tail := ih rest next' { s with
          flash := ((placed next.toNat ph).map file.initBlock).foldl Cells.lay s.flash
          sram := s.sram.lay (file.sramBlock ph) }
        rw [running] at tail
        apply tail.weaken
        rintro - next'' t rfl
        rw [destinations, List.map_append, List.foldl_append, List.map_cons, List.foldl_cons]
      · rw [destinations, List.forall_mem_cons, List.forall_mem_append]
        exact and_and_and_comm

/-! ## The loader -/

theorem placeSegments_decides (file : ElfFile) (s : AvrState) :
    Decides (placeSegments file file.header file.phdrs) s (SegmentsFit file)
      (fun _ t => t = file.loaded s) := by
  have order : SegmentsFit file ↔ (∀ ph ∈ file.phdrs, file.Holds ph) ∧
      (∀ ph ∈ file.texts, TextFits ph) ∧ file.texts ≠ [] ∧
      ((∀ ph ∈ file.datas, DataFits ph) ∧ ∀ init ∈ file.destinations, InitFits init) ∧
      file.header.eEntry.toNat < avrFlashSize :=
    ⟨fun h => ⟨h.segments, h.texts, h.someText, ⟨h.datas, h.inits⟩, h.entry⟩,
      fun ⟨h₁, h₂, h₃, ⟨h₄, h₅⟩, h₆⟩ => ⟨h₁, h₂, h₃, h₄, h₅, h₆⟩⟩
  rw [order]
  refine (Decides.forM (fun ph => checkSegment_decides file ph s) file.phdrs).bind ?_
  rintro holds - t rfl
  refine (loadTexts_decide file holds ⟨0, false⟩ t).bind ?_
  rintro - pass t' ⟨next, some, rfl⟩
  refine ((Decides.refuseIf _).congr ?_).bind ?_
  · rw [not_not, some]
    exact or_iff_right Bool.false_ne_true
  rintro - - t' rfl
  have datas := loadDatas_decide file holds pass.nextFlashAddr { t with
    flash := (file.texts.map file.textBlock).foldl Cells.lay t.flash }
  rw [next] at datas
  apply datas.bind
  rintro - - t' rfl
  refine (((Decides.refuseIf _).congr ?_).bind (R := True) ?_).congr (and_iff_left trivial)
  · rw [BitVec.not_le]
    rfl
  rintro - - t' rfl
  apply (Decides.modify _).weaken
  rintro - - t' rfl
  rw [ElfFile.loaded, ElfFile.flashBlocks, List.foldl_append]
  rfl

theorem loadSegments_decides (file : ElfFile) (s : AvrState) :
    Decides (loadSegments file) s (Firmware file) (fun _ t => t = file.loaded s) := by
  have order : Firmware file ↔
      (sizeofEhdr ≤ file.bytes.length ∧ file.header.Supported ∧ TableFits file) ∧
      SegmentsFit file :=
    ⟨fun h => ⟨⟨h.size, h.supported, h.table⟩, h.toSegmentsFit⟩,
      fun ⟨⟨size, supported, table⟩, fit⟩ => ⟨fit, size, supported, table⟩⟩
  rw [order]
  apply (readHeader_decides file s).bind
  rintro ⟨-, -, table⟩ header t ⟨rfl, rfl⟩
  apply (readPhdrs_decides table t).after
  rintro phdrs t ⟨rfl, rfl⟩
  exact placeSegments_decides file t

/-- The loader is defined on every file and returns true exactly for firmware. It
then has put the bytes of the segments in place, the last segment over a cell
deciding, and the entry point in `pc`, and has left the rest alone. -/
theorem elf_loading_is_exact (file : ElfFile) (s : AvrState) :
    ∃ result t, (loadFirmware file).run s = some (result, t) ∧
      (result = true ↔ Firmware file) ∧
      (result = true →
        Cells.Laid file.flashBlocks s.flash t.flash ∧
        Cells.Laid file.sramBlocks s.sram t.sram ∧
        t.pc.toNat = file.header.eEntry.toNat ∧
        t = { s with flash := t.flash, sram := t.sram, pc := t.pc }) := by
  have decided := loadSegments_decides file s
  have run_loadFirmware {r : Except LoadError Unit} {t : AvrState}
      (run : (loadSegments file).run.run s = some (r, t)) :
      (loadFirmware file).run s = some (r matches .ok (), t) := by
    apply (run_bind_of run _).trans
    cases r <;> rfl
  by_cases firmware : Firmware file
  · obtain ⟨⟨⟩, t, run, rfl⟩ := decided.accepts firmware
    refine ⟨true, _, run_loadFirmware run, iff_of_true rfl firmware, fun _ => ⟨?_, ?_, ?_, rfl⟩⟩
    · exact Cells.foldl_lay s.flash file.flashBlocks
    · exact Cells.foldl_lay s.sram file.sramBlocks
    · have entry : file.header.eEntry.toNat < 32768 := firmware.entry
      show (file.header.eEntry.setWidth 16).toNat = _
      bv_omega
  · obtain ⟨e, t, run⟩ := decided.refuses firmware
    exact ⟨false, t, run_loadFirmware run, iff_of_false Bool.false_ne_true firmware,
      fun accepted => absurd accepted Bool.false_ne_true⟩

/-- Two bytes of text at 0, and one byte of data and one of `.bss` at SRAM 0x0100. -/
def sampleElf : ElfFile where
  bytes :=
    [0x7F, 0x45, 0x4C, 0x46, 1, 1, 1] ++ List.replicate 9 0 ++
    [2, 0, 83, 0, 1, 0, 0, 0] ++ [0, 0, 0, 0] ++ [52, 0, 0, 0] ++ List.replicate 8 0 ++
    [52, 0, 32, 0, 2, 0] ++ List.replicate 6 0 ++
    [1, 0, 0, 0] ++ [116, 0, 0, 0] ++ List.replicate 8 0 ++ [2, 0, 0, 0] ++ [2, 0, 0, 0] ++
    [5, 0, 0, 0] ++ List.replicate 4 0 ++
    [1, 0, 0, 0] ++ [118, 0, 0, 0] ++ [0, 1, 0x80, 0] ++ [0, 1, 0x80, 0] ++ [1, 0, 0, 0] ++
    [2, 0, 0, 0] ++ [6, 0, 0, 0] ++ List.replicate 4 0 ++
    [0x08, 0x95, 0x5A]
  bound := by decide

def sampleText : Elf32Phdr := ⟨1, 116, 0, 0, 2, 2, 5⟩

def sampleData : Elf32Phdr := ⟨1, 118, 0x800100, 0x800100, 1, 2, 6⟩

theorem sampleElf_firmware : Firmware sampleElf := by
  have phdrs : sampleElf.phdrs = [sampleText, sampleData] := by decide
  have texts : sampleElf.texts = [sampleText] := by decide
  have datas : sampleElf.datas = [sampleData] := by decide
  have inits : sampleElf.destinations = [(2, sampleData)] := by decide
  constructor
  case size => decide
  case supported => decide
  case table => exact ⟨by decide, by decide, by decide⟩
  constructor
  case entry => decide
  case segments =>
    rw [phdrs]
    exact List.forall_mem_cons.mpr ⟨fun _ => ⟨by decide, by decide⟩,
      List.forall_mem_singleton.mpr fun _ => ⟨by decide, by decide⟩⟩
  case texts =>
    rw [texts]
    exact List.forall_mem_singleton.mpr ⟨by decide, by decide⟩
  case someText =>
    rw [texts]
    exact List.cons_ne_nil _ _
  case datas =>
    rw [datas]
    exact List.forall_mem_singleton.mpr ⟨by decide, by decide⟩
  case inits =>
    rw [inits]
    exact List.forall_mem_singleton.mpr (show 2 + 1 ≤ 32768 by decide)

/-- The initial value lands behind the text and in SRAM. -/
theorem sample_elf_is_loaded : ∃ t, (loadFirmware sampleElf).run .zero = some (true, t) ∧
    Cells.Laid sampleElf.flashBlocks AvrState.zero.flash t.flash ∧ t.pc.toNat = 0 ∧
    sampleElf.flashBlocks.map (fun b => (b.base, b.data)) = [(0, [0x08, 0x95]), (2, [0x5A])] ∧
    sampleElf.sramBlocks.map (fun b => (b.base, b.data)) = [(0x100, [0x5A, 0])] := by
  obtain ⟨result, t, run, verdict, placed⟩ := elf_loading_is_exact sampleElf .zero
  have accepted := verdict.mpr sampleElf_firmware
  obtain ⟨flash, -, pc, -⟩ := placed accepted
  rw [accepted] at run
  exact ⟨t, run, flash, pc, by decide, by decide⟩

end AvrEmulator
