import AvrEmulator.Library.Blocks
import AvrEmulator.Library.Refusal
import AvrEmulator.Machine

/-! Loading an ELF executable (`loader.cpp`) on a little-endian host, from a file that
opens and whose reads inside the file succeed. What goes to `std::cout` is left out. -/

namespace AvrEmulator

open Checked

abbrev Elf32Half := BitVec 16
abbrev Elf32Word := BitVec 32

/-- The content of a file. Its end is a `std::streamoff`. -/
structure ElfFile where
  bytes : List Byte
  bound : bytes.length < 2 ^ 63

/-! ## ELF structures (`loader.h`), the fields the loader reads -/

structure Elf32Ehdr where
  eIdent : Fin 16 → Byte
  eMachine : Elf32Half
  eVersion : Elf32Word
  eEntry : Elf32Word
  ePhoff : Elf32Word
  eEhsize : Elf32Half
  ePhentsize : Elf32Half
  ePhnum : Elf32Half

structure Elf32Phdr where
  pType : Elf32Word
  pOffset : Elf32Word
  pVaddr : Elf32Word
  pPaddr : Elf32Word
  pFilesz : Elf32Word
  pMemsz : Elf32Word
  pFlags : Elf32Word
  deriving DecidableEq, Repr

def sizeofEhdr : Nat := 52
def sizeofPhdr : Nat := 32

def ptLoad : Elf32Word := 1
def pfW : Elf32Word := 1 <<< 1

def elfClass32 : Byte := 1
def elfData2Lsb : Byte := 1
def evCurrent : Byte := 1
def emAvr : Elf32Half := 83

def halfAt (bytes : List Byte) (offset : Nat) : Elf32Half :=
  bytes.getD (offset + 1) 0 ++ bytes.getD offset 0

def wordAt (bytes : List Byte) (offset : Nat) : Elf32Word :=
  halfAt bytes (offset + 2) ++ halfAt bytes offset

/-- The header a little-endian host sees in the bytes read over it. -/
def Elf32Ehdr.ofBytes (bytes : List Byte) : Elf32Ehdr where
  eIdent i := bytes.getD i 0
  eMachine := halfAt bytes 0x12
  eVersion := wordAt bytes 0x14
  eEntry := wordAt bytes 0x18
  ePhoff := wordAt bytes 0x1C
  eEhsize := halfAt bytes 0x28
  ePhentsize := halfAt bytes 0x2A
  ePhnum := halfAt bytes 0x2C

def Elf32Phdr.ofBytes (bytes : List Byte) : Elf32Phdr where
  pType := wordAt bytes 0
  pOffset := wordAt bytes 4
  pVaddr := wordAt bytes 8
  pPaddr := wordAt bytes 12
  pFilesz := wordAt bytes 16
  pMemsz := wordAt bytes 20
  pFlags := wordAt bytes 24

/-- The identification, machine, version and header size of an AVR ELF32 file. -/
def Elf32Ehdr.Supported (header : Elf32Ehdr) : Prop :=
  header.eIdent 0 = 0x7F ∧ header.eIdent 1 = 0x45 ∧ header.eIdent 2 = 0x4C ∧
    header.eIdent 3 = 0x46 ∧ header.eIdent 4 = elfClass32 ∧ header.eIdent 5 = elfData2Lsb ∧
    header.eIdent 6 = evCurrent ∧ header.eMachine = emAvr ∧
    header.eVersion = evCurrent.setWidth 32 ∧ header.eEhsize = BitVec.ofNat 16 sizeofEhdr

instance (header : Elf32Ehdr) : Decidable header.Supported := by
  unfold Elf32Ehdr.Supported
  infer_instance

/-- Why a file is refused: a message passed to `emuErrorFile` or to
`reportElfReadFailure`, or one written to `std::cerr` with the numbers in it. -/
inductive LoadError where
  | file (message : String)
  | read (what : String)
  | cerr (message : String) (numbers : List Nat)
  deriving DecidableEq, Repr

/-- A refusal is a `return false`. -/
abbrev Load (α : Type) := ExceptT LoadError (StateT AvrState Option) α

def rangeFits (offset size limit : BitVec 64) : Bool :=
  decide (offset ≤ limit) && decide (size ≤ limit - offset)

def ElfFile.size (file : ElfFile) : BitVec 64 := BitVec.ofNat 64 file.bytes.length

/-- The bytes at an offset, as `seekg` and `read` give them. -/
def ElfFile.slice (file : ElfFile) (offset size : Nat) : List Byte :=
  (file.bytes.drop offset).take size

def ElfFile.read (file : ElfFile) (offset size : Nat) (failure : LoadError) :
    Load (List Byte) :=
  if offset + size ≤ file.bytes.length then return file.slice offset size
  else throw failure

/-- `memcpy(state.flash + dest, data, data.size())` -/
def copyFlash (dest : Nat) (data : List Byte) : Cpu Unit := do
  let s ← get
  let flash ← s.flash.copy? ⟨dest, data⟩
  set { s with flash := flash }

/-- `memcpy(state.sram + dest, data, data.size())` -/
def copySram (dest : Nat) (data : List Byte) : Cpu Unit := do
  let s ← get
  let sram ← s.sram.copy? ⟨dest, data⟩
  set { s with sram := sram }

def readHeader (file : ElfFile) : Load Elf32Ehdr := do
  refuseIf (file.bytes.length < sizeofEhdr)
    (.file "firmware is too small to contain an ELF header")
  let bytes ← file.read 0 sizeofEhdr (.read "failed to read ELF executable header")
  let header := Elf32Ehdr.ofBytes bytes
  refuseIf (¬ header.Supported)
    (.file "not a supported 32-bit little-endian AVR ELF file")
  refuseIf (header.ePhoff = 0 ∨ header.ePhnum = 0) (.cerr "ELF has no program headers" [])
  refuseIf (header.ePhentsize ≠ BitVec.ofNat 16 sizeofPhdr ∨
      ¬ rangeFits (header.ePhoff.setWidth 64)
        (header.ePhnum.setWidth 64 * BitVec.ofNat 64 sizeofPhdr) file.size)
    (.file "invalid ELF program header table")
  return header

/-- The entries are read one after the other. -/
def readPhdrs (file : ElfFile) (header : Elf32Ehdr) : Load (List Elf32Phdr) :=
  (List.range header.ePhnum.toNat).mapM fun i => do
    let bytes ← file.read (header.ePhoff.toNat + i * sizeofPhdr) sizeofPhdr
      (.cerr "failed to read ELF program header" [i, header.ePhnum.toNat])
    return Elf32Phdr.ofBytes bytes

def checkSegment (file : ElfFile) (ph : Elf32Phdr) : Load Unit :=
  if ph.pType ≠ ptLoad then return
  else refuseIf (ph.pMemsz < ph.pFilesz ∨
      ¬ rangeFits (ph.pOffset.setWidth 64) (ph.pFilesz.setWidth 64) file.size)
    (.file "invalid loadable segment size or file range")

/-! ## Pass 1: flash segments -/

/-- `nextFlashAddr` and `hasText`. -/
structure TextPass where
  nextFlashAddr : Elf32Word
  hasText : Bool

def Elf32Phdr.writable (ph : Elf32Phdr) : Bool := ph.pFlags &&& pfW ≠ 0

def flashLimit : BitVec 64 := BitVec.ofNat 64 avrFlashSize
def sramLimit : BitVec 64 := BitVec.ofNat 64 avrSramSize

def loadText (file : ElfFile) (pass : TextPass) (ph : Elf32Phdr) : Load TextPass := do
  if ph.pType ≠ ptLoad then return pass
  if ph.writable then return pass
  refuseIf (0x800000 ≤ ph.pVaddr)
    (.cerr "non-writable segment at data-space address" [ph.pVaddr.toNat])
  refuseIf (¬ rangeFits (ph.pVaddr.setWidth 64) (ph.pFilesz.setWidth 64) flashLimit)
    (.cerr "text segment does not fit in flash" [ph.pVaddr.toNat, ph.pFilesz.toNat])
  let data ← file.read ph.pOffset.toNat ph.pFilesz.toNat
    (.cerr "failed to read segment at offset" [ph.pOffset.toNat])
  copyFlash ph.pVaddr.toNat data
  let textEnd := (ph.pVaddr.setWidth 64 + BitVec.ofNat 64 data.length).setWidth 32
  return ⟨if pass.nextFlashAddr < textEnd then textEnd else pass.nextFlashAddr, true⟩

/-! ## Pass 2: data segments -/

def Elf32Phdr.sramAddr (ph : Elf32Phdr) : Word := (ph.pVaddr - 0x800000).setWidth 16

/-- The initial values, in flash for the CRT and directly in SRAM. Returns the new
`nextFlashAddr`. -/
def loadInit (file : ElfFile) (nextFlashAddr : Elf32Word) (ph : Elf32Phdr) : Load Elf32Word :=
  if 0 < ph.pFilesz then do
    let flashDest := if 0x800000 ≤ ph.pPaddr then nextFlashAddr else ph.pPaddr
    refuseIf (¬ rangeFits (flashDest.setWidth 64) (ph.pFilesz.setWidth 64) flashLimit)
      (.cerr ".data initial values do not fit in flash" [])
    let data ← file.read ph.pOffset.toNat ph.pFilesz.toNat
      (.cerr "failed to read .data segment at offset" [ph.pOffset.toNat])
    copyFlash flashDest.toNat data
    copySram ph.sramAddr.toNat data
    return flashDest + BitVec.ofNat 32 data.length
  else return nextFlashAddr

/-- `memset` of the part of the segment beyond the file. -/
def zeroBss (ph : Elf32Phdr) : Cpu Unit :=
  if ph.pFilesz < ph.pMemsz then
    let bssStart := ph.sramAddr.setWidth 32 + ph.pFilesz
    let bssSize := ph.pMemsz - ph.pFilesz
    copySram bssStart.toNat (List.replicate bssSize.toNat 0)
  else return

def loadData (file : ElfFile) (nextFlashAddr : Elf32Word) (ph : Elf32Phdr) :
    Load Elf32Word := do
  if ph.pType ≠ ptLoad then return nextFlashAddr
  if ¬ ph.writable then return nextFlashAddr
  refuseIf (ph.pVaddr < 0x800000 ∨ 0x80FFFF < ph.pVaddr)
    (.cerr "writable segment at unexpected vaddr" [ph.pVaddr.toNat])
  refuseIf (¬ rangeFits (ph.sramAddr.setWidth 64) (ph.pMemsz.setWidth 64) sramLimit)
    (.cerr "writable segment does not fit in SRAM" [ph.sramAddr.toNat, ph.pMemsz.toNat])
  let next ← loadInit file nextFlashAddr ph
  zeroBss ph
  return next

/-- Both passes over the program headers, then the entry point. -/
def placeSegments (file : ElfFile) (header : Elf32Ehdr) (phdrs : List Elf32Phdr) : Load Unit := do
  phdrs.forM (checkSegment file)
  let text ← phdrs.foldlM (loadText file) ⟨0, false⟩
  refuseIf (¬ text.hasText) (.cerr "no loadable executable segment in ELF" [])
  let _ ← phdrs.foldlM (loadData file) text.nextFlashAddr
  refuseIf (BitVec.ofNat 32 avrFlashSize ≤ header.eEntry)
    (.cerr "ELF entry point is outside flash" [header.eEntry.toNat])
  modify fun s => { s with pc := header.eEntry.setWidth 16 }

def loadSegments (file : ElfFile) : Load Unit := do
  let header ← readHeader file
  let phdrs ← readPhdrs file header
  placeSegments file header phdrs

def loadFirmware (file : ElfFile) : Cpu Bool := do
  match ← (loadSegments file).run with
  | .ok () => return true
  | .error _ => return false

end AvrEmulator
