import AvrEmulator.Controls
import AvrEmulator.Relocation
import AvrEmulator.StartupCode

/-! From the selected file to the firmware's own code: what the process makes of the file,
and what the startup code makes of a freshly loaded one. -/

namespace AvrEmulator

open Checked Transition Placement

theorem Firmware.loads {file : ElfFile} (firmware : Firmware file) (s : AvrState) :
    (loadFirmware file).run s = some (true, file.loaded s) := by
  obtain ⟨⟨⟩, t, run, rfl⟩ := (loadSegments_decides file s).accepts firmware
  exact run_bind_of run _

theorem loadFirmware_refuses {file : ElfFile} (refused : ¬ Firmware file) (s : AvrState) :
    ∃ t, (loadFirmware file).run s = some (false, t) := by
  obtain ⟨e, t, run⟩ := (loadSegments_decides file s).refuses refused
  exact ⟨t, run_bind_of run _⟩

/-- What the loader takes passes the check of the magic. -/
theorem Firmware.validates {file : ElfFile} (firmware : Firmware file) :
    validateFile (some file) = true := by
  have size : 52 ≤ file.bytes.length := firmware.size
  have supported := firmware.supported
  rcases file with ⟨_ | ⟨a, _ | ⟨b, _ | ⟨c, _ | ⟨d, rest⟩⟩⟩⟩, bound⟩
  case cons.cons.cons.cons =>
    obtain ⟨first, second, third, fourth, -⟩ := supported
    have first : a = 0x7F := first
    have second : b = 0x45 := second
    have third : c = 0x4C := third
    have fourth : d = 0x46 := fourth
    subst first second third fourth
    rfl
  all_goals
    simp only [List.length_nil, List.length_cons] at size
    omega

/-- A run of the process for what was selected, up to its exit. -/
inductive Exits (selected : Option (Option ElfFile)) :
    List (TuiInput × TuiEvent) → Nat → Prop
  | refused {code : Nat} (stops : main selected = some (.inl code)) : Exits selected [] code
  | session {t t' : Tui} {trace : List (TuiInput × TuiEvent)} {code : Nat}
      (starts : main selected = some (.inr t)) (run : Run Tui.step anything t trace t')
      (exited : t'.stage = .exited code) : Exits selected trace code

/-- What becomes of a selection. -/
inductive Decided : Option (Option ElfFile) → Nat ⊕ Tui → Prop
  | invalid {selected : Option (Option ElfFile)}
      (refused : ∀ file, selected = some (some file) → validateFile (some file) = false) :
      Decided selected (.inl 1)
  | unloadable {file : ElfFile} (valid : validateFile (some file) = true)
      (refused : ¬ Firmware file) : Decided (some (some file)) (.inl 2)
  | firmware {file : ElfFile} (firmware : Firmware file) :
      Decided (some (some file)) (.inr (Tui.start (file.loaded (clearState .zero))))

theorem main_decides (selected : Option (Option ElfFile)) :
    ∃ outcome, main selected = some outcome ∧ Decided selected outcome := by
  match selected with
  | none => exact ⟨_, rfl, .invalid nofun⟩
  | some none => exact ⟨_, rfl, .invalid nofun⟩
  | some (some file) =>
    cases valid : validateFile (some file) with
    | false =>
      refine ⟨.inl 1, ?_, .invalid ?_⟩
      · rw [main, valid]
        rfl
      · intro file' same
        cases same
        exact valid
    | true =>
      have main_eq : main (some (some file)) = runTui file := by
        rw [main, valid]
        rfl
      by_cases firmware : Firmware file
      · refine ⟨_, ?_, .firmware firmware⟩
        rw [main_eq, runTui, firmware.loads]
        rfl
      · obtain ⟨t, run⟩ := loadFirmware_refuses firmware (clearState .zero)
        refine ⟨_, ?_, .unloadable valid firmware⟩
        rw [main_eq, runTui, run]
        rfl

/-- The process can come to its exit from wherever it has got to, by its own keys, and the
code says why: 1 for a file without the magic or none at all, 2 for one that the loader
refuses, and after a session with firmware what `executeProgram` returned. The check of the
magic never turns firmware away. -/
theorem exit_code_tells_the_outcome (selected : Option (Option ElfFile)) :
    (∃ trace code, Exits selected trace code ∧ ∀ x ∈ trace, x.1 ≠ .interrupt) ∧
    (∀ t before u, main selected = some (.inr t) → Run Tui.step anything t before u →
      ∃ later code, Exits selected (before ++ later) code ∧ ∀ x ∈ later, x.1 ≠ .interrupt) ∧
    (∀ trace code, Exits selected trace code →
      (code = 1 ∧ ∀ file, selected = some (some file) → validateFile (some file) = false) ∨
      (code = 2 ∧ ∃ file, selected = some (some file) ∧
        validateFile (some file) = true ∧ ¬ Firmware file) ∨
      ∃ file ok, selected = some (some file) ∧ validateFile (some file) = true ∧
        Firmware file ∧ resultOf trace = some ok ∧ code = if ok then 0 else 3) ∧
    ∀ file, Firmware file → validateFile (some file) = true := by
  obtain ⟨outcome, same, decided⟩ := main_decides selected
  have goesOn : ∀ t before u, main selected = some (.inr t) →
      Run Tui.step anything t before u →
      ∃ later code, Exits selected (before ++ later) code ∧ ∀ x ∈ later, x.1 ≠ .interrupt := by
    intro t before u starts run
    cases same.symm.trans starts
    cases decided with
    | firmware firmware =>
      obtain ⟨later, last, code, rest, exited⟩ := Tui.run_leaves run
      have whole := run.append (rest.mono fun _ _ _ => trivial)
      exact ⟨later, code, .session same whole exited, rest.inputs fun _ _ own => own⟩
  refine ⟨?_, goesOn, ?_, fun _ firmware => firmware.validates⟩
  · cases decided with
    | invalid | unloadable => exact ⟨_, _, .refused same, by simp⟩
    | firmware firmware => exact goesOn _ [] _ same (.nil _)
  · intro trace code exits
    cases exits with
    | refused stops =>
      cases same.symm.trans stops
      cases decided with
      | invalid refused => exact .inl ⟨rfl, refused⟩
      | unloadable valid refused => exact .inr (.inl ⟨rfl, _, rfl, valid, refused⟩)
    | session starts run exited =>
      cases same.symm.trans starts
      cases decided with
      | @firmware file firmware =>
        obtain ⟨ended, value⟩ := Tui.run_exits run code exited
        have flagged := Tui.run_flagged run
        unfold Tui.Flagged at flagged
        rw [ended] at flagged
        refine .inr (.inr ⟨file, _, rfl, firmware.validates, firmware, flagged.1, ?_⟩)
        rw [value]
        cases Tui.emuError _ <;> rfl

/-! ## The startup code of a freshly loaded file -/

/-- The startup code was linked with the file: all its data are initial values of a writable
segment, read from where the loader puts them, and no initial value lies in its bss. -/
structure ElfFile.Linked (file : ElfFile) (x : Sections) : Prop where
  flashApart : file.flashBlocks.Pairwise Block.Apart
  sramApart : file.sramBlocks.Pairwise Block.Apart
  data : ∀ i, x.data.Holds i → ∃ init ∈ file.destinations, ∃ k < init.2.fileSize,
    i = init.2.sramBase + k ∧ x.load.toNat + (i - x.data.start.toNat) = init.1 + k
  bss : ∀ i, x.bss.Holds i → ∀ ph ∈ file.datas, i < ph.sramBase ∨ ph.sramBase + ph.fileSize ≤ i

namespace Firmware

variable {file : ElfFile} {x : Sections}

theorem length_data (firmware : Firmware file) {ph : Elf32Phdr} (data : ph ∈ file.datas) :
    (file.content ph).length = ph.fileSize :=
  length_loadable firmware (List.mem_append_right _ data)

theorem placed_data {init : Nat × Elf32Phdr} (placed : init ∈ file.destinations) :
    init.2 ∈ file.datas := by
  rw [ElfFile.destinations, destinations_eq_place] at placed
  exact (List.mem_filter.mp (mem_place _ _ placed)).1

/-- An initial value is in flash and in SRAM. -/
theorem initial_value (firmware : Firmware file) (linked : file.Linked x) (s : AvrState)
    {init : Nat × Elf32Phdr} (placed : init ∈ file.destinations) {k : Nat}
    (inside : k < init.2.fileSize) {i : Fin avrSramSize} {a : Fin avrFlashSize}
    (cell : i.val = init.2.sramBase + k) (source : a.val = init.1 + k) :
    (file.loaded s).sram i = (file.loaded s).flash a := by
  have data := placed_data placed
  have inside : k < (file.content init.2).length := by
    rw [firmware.length_data data]
    exact inside
  have inFlash : (file.initBlock init).at? a.val = some (file.content init.2)[k] := by
    rw [source, ElfFile.initBlock, Block.at?_add, List.getElem?_eq_getElem inside]
  have inSram : (file.sramBlock init.2).at? i.val = some (file.content init.2)[k] := by
    rw [cell, ElfFile.sramBlock, Block.at?_add, List.getElem?_append_left inside,
      List.getElem?_eq_getElem inside]
  have flash := Cells.foldl_lay_apart s.flash linked.flashApart
    (List.mem_append_right _ (List.mem_map_of_mem placed)) inFlash
  have sram := Cells.foldl_lay_apart s.sram linked.sramApart (List.mem_map_of_mem data) inSram
  exact sram.trans flash.symm

/-- A cell without an initial value that was zero stays zero. -/
theorem stays_zero (firmware : Firmware file) {s : AvrState} {i : Fin avrSramSize}
    (bare : ∀ ph ∈ file.datas, i.val < ph.sramBase ∨ ph.sramBase + ph.fileSize ≤ i.val)
    (zero : s.sram i = 0) : (file.loaded s).sram i = 0 := by
  apply Cells.foldl_lay_agree s.sram ?_ (.inl zero)
  intro b member u value
  obtain ⟨ph, data, rfl⟩ := List.mem_map.mp member
  rcases Nat.lt_or_ge i.val ph.sramBase with before | behind
  · rw [ElfFile.sramBlock, Block.at?, if_neg (Nat.not_le.mpr before)] at value
    cases value
  · obtain ⟨k, cell⟩ := Nat.exists_eq_add_of_le behind
    have past : (file.content ph).length ≤ k := by
      rw [firmware.length_data data]
      have apart := bare ph data
      omega
    rw [cell, ElfFile.sramBlock, Block.at?_add, List.getElem?_append_right past] at value
    exact List.eq_of_mem_replicate (List.mem_of_getElem? value)

/-- The loader has left SRAM as the startup code is to leave it. -/
theorem loaded_image (firmware : Firmware file) (linked : file.Linked x) (i : Nat) :
    x.image (file.loaded (clearState .zero)) i =
      (file.loaded (clearState .zero)).sram.peek i := by
  have room : x.load.toNat + x.data.length ≤ 32768 := x.room
  have below (r : Region) (holds : r.Holds i) : i < 2304 :=
    Nat.lt_of_lt_of_le holds.2 (BitVec.le_def.mp r.high)
  unfold Sections.image
  split
  next => rfl
  split
  next bss =>
    have zero := firmware.stays_zero (s := clearState .zero) (i := ⟨i, below x.bss bss⟩)
      (linked.bss i bss) rfl
    rw [Cells.peek, dif_pos (below x.bss bss)]
    exact zero.symm
  split
  next data =>
    obtain ⟨init, placed, k, inside, cell, source⟩ := linked.data i data
    have inFlash : x.load.toNat + (i - x.data.start.toNat) < 32768 := by
      have low := data.1
      have high := data.2
      unfold Region.length at room
      omega
    have same := firmware.initial_value linked (clearState .zero) placed inside
      (i := ⟨i, below x.data data⟩) (a := ⟨_, inFlash⟩) cell source
    rw [Cells.peek, dif_pos inFlash, Cells.peek, dif_pos (below x.data data)]
    exact same.symm
  next => rfl

end Firmware

/-- The loader does the work of the startup code ahead of it. Where the two were linked for
each other, the startup code of a freshly loaded file leaves every byte of SRAM as it was,
under every schedule of the host. -/
theorem startup_confirms_the_loader {file : ElfFile} {s : AvrState} (x : Sections) {p : Program}
    (accepted : (loadFirmware file).run (clearState .zero) = some (true, s))
    (linked : file.Linked x) (fresh : p.cpu = s) (code : s.CodeAt s.pc x.code) :
    p.Passes x.instructions (fun _ => True)
      (fun s' => s'.sram = s.sram ∧ x.Initialised s s') := by
  obtain ⟨firmware, rfl⟩ := loadFirmware_accepts accepted
  have masked : (file.loaded (clearState .zero)).getFlag .I = false := by
    change AvrState.zero.getFlag .I = false
    decide
  obtain ⟨u, steps, initialised⟩ := x.initialises masked code rfl
  have unchanged : u.sram = (file.loaded (clearState .zero)).sram := by
    funext i
    have same := (initialised.sram i.val).trans (firmware.loaded_image linked i.val)
    rw [Cells.peek, dif_pos i.isLt, Cells.peek, dif_pos i.isLt] at same
    exact same
  rw [← fresh] at steps
  exact Program.passes steps ⟨unchanged, initialised⟩ fun _ _ _ _ => trivial

/-- Words as they stand in flash. -/
def bytesOf (words : List Word) : List Byte :=
  words.flatMap fun (word : Word) => [word.setWidth 8, (word >>> 8).setWidth 8]

/-- The startup code of two bytes of data and one of bss, linked with their values. -/
def smallElf : ElfFile where
  bytes :=
    [0x7F, 0x45, 0x4C, 0x46, 1, 1, 1] ++ List.replicate 9 0 ++
    [2, 0, 83, 0, 1, 0, 0, 0] ++ [0, 0, 0, 0] ++ [52, 0, 0, 0] ++ List.replicate 8 0 ++
    [52, 0, 32, 0, 2, 0] ++ List.replicate 6 0 ++
    [1, 0, 0, 0] ++ [116, 0, 0, 0] ++ List.replicate 8 0 ++ [38, 0, 0, 0] ++ [38, 0, 0, 0] ++
    [5, 0, 0, 0] ++ List.replicate 4 0 ++
    [1, 0, 0, 0] ++ [154, 0, 0, 0] ++ [0, 1, 0x80, 0] ++ [38, 0, 0, 0] ++ [2, 0, 0, 0] ++
    [3, 0, 0, 0] ++ [6, 0, 0, 0] ++ List.replicate 4 0 ++
    bytesOf small.code ++ [0xEF, 0xBE]
  bound := by decide +kernel

theorem smallElf_linked : smallElf.Linked small := by
  have placed : smallElf.destinations = [(38, ⟨1, 154, 0x800100, 38, 2, 3, 6⟩)] := by
    decide +kernel
  have datas : smallElf.datas = [⟨1, 154, 0x800100, 38, 2, 3, 6⟩] := by decide +kernel
  refine ⟨by decide +kernel, by decide +kernel, ?_, ?_⟩
  · rintro i ⟨low, high⟩
    have low : 0x100 ≤ i := low
    have high : i < 0x102 := high
    rw [placed]
    refine ⟨_, List.mem_singleton_self _, i - 0x100, ?_, ?_, ?_⟩
    · change i - 0x100 < 2
      omega
    · change i = 0x100 + (i - 0x100)
      omega
    · rfl
  · rintro i ⟨low, -⟩ ph data
    have low : 0x102 ≤ i := low
    rw [datas] at data
    obtain rfl := List.mem_singleton.mp data
    exact .inr low

theorem small_data_are_confirmed : ∃ s trace u,
    (loadFirmware smallElf).run (clearState .zero) = some (true, s) ∧
    Run Program.step anything (.start (.initial s) true none) trace u ∧
    executions trace = 30 ∧ u.cpu.pc = 38 ∧ u.cpu.sram = s.sram ∧
    (List.range 4).map (fun i => s.sram.peek (0x0100 + i)) = [0xEF, 0xBE, 0, 0] := by
  have accepted : ((loadFirmware smallElf).run (clearState .zero)).map
      (fun r => (r.1, r.2.pc, (List.range 4).map fun i => r.2.sram.peek (0x0100 + i))) =
        some (true, 0, [0xEF, 0xBE, 0, 0]) := by
    decide +kernel
  obtain ⟨⟨result, s⟩, run, shown⟩ := Option.map_eq_some_iff.mp accepted
  simp only [Prod.mk.injEq] at shown
  obtain ⟨rfl, pc, bytes⟩ := shown
  have words : ∀ i : Fin small.code.length, 2 * i.val + 1 < avrFlashSize ∧
      (smallElf.loaded (clearState .zero)).flashWord (2 * i.val) = small.code.get i := by
    decide +kernel
  have code : s.CodeAt s.pc small.code := by
    intro i h
    obtain ⟨-, rfl⟩ := loadFirmware_accepts run
    rw [pc]
    simpa using words ⟨i, h⟩
  have passes := startup_confirms_the_loader small (p := .start (.initial s) true none) run
    smallElf_linked rfl code
  obtain ⟨trace, u, steps, -, total, same, done⟩ := passes.ends rfl
  refine ⟨s, trace, u, run, steps, total, ?_, same, bytes⟩
  rw [done.pc, pc]
  rfl

end AvrEmulator
