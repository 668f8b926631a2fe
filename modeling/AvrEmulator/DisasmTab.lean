import AvrEmulator.Views
import Mathlib.Data.List.Chain

/-! The disassembly tab lists flash around the program counter as the emulator would fetch
it. -/

namespace AvrEmulator

open Transition

namespace AvrState

/-- One line stands right behind the other. -/
def Follows (s : AvrState) (a b : DisasmLine) : Prop :=
  b.scan.toNat = a.scan.toNat + 2 * (s.lineWords a.scan).toNat

/-- A line says what a fetch at its address gives. Where the fetch fails the word is unknown,
or the second word of the instruction lies behind flash. -/
structure Reads (s : AvrState) (l : DisasmLine) : Prop where
  fetched : ∀ (m m' : Machine) (f : Fetched), m.state = { s with pc := l.scan } →
    fetch.run m = some (some f, m') →
      l.disasm = disassemble f.instruction f.extra l.scan ∧ f.op.words = s.lineWords l.scan
  failed : ∀ m m' : Machine, m.state = { s with pc := l.scan } →
    fetch.run m = some (none, m') →
      decodeInstruction (s.flashWord l.scan.toNat) = none ∧
        l.disasm = "??? " ++ hex16 (s.flashWord l.scan.toNat) ∨
      avrFlashSize ≤ l.scan.toNat + 3 ∧
        l.disasm = disassemble (s.flashWord l.scan.toNat) 0 l.scan

/-- A listing of flash around the program counter. -/
structure Listing (s : AvrState) (lines : List DisasmLine) : Prop where
  first : ∀ l ∈ lines.head?, l.scan.toNat = (s.pc.toNat - 30) / 2 * 2
  follows : lines.IsChain s.Follows
  last : ∀ l ∈ lines.getLast?, ¬ s.Scans (s.nextLine l.scan)
  inside : ∀ l ∈ lines, s.Scans l.scan ∧ l.scan.toNat % 2 = 0
  reads : ∀ l ∈ lines, s.Reads l
  mark : ∀ l ∈ lines, l.isCurrent = true ↔ l.scan = s.pc
  current : (∃ l ∈ lines, l.isCurrent = true) ↔
    s.pc.toNat % 2 = 0 ∧ s.pc.toNat + 1 < avrFlashSize ∧
      ∀ l ∈ lines, l.scan.toNat + 2 = s.pc.toNat → s.lineWords l.scan = 1

variable {s : AvrState} {scan : Word}

theorem lines_scans (scans : s.Scans scan) :
    s.lines scan = s.line scan :: s.lines (s.nextLine scan) := by
  rw [lines, if_pos scans]

theorem lines_stops (stops : ¬ s.Scans scan) : s.lines scan = [] := by
  rw [lines, if_neg stops]

theorem head_lines (s : AvrState) (scan : Word) : ∀ l ∈ (s.lines scan).head?, l = s.line scan := by
  intro l head
  by_cases scans : s.Scans scan
  · rw [lines_scans scans] at head
    cases head
    rfl
  · rw [lines_stops scans] at head
    cases head

theorem lines_follow (s : AvrState) (scan : Word) : (s.lines scan).IsChain s.Follows := by
  induction scan using lines.induct s with
  | case1 scan scans ih =>
    rw [lines_scans scans, List.isChain_cons]
    refine ⟨?_, ih⟩
    intro l head
    rw [s.head_lines _ l head]
    exact nextLine_toNat scans
  | case2 scan stops =>
    rw [lines_stops stops]
    exact .nil

theorem lines_last (s : AvrState) (scan : Word) :
    ∀ l ∈ (s.lines scan).getLast?, ¬ s.Scans (s.nextLine l.scan) := by
  induction scan using lines.induct s with
  | case1 scan scans ih =>
    intro l last
    rw [lines_scans scans] at last
    by_cases more : s.Scans (s.nextLine scan)
    · apply ih
      rw [lines_scans more] at last ⊢
      exact last
    · rw [lines_stops more] at last
      cases last
      exact more
  | case2 scan stops =>
    intro l last
    rw [lines_stops stops] at last
    cases last

theorem mem_lines {l : DisasmLine} (member : l ∈ s.lines scan) :
    l = s.line l.scan ∧ s.Scans l.scan ∧ scan.toNat ≤ l.scan.toNat ∧
      l.scan.toNat % 2 = scan.toNat % 2 := by
  induction scan using lines.induct s with
  | case1 scan scans ih =>
    rw [lines_scans scans] at member
    rcases List.mem_cons.mp member with rfl | later
    · exact ⟨rfl, scans, Nat.le_refl _, rfl⟩
    · obtain ⟨line, inside, behind, even⟩ := ih later
      rw [nextLine_toNat scans] at behind even
      exact ⟨line, inside, by omega, by omega⟩
  | case2 scan stops =>
    rw [lines_stops stops] at member
    cases member

/-- The scan meets the program counter unless a two-word instruction hides it. -/
theorem meets_pc (even : scan.toNat % 2 = 0) : (∃ l ∈ s.lines scan, l.scan = s.pc) ↔
    scan.toNat ≤ s.pc.toNat ∧ s.pc.toNat % 2 = 0 ∧ s.pc.toNat + 1 < avrFlashSize ∧
      ∀ l ∈ s.lines scan, l.scan.toNat + 2 = s.pc.toNat → s.lineWords l.scan = 1 := by
  induction scan using lines.induct s with
  | case1 scan scans ih =>
    have next := nextLine_toNat scans
    have words : (s.lineWords scan).toNat = 1 ∨ (s.lineWords scan).toNat = 2 :=
      (s.lineWords_cases scan).imp (congrArg BitVec.toNat) (congrArg BitVec.toNat)
    have rest := ih (by omega)
    by_cases here : scan = s.pc
    · subst here
      refine ⟨fun _ => ⟨Nat.le_refl _, even, scans.2, ?_⟩, fun _ => ?_⟩
      · intro l member before
        have behind := (mem_lines member).2.2.1
        omega
      · exact ⟨s.line s.pc, by rw [lines_scans scans]; exact List.mem_cons_self, rfl⟩
    · have apart : scan.toNat ≠ s.pc.toNat := fun same => here (BitVec.eq_of_toNat_eq same)
      rw [lines_scans scans]
      constructor
      · rintro ⟨l, member, current⟩
        rcases List.mem_cons.mp member with rfl | later
        · exact absurd current here
        obtain ⟨behind, evenPc, inside, alone⟩ := rest.mp ⟨l, later, current⟩
        refine ⟨by omega, evenPc, inside, ?_⟩
        intro l' member' before
        rcases List.mem_cons.mp member' with rfl | later'
        · apply (s.lineWords_cases _).resolve_right
          intro two
          have two : (s.lineWords scan).toNat = 2 := congrArg BitVec.toNat two
          have before : scan.toNat + 2 = s.pc.toNat := before
          omega
        · exact alone l' later' before
      · rintro ⟨behind, evenPc, inside, alone⟩
        have past : (s.nextLine scan).toNat ≤ s.pc.toNat := by
          by_cases before : scan.toNat + 2 = s.pc.toNat
          · have one := congrArg BitVec.toNat (alone (s.line scan) List.mem_cons_self before)
            have one : (s.lineWords scan).toNat = 1 := one
            omega
          · omega
        obtain ⟨l, later, current⟩ := rest.mpr ⟨past, evenPc, inside, fun l later =>
          alone l (List.mem_cons_of_mem _ later)⟩
        exact ⟨l, List.mem_cons_of_mem _ later, current⟩
  | case2 scan stops =>
    rw [lines_stops stops]
    constructor
    · rintro ⟨l, member, -⟩
      cases member
    · rintro ⟨behind, -, inside, -⟩
      refine absurd ⟨?_, ?_⟩ stops
      · omega
      · exact Nat.lt_of_le_of_lt (Nat.add_le_add_right behind 1) inside

theorem lineText_found {s : AvrState} {scan : Word} {row : Opcode}
    (found : decodeInstruction (s.flashWord scan.toNat) = some row) :
    s.lineText scan = disassemble (s.flashWord scan.toNat)
      (if row.words = 2 ∧ scan.toNat + 3 < avrFlashSize then s.flashWord (scan.toNat + 2) else 0)
      scan := by
  unfold lineText
  dsimp only
  rw [found]

theorem lineWords_found {s : AvrState} {scan : Word} {row : Opcode}
    (found : decodeInstruction (s.flashWord scan.toNat) = some row) :
    s.lineWords scan = row.words := by
  rw [lineWords, found]

/-- A machine that stands at the line. -/
theorem line_machine {s : AvrState} {m : Machine} {scan : Word}
    (here : m.state = { s with pc := scan }) :
    m.state.pc = scan ∧ ∀ i, m.flashWord i = s.flashWord i := by
  refine ⟨by rw [here], ?_⟩
  intro i
  rw [Machine.flashWord, here]
  rfl

theorem line_reads (s : AvrState) {scan : Word} (inside : scan.toNat + 1 < avrFlashSize) :
    s.Reads (s.line scan) := by
  cases found : decodeInstruction (s.flashWord scan.toNat) with
  | none =>
    have text : s.lineText scan = "??? " ++ hex16 (s.flashWord scan.toNat) := by
      unfold lineText
      dsimp only
      rw [found]
    refine ⟨?_, fun _ _ _ _ => .inl ⟨found, text⟩⟩
    intro m m' f here run
    obtain ⟨pc, word⟩ := line_machine here
    have next := (fetch_some run).1
    rw [Machine.nextOpcode, pc, word] at next
    change (if scan.toNat + 1 < avrFlashSize then
      decodeInstruction (s.flashWord scan.toNat) else none) = _ at next
    rw [if_pos inside, found] at next
    cases next
  | some row =>
    have text := lineText_found found
    have words := lineWords_found found
    by_cases whole : row.words = 2 → scan.toNat + 3 < avrFlashSize
    · have fetches {m : Machine} (here : m.state = { s with pc := scan }) :
          ∃ m', fetch.run m = some (some ⟨row, s.flashWord scan.toNat,
            if row.words = 2 then s.flashWord (scan.toNat + 2) else 0⟩, m') := by
        obtain ⟨pc, word⟩ := line_machine here
        have run := @run_fetch_whole m row
        rw [pc, word, word] at run
        exact run inside found whole
      have extra : (if row.words = 2 ∧ scan.toNat + 3 < avrFlashSize then
          s.flashWord (scan.toNat + 2) else 0) =
          if row.words = 2 then s.flashWord (scan.toNat + 2) else 0 :=
        if_congr (and_iff_left_of_imp whole) rfl rfl
      rw [extra] at text
      constructor
      · intro m m' f here run
        obtain ⟨m'', run'⟩ := fetches here
        rw [run'] at run
        cases run
        exact ⟨text, words.symm⟩
      · intro m m' here run
        obtain ⟨m'', run'⟩ := fetches here
        rw [run'] at run
        cases run
    · rw [Classical.not_imp, Nat.not_lt] at whole
      obtain ⟨long, cut⟩ := whole
      rw [if_neg fun both => absurd both.2 (Nat.not_lt.mpr cut)] at text
      refine ⟨?_, fun _ _ _ _ => .inr ⟨cut, text⟩⟩
      intro m m' f here run
      obtain ⟨pc, word⟩ := line_machine here
      have stops := @run_fetch_cut m row
      rw [pc, word] at stops
      obtain ⟨m'', run'⟩ := stops inside found long cut
      rw [run'] at run
      cases run

theorem toNat_even (x : Word) : (x &&& ~~~(1 : Word)).toNat = x.toNat / 2 * 2 := by
  have cleared : x &&& ~~~(1 : Word) = (x >>> 1) <<< 1 := by
    ext i hi
    simp only [BitVec.getElem_and, BitVec.getElem_not, BitVec.getElem_shiftLeft]
    cases i with
    | zero => simp
    | succ n => simp [Nat.add_comm 1 n, ← BitVec.getLsbD_eq_getElem]
  have bound := x.isLt
  rw [cleared, BitVec.toNat_shiftLeft, BitVec.toNat_ushiftRight]
  simp only [Nat.shiftLeft_eq, Nat.shiftRight_eq_div_pow]
  omega

theorem start_scan (pc : Word) :
    ((if 30 < pc then pc - 30 else 0) &&& ~~~(1 : Word)).toNat = (pc.toNat - 30) / 2 * 2 := by
  rw [toNat_even]
  split
  next above =>
    have above : 30 < pc.toNat := above
    have le : (30 : Word) ≤ pc := Nat.le_of_lt above
    rw [BitVec.toNat_sub_of_le le]
    rfl
  next below =>
    have below : ¬ 30 < pc.toNat := below
    change 0 / 2 * 2 = _
    omega

theorem listing (s : AvrState) : s.Listing s.disasmLines := by
  have start := start_scan s.pc
  unfold disasmLines
  dsimp only
  generalize (if 30 < s.pc then s.pc - 30 else 0) &&& ~~~(1 : Word) = scan at start ⊢
  have even : scan.toNat % 2 = 0 := by omega
  refine ⟨?_, s.lines_follow scan, s.lines_last scan, ?_, ?_, ?_, ?_⟩
  · intro l head
    rw [s.head_lines scan l head]
    exact start
  · intro l member
    obtain ⟨-, inside, -, same⟩ := mem_lines member
    exact ⟨inside, same.trans even⟩
  · intro l member
    obtain ⟨line, inside, -⟩ := mem_lines member
    rw [line]
    exact s.line_reads inside.2
  · intro l member
    rw [(mem_lines member).1]
    exact decide_eq_true_iff
  · have marked : (∃ l ∈ s.lines scan, l.isCurrent = true) ↔
        ∃ l ∈ s.lines scan, l.scan = s.pc := by
      constructor
      · rintro ⟨l, member, current⟩
        rw [(mem_lines member).1] at current
        exact ⟨l, member, of_decide_eq_true current⟩
      · rintro ⟨l, member, current⟩
        refine ⟨l, member, ?_⟩
        rw [(mem_lines member).1]
        exact decide_eq_true current
    rw [marked, meets_pc even]
    exact and_iff_right (by omega)

end AvrState

/-- What the disassembly tab shows was put there by one redraw of it, from one state that the
CPU had been in less than 160000 cycles before. The lines stand one behind the other from
thirty bytes before the program counter, each with the text of what the emulator fetches
there, and the current one is marked unless the program counter is odd, outside flash or
right behind the first word of a line that takes two. -/
theorem disassembly_tab_lists_flash {state : AvrState} {t : Tui}
    {trace : List (TuiInput × TuiEvent)}
    (run : Run Tui.step Tui.Early (Tui.start state) trace t)
    (shown : t.cachedDisasmLines ≠ []) :
    ∃ u s, Tui.Redraw (Tui.start state) trace u s ∧ 1 < u.tabIndex ∧
      s.Listing t.cachedDisasmLines := by
  rcases (Tui.run_drawn run).lines with none | ⟨u, s, redraw, tab, taken⟩
  · exact absurd none shown
  · rw [taken]
    exact ⟨u, s, redraw, tab, s.listing⟩

/-- The greeting in the disassembly tab, before it starts. -/
def listed : Tui := (greeting.handle .TabReverse []).renderDisasm true

theorem greeting_is_listed : ∃ trace, ∃ u : Tui, ∃ s, Tui.Redraw greeting trace u s ∧
    s.Listing listed.cachedDisasmLines ∧
    ∃ rest, listed.cachedDisasmLines.map DisasmLine.disasm =
      "LDI R16, 0x48" :: "STS R16, 0x00C6" :: rest := by
  have early : (greeting.handle .TabReverse []).Early (.render true) := by decide
  have run : Run Tui.step Tui.Early greeting
      [(.key .TabReverse [], .idle), (.render true, .idle)] listed :=
    .cons (by decide) rfl (.cons early rfl (.nil _))
  have lines : listed.cachedDisasmLines = greeting.displayState.lines 0 := rfl
  have first : greeting.displayState.Scans 0 := by decide
  have second : greeting.displayState.Scans 2 := by decide
  have next : greeting.displayState.nextLine 0 = 2 := by decide +kernel
  have ldi : greeting.displayState.lineText 0 = "LDI R16, 0x48" := by decide +kernel
  have sts : greeting.displayState.lineText 2 = "STS R16, 0x00C6" := by decide +kernel
  rw [AvrState.lines_scans first, next, AvrState.lines_scans second] at lines
  obtain ⟨u, s, redraw, -, listing⟩ := disassembly_tab_lists_flash run (by rw [lines]; nofun)
  refine ⟨_, u, s, redraw, listing,
    (greeting.displayState.lines (greeting.displayState.nextLine 2)).map DisasmLine.disasm, ?_⟩
  rw [lines, ← ldi, ← sts]
  rfl

end AvrEmulator
