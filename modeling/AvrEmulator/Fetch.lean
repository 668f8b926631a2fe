import AvrEmulator.Program

/-! What a fetch reads, and where it leaves the program counter. -/

namespace AvrEmulator

open Checked

/-- The word of flash at a byte address. -/
def AvrState.flashWord (s : AvrState) (i : Nat) : Word :=
  (s.flash.peek i).setWidth 16 ||| ((s.flash.peek (i + 1)).setWidth 16 <<< 8)

namespace Machine

/-- The instruction at the program counter, if there is one. -/
def nextOpcode (m : Machine) : Option Opcode :=
  if m.state.pc.toNat + 1 < avrFlashSize then
    decodeInstruction (m.flashWord m.state.pc.toNat)
  else none

/-- The machine once an instruction's first word is fetched. -/
def fetchedWord (m : Machine) : Machine :=
  { m with
    state := { m.state with pc := m.state.pc + 2 }
    error := (m.error.emuSetFaultPc m.state.pc).emuSetFaultInstr (m.flashWord m.state.pc.toNat) }

/-- The instruction that a complete fetch delivers. -/
def fetched (m : Machine) : Option Fetched := (fetch.run m).bind Prod.fst

/-- What a fetch leaves alone: all but the program counter and the report. -/
def unfetched (m : Machine) : Machine :=
  { m with state := { m.state with pc := 0 }, error := .initial }

end Machine

theorem Machine.nextOpcode_some {m : Machine} {row : Opcode} (found : m.nextOpcode = some row) :
    m.state.pc.toNat + 1 < avrFlashSize ∧
      decodeInstruction (m.flashWord m.state.pc.toNat) = some row := by
  unfold nextOpcode at found
  split at found
  next inside => exact ⟨inside, found⟩
  next => cases found

section Frame

open Machine (unfetched)

theorem report_unfetched (g : Machine → ErrorState) :
    Keeps unfetched (modify fun m => { m with error := g m } : Emu Unit) := .modify fun _ => rfl

theorem addPc_unfetched (offset : Word) : Keeps unfetched (onCpu (addPc offset)) := by
  rintro m u m' run
  cases run
  rfl

theorem fetchWord_unfetched (i : Nat) : Keeps unfetched (onCpu (fetchWord i)) := by
  intro m word m' run
  obtain ⟨s, read, rfl⟩ := onCpu_inv run
  have same : Keeps id (fetchWord i) :=
    (Keeps.get.bind fun _ => .lift _).bind fun _ =>
      (Keeps.get.bind fun _ => .lift _).bind fun _ => .pure _
  have unread : s = m.state := same _ _ _ read
  rw [unread]
  rfl

theorem fetchSecond_unfetched (op : Opcode) (instruction : Word) :
    Keeps unfetched (fetchSecond op instruction) := by
  apply Keeps.get.bind
  intro m
  dsimp only
  split
  · exact Keeps.bind (report_unfetched _) fun _ => .pure _
  · exact (fetchWord_unfetched _).bind fun _ => (addPc_unfetched _).bind fun _ => .pure _

/-- Fetching moves the program counter, and may report. -/
theorem fetch_unfetched : Keeps unfetched fetch := by
  apply Keeps.get.bind
  intro m
  dsimp only
  split
  · exact Keeps.bind (report_unfetched _) fun _ => .pure _
  refine Keeps.bind (report_unfetched _) fun _ => (fetchWord_unfetched _).bind fun instruction =>
    Keeps.bind (report_unfetched _) fun _ => (addPc_unfetched _).bind fun _ => ?_
  split
  · exact Keeps.bind (report_unfetched _) fun _ => .pure _
  split
  · exact fetchSecond_unfetched _ _
  · exact .pure _

end Frame

/-- Outside flash nothing is fetched: the program counter is reported. -/
theorem run_fetch_outside {m : Machine} (h : avrFlashSize ≤ m.state.pc.toNat + 1) :
    fetch.run m = some (none, { m with
      error := m.error.emuErrorPc m.state.pc "program counter out of flash bounds" }) := by
  change ((get : Emu Machine) >>= _).run m = _
  rw [run_get_bind]
  dsimp only
  rw [if_pos h]
  rfl

/-- And the turn ends there, with the CPU as it was. -/
theorem run_fetchExecute_outside {m : Machine} (h : avrFlashSize ≤ m.state.pc.toNat + 1) :
    fetchExecute.run m = some (.failed, { m with
      error := m.error.emuErrorPc m.state.pc "program counter out of flash bounds" }) := by
  rw [fetchExecute, run_bind_of (run_fetch_outside h)]
  rfl

theorem run_fetch_inside {m : Machine} (h : m.state.pc.toNat + 1 < avrFlashSize) :
    fetch.run m =
      match decodeInstruction (m.flashWord m.state.pc.toNat) with
      | none =>
        (do
          reportUnknown m.state.pc (m.flashWord m.state.pc.toNat)
          return none : Emu (Option Fetched)).run m.fetchedWord
      | some op =>
        if op.words = 2 then (fetchSecond op (m.flashWord m.state.pc.toNat)).run m.fetchedWord
        else some (some ⟨op, m.flashWord m.state.pc.toNat, 0⟩, m.fetchedWord) := by
  have pc : (setFaultPc m.state.pc).run m =
      some ((), { m with error := m.error.emuSetFaultPc m.state.pc }) := rfl
  have word := run_fetchWord (m := { m with error := m.error.emuSetFaultPc m.state.pc }) h
  change ((get : Emu Machine) >>= _).run m = _
  rw [run_get_bind]
  dsimp only
  rw [if_neg (Nat.not_le.mpr h), run_bind_of pc, run_bind_of word]
  change (match decodeInstruction (m.flashWord m.state.pc.toNat) with
    | none => _
    | some op => _ : Emu (Option Fetched)).run m.fetchedWord = _
  cases decodeInstruction (m.flashWord m.state.pc.toNat) with
  | none => rfl
  | some op =>
    dsimp only
    split <;> rfl

theorem fetchedWord_pc {m : Machine} (inside : m.state.pc.toNat + 1 < avrFlashSize) :
    m.fetchedWord.state.pc.toNat = m.state.pc.toNat + 2 := by
  have inside : m.state.pc.toNat + 1 < 32768 := inside
  change (m.state.pc + 2).toNat = _
  rw [BitVec.toNat_add]
  change (_ + 2) % 65536 = _
  omega

/-- A complete fetch is of the instruction at the program counter, and passes it. -/
theorem fetch_some {m m' : Machine} {f : Fetched} (run : fetch.run m = some (some f, m')) :
    m.nextOpcode = some f.op ∧ f.instruction = m.flashWord m.state.pc.toNat ∧
      m'.state.pc = m.state.pc + if f.op.words = 2 then 4 else 2 := by
  by_cases inside : m.state.pc.toNat + 1 < avrFlashSize
  · rw [run_fetch_inside inside] at run
    rw [Machine.nextOpcode, if_pos inside]
    cases found : decodeInstruction (m.flashWord m.state.pc.toNat) with
    | none =>
      rw [found] at run
      cases run
    | some op =>
      rw [found] at run
      dsimp only at run
      split at run
      next long =>
        change ((get : Emu Machine) >>= _).run m.fetchedWord = _ at run
        rw [run_get_bind] at run
        dsimp only at run
        split at run
        · cases run
        next room =>
          rw [run_bind_of (run_fetchWord (Nat.not_le.mp room))] at run
          cases run
          refine ⟨rfl, rfl, ?_⟩
          rw [if_pos long]
          exact BitVec.add_assoc _ _ _
      next short =>
        cases run
        refine ⟨rfl, rfl, ?_⟩
        rw [if_neg short]
        rfl
  · rw [run_fetch_outside (Nat.not_lt.mp inside)] at run
    cases run

/-- An instruction that is whole in flash is fetched with the word behind it, if it has one. -/
theorem run_fetch_whole {m : Machine} {row : Opcode}
    (inside : m.state.pc.toNat + 1 < avrFlashSize)
    (found : decodeInstruction (m.flashWord m.state.pc.toNat) = some row)
    (whole : row.words = 2 → m.state.pc.toNat + 3 < avrFlashSize) :
    ∃ m', fetch.run m = some (some ⟨row, m.flashWord m.state.pc.toNat,
      if row.words = 2 then m.flashWord (m.state.pc.toNat + 2) else 0⟩, m') := by
  rw [run_fetch_inside inside, found]
  dsimp only
  by_cases long : row.words = 2
  · have behind := fetchedWord_pc inside
    have room : m.fetchedWord.state.pc.toNat + 1 < avrFlashSize := by
      rw [behind]
      exact whole long
    have second := run_fetchWord (m := m.fetchedWord) room
    rw [if_pos long, if_pos long]
    change ∃ m', ((get : Emu Machine) >>= _).run m.fetchedWord = _
    rw [run_get_bind]
    dsimp only
    rw [if_neg (Nat.not_le.mpr room), run_bind_of second, behind]
    exact ⟨_, rfl⟩
  · rw [if_neg long, if_neg long]
    exact ⟨_, rfl⟩

/-- The second word lies behind flash. -/
theorem run_fetch_cut {m : Machine} {row : Opcode} (inside : m.state.pc.toNat + 1 < avrFlashSize)
    (found : decodeInstruction (m.flashWord m.state.pc.toNat) = some row)
    (long : row.words = 2) (cut : avrFlashSize ≤ m.state.pc.toNat + 3) :
    ∃ m', fetch.run m = some (none, m') := by
  have outside : avrFlashSize ≤ m.fetchedWord.state.pc.toNat + 1 := by
    rw [fetchedWord_pc inside]
    exact cut
  rw [run_fetch_inside inside, found]
  dsimp only
  rw [if_pos long]
  change ∃ m', ((get : Emu Machine) >>= _).run m.fetchedWord = _
  rw [run_get_bind]
  dsimp only
  rw [if_pos outside]
  exact ⟨_, rfl⟩

theorem run_execute {f : Fetched} {m m₁ : Machine}
    (done : (dispatch f.op f.instruction f.extra).run
      { m with state := { m.state with extraCycles := 0 }, fault := false } = some ((), m₁)) :
    (execute f).run m = if m₁.fault then some (.failed, m₁)
      else ((advanceTiming f.op).run m₁).map fun x => (.executed, x.2) := by
  have clear : memoryClearFault.run m = some ((), { m with fault := false }) := rfl
  have cycles : (onCpu (setExtraCycles 0)).run { m with fault := false } = some ((),
    { m with state := { m.state with extraCycles := 0 }, fault := false }) := rfl
  have executed : (executeInstruction f.op f.instruction f.extra).run
      { m with state := { m.state with extraCycles := 0 }, fault := false } = some (true, m₁) := by
    rw [executeInstruction, run_bind_of done]
    rfl
  have pending : memoryFaultPending.run m₁ = some (m₁.fault, m₁) := rfl
  rw [execute, run_bind_of clear, run_bind_of cycles, run_bind_of executed]
  simp only [Bool.not_true, Bool.false_eq_true, ↓reduceIte]
  rw [run_bind_of pending]
  cases m₁.fault <;> rfl

/-- Whatever else the machine is, an executor that cannot fault turns this view of it from
one value into another. -/
def ViewEffect {β : Type} (V : Machine → β) (x : Emu Unit) (a b : β) : Prop :=
  ∀ n : Machine, V n = a → ∃ n', x.run n = some ((), n') ∧ n'.fault = n.fault ∧ V n' = b

theorem ViewEffect.bind {β : Type} {V : Machine → β} {x y : Emu Unit} {a b c : β}
    (first : ViewEffect V x a b) (rest : ViewEffect V y b c) : ViewEffect V (do x; y) a c := by
  intro n hn
  obtain ⟨n₁, run, fault, view⟩ := first n hn
  obtain ⟨n₂, run', fault', view'⟩ := rest n₁ view
  exact ⟨n₂, by rw [run_bind_of run, run'], fault'.trans fault, view'⟩

/-- The machine that an executor starts on. -/
def Machine.begun (m : Machine) (row : Opcode) (error : ErrorState) : Machine :=
  { m with
    state := { m.state with
      pc := m.state.pc + if row.words = 2 then 4 else 2
      extraCycles := 0 }
    fault := false
    error := error }

/-- An instruction that is whole in flash and cannot fault is executed, and then charged. -/
theorem run_whole {β : Type} {V : Machine → β} {a b : β} {m : Machine} {row : Opcode}
    {second : Word} (inside : m.state.pc.toNat + 1 < avrFlashSize)
    (found : decodeInstruction (m.flashWord m.state.pc.toNat) = some row)
    (whole : row.words = 2 → m.state.pc.toNat + 3 < avrFlashSize)
    (behind : (if row.words = 2 then m.flashWord (m.state.pc.toNat + 2) else 0) = second)
    (began : ∀ error, V (m.begun row error) = a)
    (effect : ViewEffect V (dispatch row (m.flashWord m.state.pc.toNat) second) a b) :
    ∃ n m', V n = b ∧ (advanceTiming row).run n = some ((), m') ∧
      fetchExecute.run m = some (.executed, m') := by
  obtain ⟨m₁, fetched⟩ := run_fetch_whole inside found whole
  rw [behind] at fetched
  have left : m₁.unfetched = m.unfetched := fetch_unfetched _ _ _ fetched
  have pc : m₁.state.pc = m.state.pc + if row.words = 2 then 4 else 2 := (fetch_some fetched).2.2
  have ready : { m₁ with state := { m₁.state with extraCycles := 0 }, fault := false } =
      m.begun row m₁.error := by
    have same := congrArg (fun n : Machine => { n with
      state := { n.state with pc := m₁.state.pc, extraCycles := 0 }
      fault := false
      error := m₁.error }) left
    rw [Machine.begun, ← pc]
    exact same
  obtain ⟨n, done, clear, view⟩ := effect _ (began m₁.error)
  rw [← ready] at done clear
  have run := run_execute (f := ⟨row, m.flashWord m.state.pc.toNat, second⟩) done
  obtain ⟨m', timed⟩ : ∃ m', (advanceTiming row).run n = some ((), m') := ⟨_, rfl⟩
  rw [clear, timed] at run
  refine ⟨n, m', view, timed, ?_⟩
  rw [fetchExecute, run_bind_of fetched]
  exact run

/-- An instruction runs with no fault pending and no extra cycles; a fault ends it
there, and otherwise time advances. -/
theorem execute_inv {f : Fetched} {m m' : Machine} {outcome : Outcome}
    (run : (execute f).run m = some (outcome, m')) :
    ∃ m₁, (dispatch f.op f.instruction f.extra).run
      { m with state := { m.state with extraCycles := 0 }, fault := false } = some ((), m₁) ∧
      (outcome = .failed ∧ m₁.fault = true ∧ m' = m₁ ∨
        outcome = .executed ∧ (advanceTiming f.op).run m₁ = some ((), m')) := by
  obtain ⟨⟨⟩, m₁, clear, run⟩ := bind_inv run
  obtain ⟨⟨⟩, m₂, cycles, run⟩ := bind_inv run
  cases clear
  cases cycles
  obtain ⟨result, m₃, executed, run⟩ := bind_inv run
  obtain ⟨⟨⟩, m₄, done, result'⟩ := bind_inv executed
  cases result'
  refine ⟨m₃, done, ?_⟩
  simp only [Bool.not_true, Bool.false_eq_true, ↓reduceIte] at run
  obtain ⟨pending, m₅, read, run⟩ := bind_inv run
  cases read
  split at run
  next set =>
    cases run
    exact .inl ⟨rfl, set, rfl⟩
  · obtain ⟨⟨⟩, m₆, advance, run⟩ := bind_inv run
    cases run
    exact .inr ⟨rfl, advance⟩

theorem ErrorState.lastError_report (e : ErrorState) (r : ErrorReport) :
    (e.report r).lastError = some r := by
  rw [lastError, report, List.getLast?_concat]

/-- A fetch that delivers nothing inside flash has something else to report. -/
theorem fetch_none_bounds {m m' : Machine} (run : fetch.run m = some (none, m'))
    (bounds : m'.error.lastError =
      some (.pc m.state.pc "program counter out of flash bounds")) :
    avrFlashSize ≤ m.state.pc.toNat + 1 := by
  by_contra inside
  rw [run_fetch_inside (Nat.not_le.mp inside)] at run
  split at run
  · cases run
    have unknown := ErrorState.lastError_report m.fetchedWord.error
      (.pcInstr m.state.pc (m.flashWord m.state.pc.toNat) "unknown opcode (not in decoder table)")
    cases unknown.symm.trans bounds
  split at run
  · change ((get : Emu Machine) >>= _).run m.fetchedWord = _ at run
    rw [run_get_bind] at run
    dsimp only at run
    split at run
    · cases run
      have cut := ErrorState.lastError_report m.fetchedWord.error
        (.pc m.fetchedWord.state.pc "32-bit instruction extends past end of flash")
      have texts := cut.symm.trans bounds
      simp at texts
    next room =>
      rw [run_bind_of (run_fetchWord (Nat.not_le.mp room))] at run
      cases run
  · cases run

end AvrEmulator
