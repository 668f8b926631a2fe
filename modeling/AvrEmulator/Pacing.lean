import AvrEmulator.Fetch

/-! The wall clock of the loop. Each time the cycle count has passed the next due one, the
loop computes the host time that the emulated time stands for, and waits for it. -/

namespace AvrEmulator

open Checked Transition

/-- A synchronisation: the cycle count, and the microseconds from the start of the program
to the host time that is waited for. -/
structure Sync where
  cycles : BitVec 64
  offset : BitVec 64
  deriving DecidableEq, Repr

/-- What the loop computes at this cycle count, at 16 cycles a microsecond. -/
def syncAt (cycles : BitVec 64) : Sync := ⟨cycles, cycles * 1000000 / 16000000⟩

/-- The product is exact up to this cycle count, some 13 days of emulated time. -/
def lastExactCycle : Nat := 18446744073709

/-- Past it the product wraps, and the quotient is too small. -/
theorem syncAt_exact_iff (cycles : BitVec 64) :
    (syncAt cycles).offset.toNat = cycles.toNat / 16 ↔ cycles.toNat ≤ lastExactCycle := by
  have product : (cycles * 1000000).toNat = cycles.toNat * 1000000 % 18446744073709551616 :=
    BitVec.toNat_mul _ _
  have million : (16000000 : BitVec 64).toNat = 16000000 := rfl
  rw [syncAt, BitVec.toNat_udiv, product, million, lastExactCycle]
  constructor
  · intro exact
    by_contra past
    have whole : 1 ≤ cycles.toNat * 1000000 / 18446744073709551616 := by omega
    have wrapped := Nat.div_add_mod (cycles.toNat * 1000000) 18446744073709551616
    generalize cycles.toNat * 1000000 % 18446744073709551616 = rest at exact wrapped
    omega
  · intro early
    rw [Nat.mod_eq_of_lt (by omega), show 16000000 = 16 * 1000000 from rfl,
      Nat.mul_div_mul_right _ _ (by decide)]

namespace Program

theorem pollUart_wall (p : Program) (stdin : Option Byte) :
    (p.pollUart stdin).nextWallSyncCycle = p.nextWallSyncCycle := by
  unfold pollUart
  split <;> rfl

/-- The end of a turn that executed an instruction. -/
theorem advance_wall (p : Program) :
    if p.nextWallSyncCycle ≤ p.machine.state.cycleCount then
      p.snapshotIfDue.syncIfDue.wallTarget = (syncAt p.machine.state.cycleCount).offset ∧
        p.snapshotIfDue.syncIfDue.nextWallSyncCycle = p.machine.state.cycleCount + 16000
    else p.snapshotIfDue.syncIfDue.nextWallSyncCycle = p.nextWallSyncCycle := by
  have snapshot : p.snapshotIfDue.nextWallSyncCycle = p.nextWallSyncCycle ∧
      p.snapshotIfDue.machine = p.machine := by
    unfold snapshotIfDue
    split <;> exact ⟨rfl, rfl⟩
  unfold syncIfDue
  rw [snapshot.1, snapshot.2]
  by_cases due : p.nextWallSyncCycle ≤ p.machine.state.cycleCount
  · simp only [due, ↓reduceIte]
    exact ⟨rfl, trivial⟩
  · simp only [due, ↓reduceIte]
    exact snapshot.1

/-- Only the end of such a turn moves the next due cycle. -/
theorem step_wall {p q : Program} {i : Input} {e : Event} (taken : p.step i = some (e, q)) :
    (e = .executed ∧ ∃ r : Program, r.nextWallSyncCycle = p.nextWallSyncCycle ∧
      q = r.snapshotIfDue.syncIfDue) ∨
    (e ≠ .executed ∧ q.nextWallSyncCycle = p.nextWallSyncCycle) := by
  cases i with
  | injectRx | popTx =>
    cases taken
    exact .inr ⟨by simp, rfl⟩
  | loop stop pause stdin =>
    rcases loop_cases taken with ⟨-, turn⟩ | ⟨-, moved⟩
    · have polled := p.pollUart_wall stdin
      cases turn_cases turn with
      | dispatched => exact .inr ⟨by simp, polled⟩
      | @executed m =>
        exact .inl ⟨rfl, { p.pollUart stdin with machine := m, control := .head }, polled, rfl⟩
      | failed => exact .inr ⟨by simp, polled⟩
    · exact .inr ⟨moved.quiet, moved.nextWallSyncCycle⟩

end Program

/-- A run that remembers its synchronisations, the first one first. -/
structure Paced where
  program : Program
  syncs : List Sync

namespace Paced

def start (m : Machine) (fcntlOk : Bool) (snapshot : Option AvrState) : Paced :=
  ⟨Program.start m fcntlOk snapshot, []⟩

/-- The loop synchronises after an instruction that reaches the next due cycle. -/
def syncsAfter (w : Paced) (q : Program) : Event → List Sync
  | .executed =>
    if w.program.nextWallSyncCycle ≤ q.machine.state.cycleCount then
      w.syncs ++ [⟨q.machine.state.cycleCount, q.wallTarget⟩]
    else w.syncs
  | _ => w.syncs

def step (w : Paced) (i : Input) : Option (Event × Paced) :=
  (w.program.step i).map fun (e, q) => (e, ⟨q, w.syncsAfter q e⟩)

/-- Remembering changes no step. -/
theorem run_program {ok : Paced → Input → Prop} {w w' : Paced} {trace : List (Input × Event)}
    (run : Run step ok w trace w') : Run Program.step anything w.program trace w'.program := by
  induction run with
  | nil => exact .nil _
  | cons _ taken _ ih =>
    obtain ⟨⟨e, q⟩, step, result⟩ := Option.map_eq_some_iff.mp taken
    cases result
    exact .cons trivial step ih

/-- No run of the program is left out. -/
theorem exists_run {w : Paced} {p : Program} {trace : List (Input × Event)}
    (run : Run Program.step anything w.program trace p) :
    ∃ w', Run step anything w trace w' ∧ p = w'.program := by
  apply run.simulated (S := fun p v => p = Paced.program v) rfl
  intro p v i e q same taken
  subst same
  refine ⟨⟨q, v.syncsAfter q e⟩, ?_, rfl⟩
  rw [step, taken]
  rfl

/-- A step synchronises where an instruction reaches the due cycle. -/
theorem step_syncs {w w' : Paced} {i : Input} {e : Event} (taken : w.step i = some (e, w')) :
    if e = .executed ∧ w.program.nextWallSyncCycle ≤ w'.program.machine.state.cycleCount then
      w'.syncs = w.syncs ++ [syncAt w'.program.machine.state.cycleCount] ∧
        w'.program.nextWallSyncCycle = w'.program.machine.state.cycleCount + 16000
    else w'.syncs = w.syncs ∧ w'.program.nextWallSyncCycle = w.program.nextWallSyncCycle := by
  obtain ⟨⟨e, q⟩, step, result⟩ := Option.map_eq_some_iff.mp taken
  cases result
  rcases Program.step_wall step with ⟨rfl, r, next, rfl⟩ | ⟨other, same⟩
  · have wall := r.advance_wall
    rw [next] at wall
    dsimp only [syncsAfter]
    rw [Program.advance_machine]
    by_cases due : w.program.nextWallSyncCycle ≤ r.machine.state.cycleCount
    · rw [if_pos due] at wall ⊢
      rw [if_pos ⟨rfl, due⟩, wall.1]
      exact ⟨rfl, wall.2⟩
    · rw [if_neg due] at wall ⊢
      rw [if_neg fun reached => due reached.2]
      exact ⟨rfl, wall⟩
  · rw [if_neg fun reached => other reached.1]
    refine ⟨?_, same⟩
    cases e with
    | executed => exact absurd rfl other
    | idle | dispatched | returned => rfl

/-- The synchronisations are computed where they happen, and as long as all are exact the
next one is due after them. -/
structure Spaced (w : Paced) : Prop where
  computed : ∀ s ∈ w.syncs, s = syncAt s.cycles
  due : (∀ s ∈ w.syncs, s.cycles.toNat ≤ lastExactCycle) →
    ∀ s ∈ w.syncs, s.cycles.toNat < w.program.nextWallSyncCycle.toNat
  ordered : (∀ s ∈ w.syncs, s.cycles.toNat ≤ lastExactCycle) →
    w.syncs.Pairwise fun s t => s.cycles.toNat ≤ t.cycles.toNat

theorem step_spaced {w w' : Paced} {i : Input} {e : Event} (spaced : w.Spaced)
    (taken : w.step i = some (e, w')) : w'.Spaced := by
  have syncs := step_syncs taken
  split at syncs
  next reached =>
    obtain ⟨log, next⟩ := syncs
    have due := BitVec.le_def.mp reached.2
    refine ⟨?_, ?_, ?_⟩
    · rw [log]
      simp only [List.forall_mem_append, List.forall_mem_singleton]
      exact ⟨spaced.computed, rfl⟩
    · rw [log, next]
      simp only [List.forall_mem_append, List.forall_mem_singleton]
      rintro ⟨earlier, last⟩
      -- The next due cycle does not wrap as long as the last synchronisation is exact.
      have ahead : (w'.program.machine.state.cycleCount + 16000).toNat =
          w'.program.machine.state.cycleCount.toNat + 16000 := by
        rw [BitVec.toNat_add]
        change w'.program.machine.state.cycleCount.toNat ≤ 18446744073709 at last
        change (_ + 16000) % 18446744073709551616 = _
        omega
      constructor
      · intro s found
        have before := spaced.due earlier s found
        omega
      · rw [ahead]
        exact Nat.lt_add_of_pos_right (by decide)
    · rw [log]
      simp only [List.forall_mem_append, List.forall_mem_singleton, List.pairwise_append,
        List.pairwise_singleton, true_and]
      rintro ⟨earlier, last⟩
      refine ⟨spaced.ordered earlier, ?_⟩
      intro s found
      exact (spaced.due earlier s found).le.trans due
  next =>
    obtain ⟨log, next⟩ := syncs
    refine ⟨?_, ?_, ?_⟩
    · rw [log]
      exact spaced.computed
    · rw [log, next]
      exact spaced.due
    · rw [log]
      exact spaced.ordered

theorem start_spaced (m : Machine) (fcntlOk : Bool) (snapshot : Option AvrState) :
    (start m fcntlOk snapshot).Spaced := by
  refine ⟨?_, fun _ => ?_, fun _ => .nil⟩ <;> exact List.forall_mem_nil _

/-- Exact offsets are in the order of their cycle counts. -/
theorem Spaced.exact_iff {w : Paced} (spaced : w.Spaced) :
    (∀ s ∈ w.syncs, s.offset.toNat = s.cycles.toNat / 16) ↔
      ∀ s ∈ w.syncs, s.cycles.toNat ≤ lastExactCycle := by
  apply forall₂_congr
  intro s found
  have exact := syncAt_exact_iff s.cycles
  rwa [← spaced.computed s found] at exact

theorem Spaced.nondecreasing {w : Paced} (spaced : w.Spaced)
    (early : ∀ s ∈ w.syncs, s.cycles.toNat ≤ lastExactCycle) :
    (w.syncs.map Sync.offset).Pairwise (· ≤ ·) := by
  rw [List.pairwise_map]
  refine (spaced.ordered early).imp_of_mem fun {s t} hs ht order => ?_
  rw [BitVec.le_def, spaced.exact_iff.mpr early s hs, spaced.exact_iff.mpr early t ht]
  exact Nat.div_le_div_right order

end Paced

/-- In every run the offsets are those of the exact cycle counts, and never go back, just
when no synchronisation comes after the last exact cycle count. -/
theorem pacing_exact_iff (m : Machine) (fcntlOk : Bool) (snapshot : Option AvrState)
    {trace : List (Input × Event)} {w : Paced}
    (run : Run Paced.step anything (Paced.start m fcntlOk snapshot) trace w) :
    ((∀ s ∈ w.syncs, s.offset.toNat = s.cycles.toNat / 16) ∧
      (w.syncs.map Sync.offset).Pairwise (· ≤ ·)) ↔
      ∀ s ∈ w.syncs, s.cycles.toNat ≤ 18446744073709 := by
  have spaced : w.Spaced :=
    run.invariant (P := Paced.Spaced)
      (fun _ _ _ _ spaced _ taken => Paced.step_spaced spaced taken)
      (Paced.start_spaced m fcntlOk snapshot)
  constructor
  · exact fun paced => spaced.exact_iff.mp paced.1
  · exact fun early => ⟨spaced.exact_iff.mpr early, spaced.nondecreasing early⟩

/-! ## A loop that never ends -/

/-- RJMP to itself in an otherwise empty flash, at this cycle count. -/
def spinning (cycles : BitVec 64) : AvrState :=
  { Program.firmware [0xCFFF] with cycleCount := cycles }

theorem run_execute_rjmp (w : Word) (m : Machine) :
    (execute ⟨⟨0xF000, 0xC000, .RJMP, .k02, 1, 2, "RJMP"⟩, w, 0⟩).run m =
      some (.executed, { m with
        state := { m.state with
          pc := m.state.pc + (decodeK02 w).k * 2
          cycleCount := m.state.cycleCount + ((2 : Word) + 0).setWidth 64
          extraCycles := 0 }
        timer0 := m.timer0.timer0Tick ((2 : Word) + 0)
        fault := false }) := rfl

theorem run_spinning {m : Machine} {cycles : BitVec 64} (h : m.state = spinning cycles) :
    ∃ m', fetchExecute.run m = some (.executed, m') ∧ m'.state = spinning (cycles + 2) := by
  have pc : m.state.pc = 0 := by
    rw [h]
    rfl
  have word : m.flashWord m.state.pc.toNat = 0xCFFF := by
    have read : (Machine.initial (Program.firmware [0xCFFF])).flashWord 0 = 0xCFFF := by
      decide +kernel
    rw [pc, Machine.flashWord, h]
    exact read
  have found : decodeInstruction 0xCFFF = some ⟨0xF000, 0xC000, .RJMP, .k02, 1, 2, "RJMP"⟩ := by
    decide +kernel
  have fetched := run_fetch_inside (m := m) (by rw [pc]; decide)
  rw [word, found] at fetched
  dsimp only at fetched
  rw [if_neg (by decide)] at fetched
  have target : m.state.pc + 2 + (decodeK02 0xCFFF).k * 2 = 0 := by
    rw [pc]
    decide
  rw [fetchExecute, run_bind_of fetched]
  refine ⟨_, run_execute_rjmp _ _, ?_⟩
  dsimp only [Machine.fetchedWord]
  rw [target, h]
  rfl

namespace Paced

/-- The head of the loop after `n` turns at two cycles each. -/
structure Spins (n : Nat) (w : Paced) : Prop where
  control : w.program.control = .head
  state : w.program.machine.state = spinning (BitVec.ofNat 64 (2 * n))
  next : w.program.nextWallSyncCycle = BitVec.ofNat 64 (16000 * (n / 8000 + 1))
  syncs : w.syncs =
    (List.range (n / 8000)).map fun k => syncAt (BitVec.ofNat 64 (16000 * (k + 1)))

theorem spins_start : (start (.initial (Program.firmware [0xCFFF])) true none).Spins 0 where
  control := rfl
  state := rfl
  next := rfl
  syncs := rfl

/-- One turn goes to the head and the pause wait, and then executes the RJMP. -/
theorem spin_turn {n : Nat} {w : Paced} (spins : w.Spins n) : ∃ trace v w',
    Run step anything w trace v ∧ v.step Program.go = some (.executed, w') ∧
      v.syncs = w.syncs ∧ v.program.nextWallSyncCycle = w.program.nextWallSyncCycle ∧
      w'.program.control = .head ∧
      w'.program.machine.state = spinning (BitVec.ofNat 64 (2 * (n + 1))) := by
  let p : Program := { w.program with control := .body }
  have first : w.step Program.go =
      some (.idle, ⟨{ w.program with control := .paused }, w.syncs⟩) := by
    rw [step, Program.go, Program.step, spins.control]
    rfl
  have second : step ⟨{ w.program with control := .paused }, w.syncs⟩ Program.go =
      some (.idle, ⟨p, w.syncs⟩) := rfl
  have state : (p.servicePoint none).settled.state = spinning (BitVec.ofNat 64 (2 * n)) := by
    rw [Program.settled_servicePoint_state]
    exact spins.state
  have idle : (p.servicePoint none).dispatches = none := by
    apply Program.masked_idle
    rw [show p.machine.state = spinning (BitVec.ofNat 64 (2 * n)) from spins.state]
    exact (by decide : sregBit 0 7 = false)
  obtain ⟨m, run, after⟩ := run_spinning state
  let q := { p.pollUart none with machine := m, control := .head }.snapshotIfDue.syncIfDue
  have third : step ⟨p, w.syncs⟩ Program.go =
      some (.executed, ⟨q, syncsAfter ⟨p, w.syncs⟩ q .executed⟩) := by
    rw [step, Program.go, Program.step_body rfl, Program.turn_execute idle, run]
    rfl
  refine ⟨_, _, _, .cons trivial first (.cons trivial second (.nil _)), third, rfl, rfl,
    Program.advance_control _, ?_⟩
  rw [show q.machine = m from Program.advance_machine _, after, Nat.mul_succ, BitVec.ofNat_add]
  rfl

theorem spins_turn {n : Nat} {w : Paced} (spins : w.Spins n) (bound : n < 2 ^ 62) :
    ∃ trace w', Run step anything w trace w' ∧ w'.Spins (n + 1) := by
  obtain ⟨trace, v, w', run, taken, log, next, control, state⟩ := spin_turn spins
  have cycles : w'.program.machine.state.cycleCount = BitVec.ofNat 64 (2 * (n + 1)) := by
    rw [state]
    rfl
  have syncs := step_syncs taken
  rw [cycles, log, next] at syncs
  by_cases whole : n + 1 = 8000 * (n / 8000 + 1)
  · have due : w.program.nextWallSyncCycle ≤ BitVec.ofNat 64 (2 * (n + 1)) := by
      rw [spins.next, BitVec.le_def, BitVec.toNat_ofNat, BitVec.toNat_ofNat]
      omega
    have count : (n + 1) / 8000 = n / 8000 + 1 := by omega
    have here : 2 * (n + 1) = 16000 * (n / 8000 + 1) := by omega
    rw [if_pos ⟨rfl, due⟩, here] at syncs
    refine ⟨_, w', run.snoc trivial taken, control, state, ?_, ?_⟩
    · rw [syncs.2, count, Nat.mul_succ 16000 (n / 8000 + 1), BitVec.ofNat_add]
      rfl
    · rw [syncs.1, spins.syncs, count, List.range_succ, List.map_append]
      rfl
  · have early : ¬ w.program.nextWallSyncCycle ≤ BitVec.ofNat 64 (2 * (n + 1)) := by
      rw [spins.next, BitVec.le_def, BitVec.toNat_ofNat, BitVec.toNat_ofNat]
      omega
    have count : (n + 1) / 8000 = n / 8000 := by omega
    rw [if_neg fun reached => early reached.2] at syncs
    refine ⟨_, w', run.snoc trivial taken, control, state, ?_, ?_⟩
    · rw [syncs.2, count]
      exact spins.next
    · rw [syncs.1, count]
      exact spins.syncs

theorem spins {n : Nat} (bound : n ≤ 2 ^ 62) :
    ∃ trace w, Run step anything (start (.initial (Program.firmware [0xCFFF])) true none)
      trace w ∧ w.Spins n := by
  induction n with
  | zero => exact ⟨[], _, .nil _, spins_start⟩
  | succ n ih =>
    obtain ⟨before, v, run, spins⟩ := ih (Nat.le_of_succ_le bound)
    obtain ⟨later, w, turn, next⟩ := spins_turn spins bound
    exact ⟨before ++ later, w, run.append turn, next⟩

end Paced

/-- The first two synchronisations of that loop, one and two milliseconds after reset. -/
theorem spinning_is_paced : ∃ trace w,
    Run Paced.step anything (Paced.start (.initial (Program.firmware [0xCFFF])) true none) trace w ∧
      w.syncs = [⟨16000, 1000⟩, ⟨32000, 2000⟩] ∧
      (∀ s ∈ w.syncs, s.offset.toNat = s.cycles.toNat / 16) ∧
      (w.syncs.map Sync.offset).Pairwise (· ≤ ·) := by
  obtain ⟨trace, w, run, spins⟩ := Paced.spins (n := 16000) (by decide)
  have syncs : w.syncs = [⟨16000, 1000⟩, ⟨32000, 2000⟩] := spins.syncs.trans (by decide)
  refine ⟨trace, w, run, syncs, (pacing_exact_iff _ _ _ run).mpr ?_⟩
  rw [syncs]
  decide

/-- It goes back from 1152921504000 to 393 microseconds at the first synchronisation past
the last exact cycle count. -/
theorem spinning_goes_back : ∃ trace w earlier,
    Run Paced.step anything (Paced.start (.initial (Program.firmware [0xCFFF])) true none) trace w ∧
      w.syncs = earlier ++ [⟨18446744064000, 1152921504000⟩, ⟨18446744080000, 393⟩] ∧
      (¬ ∀ s ∈ w.syncs, s.offset.toNat = s.cycles.toNat / 16) ∧
      ¬ (w.syncs.map Sync.offset).Pairwise (· ≤ ·) := by
  obtain ⟨trace, w, run, spins⟩ := Paced.spins (n := 8000 * 1152921505) (by decide)
  have count : 8000 * 1152921505 / 8000 = 1152921503 + 1 + 1 := by decide
  have last : syncAt (BitVec.ofNat 64 (16000 * (1152921503 + 1))) =
      ⟨18446744064000, 1152921504000⟩ := by decide
  have past : syncAt (BitVec.ofNat 64 (16000 * (1152921503 + 1 + 1))) =
      ⟨18446744080000, 393⟩ := by decide
  obtain ⟨earlier, syncs⟩ : ∃ earlier,
      w.syncs = earlier ++ [⟨18446744064000, 1152921504000⟩, ⟨18446744080000, 393⟩] := by
    refine ⟨(List.range 1152921503).map fun k => syncAt (BitVec.ofNat 64 (16000 * (k + 1))), ?_⟩
    rw [spins.syncs, count, List.range_succ, List.range_succ, List.map_append, List.map_append,
      List.append_assoc]
    simp only [List.map_cons, List.map_nil, last, past]
    rfl
  refine ⟨trace, w, earlier, run, syncs, fun exact => ?_, fun ordered => ?_⟩
  · have wrong := exact ⟨18446744080000, 393⟩ (by rw [syncs]; simp)
    exact absurd wrong (by decide)
  · rw [syncs, List.map_append, List.pairwise_append] at ordered
    exact absurd ordered.2.1 (by decide)

end AvrEmulator
