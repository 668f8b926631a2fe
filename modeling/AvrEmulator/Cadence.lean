import AvrEmulator.Clock
import AvrEmulator.Pacing
import AvrEmulator.Snapshot

/-! How often the loop looks after the host: the UART is polled before the instruction,
the debugger's copy and the wall clock are seen to after it, each when the cycle count has
reached a due value. -/

namespace AvrEmulator

open Checked Transition

/-- What was last done at `last` and is next due at `next` is never later than its period,
but for what passes between two looks at the clock. -/
structure OnTime (period slack : Nat) (last next now : BitVec 64) : Prop where
  past : last.toNat ≤ now.toNat
  within : now.toNat < last.toNat + (period + slack)
  due : next.toNat ≤ last.toNat + period

namespace OnTime

variable {period slack : Nat} {last next now later : BitVec 64}

/-- Done before the clock moved on. -/
theorem done (pos : 0 < period) (moved : now.toNat ≤ later.toNat)
    (short : later.toNat ≤ now.toNat + slack) :
    OnTime period slack now (now + BitVec.ofNat 64 period) later where
  past := moved
  within := by omega
  due := by
    rw [BitVec.toNat_add, BitVec.toNat_ofNat]
    omega

/-- Not yet due when the clock has moved on. -/
theorem early (h : OnTime period slack last next now) (moved : now.toNat ≤ later.toNat)
    (before : later.toNat < next.toNat) : OnTime period slack last next later where
  past := h.past.trans moved
  within := by
    have := h.due
    omega
  due := h.due

/-- Not yet due before the clock moved on. -/
theorem overrun (h : OnTime period slack last next now) (before : now.toNat < next.toNat)
    (moved : now.toNat ≤ later.toNat) (short : later.toNat ≤ now.toNat + slack) :
    OnTime period slack last next later where
  past := h.past.trans moved
  within := by
    have := h.due
    omega
  due := h.due

end OnTime

/-- The count after a few more cycles, far enough below its end. -/
theorem clockAt_toNat {s s' : AvrState} {n : Nat} (clock : s.ClockAt s' n)
    (room : s.cycleCount.toNat + n < 2 ^ 64) :
    s'.cycleCount.toNat = s.cycleCount.toNat + n := by
  rw [clock, BitVec.toNat_add, BitVec.toNat_ofNat]
  omega

/-! ## The loop with the times of its last services -/

/-- A program that remembers when it last polled the UART and looked at the wall clock, at
the latest when it was started. -/
structure Serviced where
  program : Program
  polled : BitVec 64
  synced : BitVec 64

namespace Program

/-- This step polls the UART. -/
def Polls (p : Program) : Input → Prop
  | .loop _ _ _ => p.control = .body ∧ p.nextUartPollCycle ≤ p.machine.state.cycleCount
  | _ => False

instance (p : Program) : ∀ i, Decidable (p.Polls i)
  | .loop _ _ _ => inferInstanceAs (Decidable (_ ∧ _))
  | .injectRx _ | .popTx => inferInstanceAs (Decidable False)

end Program

namespace Serviced

abbrev now (w : Serviced) : BitVec 64 := w.program.machine.state.cycleCount

def start (m : Machine) (fcntlOk : Bool) (snapshot : Option AvrState) : Serviced :=
  ⟨Program.start m fcntlOk snapshot, m.state.cycleCount, m.state.cycleCount⟩

def after (w : Serviced) (i : Input) (e : Event) (q : Program) : Serviced :=
  { program := q
    polled := if w.program.Polls i then w.now else w.polled
    synced :=
      if e = .executed ∧ w.program.nextWallSyncCycle ≤ q.machine.state.cycleCount then
        q.machine.state.cycleCount
      else w.synced }

def step (w : Serviced) (i : Input) : Option (Event × Serviced) :=
  (w.program.step i).map fun (e, q) => (e, w.after i e q)

/-- Remembering changes no step. -/
theorem run_program {ok : Serviced → Input → Prop} {w w' : Serviced}
    {trace : List (Input × Event)} (run : Run step ok w trace w') :
    Run Program.step anything w.program trace w'.program := by
  induction run with
  | nil => exact .nil _
  | cons _ taken _ ih =>
    obtain ⟨⟨e, q⟩, step, result⟩ := Option.map_eq_some_iff.mp taken
    cases result
    exact .cons trivial step ih

/-- No run of the program is left out. -/
theorem exists_run {ok : Program → Input → Prop} {w : Serviced} {p : Program}
    {trace : List (Input × Event)} (run : Run Program.step ok w.program trace p) :
    ∃ w', Run step (fun w i => ok w.program i) w trace w' ∧ w'.program = p := by
  generalize start : w.program = first at run
  induction run generalizing w with
  | nil => exact ⟨w, .nil w, start⟩
  | @cons _ q _ i e _ allowed taken _ ih =>
    subst start
    obtain ⟨w', rest, last⟩ := ih (w := w.after i e q) rfl
    refine ⟨w', .cons allowed ?_ rest, last⟩
    rw [step, taken]
    rfl

/-- The cycle count stays clear of its end. -/
def Early (w : Serviced) (_ : Input) : Prop := w.now.toNat + 4 < 2 ^ 64

instance (w : Serviced) (i : Input) : Decidable (w.Early i) := by
  unfold Early
  infer_instance

/-- Every service is on time: the copy and the wall clock are looked after right after each
instruction, the UART only before the next one. -/
structure Prompt (w : Serviced) : Prop where
  snapshot : ∃ s, w.program.snapshot = some s ∧
    OnTime 160000 0 s.cycleCount w.program.nextSnapshotCycle w.now
  synced : OnTime 16000 0 w.synced w.program.nextWallSyncCycle w.now
  polled : OnTime 1024 4 w.polled w.program.nextUartPollCycle w.now

theorem start_prompt (m : Machine) (fcntlOk : Bool) (snapshot : Option AvrState) :
    (start m fcntlOk snapshot).Prompt where
  snapshot := ⟨m.state, rfl, Nat.le_refl _, Nat.lt_add_of_pos_right (by decide),
    Nat.le_add_left _ _⟩
  synced := ⟨Nat.le_refl _, Nat.lt_add_of_pos_right (by decide), Nat.le_add_left _ _⟩
  polled := ⟨Nat.le_refl _, Nat.lt_add_of_pos_right (by decide), Nat.zero_le _⟩

end Serviced

namespace Program

theorem pollUart_next (p : Program) (stdin : Option Byte) :
    (p.pollUart stdin).nextUartPollCycle =
      if p.nextUartPollCycle ≤ p.machine.state.cycleCount then
        p.machine.state.cycleCount + 1024
      else p.nextUartPollCycle := by
  unfold pollUart
  split <;> rfl

theorem advance_next_snapshot (p : Program) : p.snapshotIfDue.syncIfDue.nextSnapshotCycle =
    if p.nextSnapshotCycle ≤ p.machine.state.cycleCount then
      p.machine.state.cycleCount + 160000
    else p.nextSnapshotCycle := by
  unfold syncIfDue snapshotIfDue
  split <;> split <;> rfl

/-- Outside a turn the due values stand, and the copy is left or made anew. -/
theorem step_idle {p q : Program} {i : Input} {e : Event} (taken : p.step i = some (e, q))
    (outside : p.control ≠ .body ∨ ∀ stop pause stdin, i ≠ .loop stop pause stdin) :
    e ≠ .executed ∧ q.machine.state = p.machine.state ∧
      q.nextSnapshotCycle = p.nextSnapshotCycle ∧
      q.nextWallSyncCycle = p.nextWallSyncCycle ∧ q.nextUartPollCycle = p.nextUartPollCycle ∧
      (q.snapshot = p.snapshot ∨ q.snapshot = some p.machine.state) := by
  cases i with
  | injectRx | popTx =>
    cases taken
    exact ⟨by simp, rfl, rfl, rfl, rfl, .inl rfl⟩
  | loop stop pause stdin =>
    rcases loop_cases taken with ⟨body, -⟩ | ⟨-, moved⟩
    · rcases outside with elsewhere | host
      · exact absurd body elsewhere
      · exact absurd rfl (host stop pause stdin)
    · exact ⟨moved.quiet, congrArg Machine.state moved.machine, moved.nextSnapshotCycle,
        moved.nextWallSyncCycle, moved.nextUartPollCycle, moved.snapshot⟩

end Program

namespace Serviced

theorem idle_prompt {w : Serviced} {q : Program} {i : Input} {e : Event} (prompt : w.Prompt)
    (quiet : ¬ w.program.Polls i) (other : e ≠ .executed)
    (state : q.machine.state = w.program.machine.state)
    (nextSnapshot : q.nextSnapshotCycle = w.program.nextSnapshotCycle)
    (nextSync : q.nextWallSyncCycle = w.program.nextWallSyncCycle)
    (nextPoll : q.nextUartPollCycle = w.program.nextUartPollCycle)
    (snapshot : q.snapshot = w.program.snapshot ∨ q.snapshot = some w.program.machine.state) :
    (w.after i e q).Prompt := by
  have now : (w.after i e q).now = w.now := congrArg AvrState.cycleCount state
  obtain ⟨s, shown, fresh⟩ := prompt.snapshot
  constructor
  case snapshot =>
    rw [now]
    change ∃ s, q.snapshot = some s ∧ OnTime _ _ _ q.nextSnapshotCycle _
    rw [nextSnapshot]
    rcases snapshot with kept | anew
    · exact ⟨s, kept.trans shown, fresh⟩
    · refine ⟨_, anew, Nat.le_refl _, Nat.lt_add_of_pos_right (by decide), ?_⟩
      exact fresh.due.trans (Nat.add_le_add_right fresh.past _)
  case synced =>
    have kept : (w.after i e q).synced = w.synced := if_neg fun executed => other executed.1
    rw [now, kept]
    change OnTime _ _ _ q.nextWallSyncCycle _
    rw [nextSync]
    exact prompt.synced
  case polled =>
    have kept : (w.after i e q).polled = w.polled := if_neg quiet
    rw [now, kept]
    change OnTime _ _ _ q.nextUartPollCycle _
    rw [nextPoll]
    exact prompt.polled

/-- A turn polls first, and takes at most four cycles after that. -/
theorem turn_polled {w : Serviced} {stop pause : Bool} {stdin : Option Byte} {later : BitVec 64}
    (prompt : w.Prompt) (body : w.program.control = .body) (moved : w.now.toNat ≤ later.toNat)
    (short : later.toNat ≤ w.now.toNat + 4) :
    OnTime 1024 4 (if w.program.Polls (.loop stop pause stdin) then w.now else w.polled)
      (w.program.pollUart stdin).nextUartPollCycle later := by
  rw [Program.pollUart_next]
  by_cases due : w.program.nextUartPollCycle ≤ w.program.machine.state.cycleCount
  · rw [if_pos ⟨body, due⟩, if_pos due]
    exact .done (by decide) moved short
  · rw [if_neg fun polls => due polls.2, if_neg due]
    exact prompt.polled.overrun (BitVec.lt_def.mp (BitVec.not_le.mp due)) moved short

/-- A turn that executes nothing takes no time. -/
theorem turn_still {w : Serviced} {q : Program} {stop pause : Bool} {stdin : Option Byte}
    {e : Event} (prompt : w.Prompt) (body : w.program.control = .body)
    (still : q.machine.state.cycleCount = w.now) (other : e ≠ .executed)
    (snapshot : q.snapshot = w.program.snapshot)
    (nextSnapshot : q.nextSnapshotCycle = w.program.nextSnapshotCycle)
    (nextSync : q.nextWallSyncCycle = w.program.nextWallSyncCycle)
    (nextPoll : q.nextUartPollCycle = (w.program.pollUart stdin).nextUartPollCycle) :
    (w.after (.loop stop pause stdin) e q).Prompt := by
  have now : (w.after (.loop stop pause stdin) e q).now = w.now := still
  constructor
  case snapshot =>
    rw [now]
    change ∃ s, q.snapshot = some s ∧ OnTime _ _ _ q.nextSnapshotCycle _
    rw [snapshot, nextSnapshot]
    exact prompt.snapshot
  case synced =>
    have kept : (w.after (.loop stop pause stdin) e q).synced = w.synced :=
      if_neg fun executed => other executed.1
    rw [now, kept]
    change OnTime _ _ _ q.nextWallSyncCycle _
    rw [nextSync]
    exact prompt.synced
  case polled =>
    rw [now]
    change OnTime _ _ (if _ then _ else _) q.nextUartPollCycle _
    rw [nextPoll]
    exact turn_polled prompt body (Nat.le_refl _) (Nat.le_add_right _ _)

/-- A turn that executes an instruction looks after the copy and the wall clock at its end. -/
theorem turn_executed {w : Serviced} {r : Program} {stop pause : Bool} {stdin : Option Byte}
    (prompt : w.Prompt) (body : w.program.control = .body)
    (moved : w.now.toNat ≤ r.machine.state.cycleCount.toNat)
    (short : r.machine.state.cycleCount.toNat ≤ w.now.toNat + 4)
    (snapshot : r.snapshot = w.program.snapshot)
    (nextSnapshot : r.nextSnapshotCycle = w.program.nextSnapshotCycle)
    (nextSync : r.nextWallSyncCycle = w.program.nextWallSyncCycle)
    (nextPoll : r.nextUartPollCycle = (w.program.pollUart stdin).nextUartPollCycle) :
    (w.after (.loop stop pause stdin) .executed r.snapshotIfDue.syncIfDue).Prompt := by
  have machine := r.advance_machine
  obtain ⟨s, shown, fresh⟩ := prompt.snapshot
  constructor
  case snapshot =>
    change ∃ s, r.snapshotIfDue.syncIfDue.snapshot = some s ∧ OnTime _ _ _
      r.snapshotIfDue.syncIfDue.nextSnapshotCycle
      r.snapshotIfDue.syncIfDue.machine.state.cycleCount
    rw [machine, Program.advance_snapshot, Program.advance_next_snapshot, nextSnapshot, snapshot]
    by_cases due : w.program.nextSnapshotCycle ≤ r.machine.state.cycleCount
    · rw [if_pos due, if_pos due]
      exact ⟨_, rfl, .done (by decide) (Nat.le_refl _) (Nat.le_refl _)⟩
    · rw [if_neg due, if_neg due]
      exact ⟨s, shown, fresh.early moved (BitVec.lt_def.mp (BitVec.not_le.mp due))⟩
  case synced =>
    have wall := r.advance_wall
    change OnTime _ _ (if _ ∧ _ ≤ r.snapshotIfDue.syncIfDue.machine.state.cycleCount then
      r.snapshotIfDue.syncIfDue.machine.state.cycleCount else _)
      r.snapshotIfDue.syncIfDue.nextWallSyncCycle
      r.snapshotIfDue.syncIfDue.machine.state.cycleCount
    rw [machine]
    rw [nextSync] at wall
    by_cases due : w.program.nextWallSyncCycle ≤ r.machine.state.cycleCount
    · rw [if_pos due] at wall
      rw [if_pos ⟨rfl, due⟩, wall.2]
      exact .done (by decide) (Nat.le_refl _) (Nat.le_refl _)
    · rw [if_neg due] at wall
      rw [if_neg fun executed => due executed.2, wall]
      exact prompt.synced.early moved (BitVec.lt_def.mp (BitVec.not_le.mp due))
  case polled =>
    change OnTime _ _ (if _ then _ else _) r.snapshotIfDue.syncIfDue.nextUartPollCycle
      r.snapshotIfDue.syncIfDue.machine.state.cycleCount
    rw [machine, Program.advance_poll, nextPoll]
    exact turn_polled prompt body moved short

theorem step_prompt {w w' : Serviced} {i : Input} {e : Event} (prompt : w.Prompt)
    (early : w.Early i) (taken : w.step i = some (e, w')) : w'.Prompt := by
  obtain ⟨⟨e, q⟩, step, result⟩ := Option.map_eq_some_iff.mp taken
  cases result
  by_cases turning : w.program.control = .body ∧ ∃ stop pause stdin, i = .loop stop pause stdin
  · obtain ⟨body, stop, pause, stdin, rfl⟩ := turning
    obtain ⟨n, least, most, clock⟩ := Program.step_clock step
    rw [Program.step_body body] at step
    obtain ⟨snapshot, nextSnapshot⟩ := w.program.pollUart_frame stdin
    have nextSync := w.program.pollUart_wall stdin
    have early : w.program.machine.state.cycleCount.toNat + 4 < 2 ^ 64 := early
    have bound : e.executes ≤ 1 := by cases e <;> simp [Event.executes]
    have count := clockAt_toNat clock (by omega)
    cases Program.turn_cases step with
    | dispatched h =>
      have none : n = 0 := Nat.le_zero.mp most
      have still := BitVec.eq_of_toNat_eq (count.trans (by rw [none, Nat.add_zero]))
      exact turn_still prompt body still (by simp) snapshot nextSnapshot nextSync rfl
    | failed h run =>
      have none : n = 0 := Nat.le_zero.mp most
      have still := BitVec.eq_of_toNat_eq (count.trans (by rw [none, Nat.add_zero]))
      exact turn_still prompt body still (by simp) snapshot nextSnapshot nextSync rfl
    | @executed m h run =>
      rw [Program.advance_machine] at count
      have count : m.state.cycleCount.toNat = w.now.toNat + n := count
      have four : n ≤ 4 := most
      have moved : w.now.toNat ≤ m.state.cycleCount.toNat := by omega
      have short : m.state.cycleCount.toNat ≤ w.now.toNat + 4 := by omega
      exact turn_executed (r := { w.program.pollUart stdin with machine := m, control := .head })
        prompt body moved short snapshot nextSnapshot nextSync rfl
  · have outside : w.program.control ≠ .body ∨
        ∀ stop pause stdin, i ≠ .loop stop pause stdin := by
      by_contra both
      simp only [not_or, not_not, not_forall] at both
      exact turning both
    obtain ⟨other, state, nextSnapshot, nextSync, nextPoll, snapshot⟩ :=
      Program.step_idle step outside
    refine idle_prompt prompt ?_ other state nextSnapshot nextSync nextPoll snapshot
    intro polls
    cases i with
    | injectRx | popTx => exact polls
    | loop stop pause stdin => exact turning ⟨polls.1, stop, pause, stdin, rfl⟩

theorem run_prompt {m : Machine} {fcntlOk : Bool} {snapshot : Option AvrState} {w : Serviced}
    {trace : List (Input × Event)} (run : Run step Early (start m fcntlOk snapshot) trace w) :
    w.Prompt := by
  apply run.invariant (P := Prompt) ?_ (start_prompt m fcntlOk snapshot)
  intro v i e v' prompt early taken
  exact step_prompt prompt early taken

end Serviced

end AvrEmulator
