import AvrEmulator.Latency

/-! Which vector one call of `interruptService` takes up, when some of the
pending vectors have no handler in flash. -/

namespace AvrEmulator

open Checked Transition

namespace Machine

/-- A vector number whose bit is in the pending set. -/
structure Raised (m : Machine) (vec : InterruptVector) : Prop where
  number : 1 ≤ vec.toNat ∧ vec.toNat ≤ 32
  pending : m.interrupts.isPending vec = true

/-- The vector's word in flash. -/
def vectorWord (m : Machine) (vec : InterruptVector) : Word :=
  m.flashWord (Interrupts.vectorAddr vec).toNat

/-- The lowest-numbered pending vector that has a handler. -/
structure First (m : Machine) (vec : InterruptVector) : Prop where
  raised : m.Raised vec
  programmed : m.vectorWord vec ≠ 0xFFFF
  lowest : ∀ w, m.Raised w → m.vectorWord w ≠ 0xFFFF → vec.toNat ≤ w.toNat

/-- No pending vector has a handler. -/
def Unhandled (m : Machine) : Prop := ∀ w, m.Raised w → m.vectorWord w = 0xFFFF

/-- `m'` is `m` with `vec` dispatched. -/
structure Dispatch (m : Machine) (vec : InterruptVector) (m' : Machine) : Prop where
  pushes : ∃ saved, (pushWord m.state.pc).run (m.drop vec) = some ((), saved) ∧
    m' = saved.setState { saved.state with sreg := m'.state.sreg, pc := m'.state.pc }
  sp : m'.state.sp = m.state.sp - 2
  fault : m'.fault = m.fault
  flags : ∀ b, m'.state.getFlag b = (!decide (b = .I) && m.state.getFlag b)
  pc : m'.state.pc.toNat = 4 * (vec.toNat - 1)
  taken : ¬ m'.Raised vec
  kept : ∀ w, w ≠ vec → (m'.Raised w ↔ m.Raised w)

/-- Nothing but the pending set differs. -/
def Refused (m m' : Machine) : Prop := ∃ i, m' = { m with interrupts := i }

/-- What one call of `interruptService` should do. -/
structure ServiceLaw (m : Machine) : Prop where
  disabled : m.state.getFlag .I = false → interruptService.run m = some (none, m)
  handled : m.state.getFlag .I = true → ∀ vec, m.First vec →
    ∃ m', interruptService.run m = some (some vec, m') ∧ m.Dispatch vec m'
  unhandled : m.state.getFlag .I = true → m.Unhandled →
    ∃ m', interruptService.run m = some (none, m') ∧ m.Refused m'

/-- Under I, the highest-priority pending vector has a handler if any has one. -/
def HandlerOnTop (m : Machine) : Prop :=
  m.state.getFlag .I = true → ¬ m.Unhandled → m.vectorWord m.interrupts.highestPending ≠ 0xFFFF

theorem raised_highestPending {m : Machine} (h : m.interrupts.highestPending ≠ 0) :
    m.Raised m.interrupts.highestPending := by
  have number := Interrupts.highestPending_number (Interrupts.pending_ne_zero h)
  exact ⟨by omega, Interrupts.isPending_highestPending h⟩

theorem highestPending_le {m : Machine} {vec : InterruptVector} (h : m.Raised vec) :
    m.interrupts.highestPending ≠ 0 ∧ m.interrupts.highestPending.toNat ≤ vec.toNat := by
  obtain ⟨some, le⟩ := Interrupts.highestPending_lowest h.pending
  have number := h.number
  exact ⟨some, by omega⟩

theorem vectorAddr_toNat {vec : InterruptVector} (h : 1 ≤ vec.toNat ∧ vec.toNat ≤ 32) :
    (Interrupts.vectorAddr vec).toNat = 4 * (vec.toNat - 1) := by
  unfold Interrupts.vectorAddr
  bv_omega

/-- Every vector that can be pending lies inside flash. -/
theorem programmed_iff {m : Machine} {vec : InterruptVector} (h : m.Raised vec) :
    m.programmed vec = true ↔ m.vectorWord vec ≠ 0xFFFF := by
  have number := h.number
  have addr := vectorAddr_toNat number
  have inside : (Interrupts.vectorAddr vec).toNat + 1 < avrFlashSize := by
    rw [addr]
    show 4 * (vec.toNat - 1) + 1 < 32768
    omega
  simp [programmed, vectorWord, inside]

/-- Service dispatches the vector on top and no other. -/
theorem dispatches_eq_some_iff {m : Machine} {vec : InterruptVector}
    (bound : m.interrupts.bound = true) (enabled : m.state.getFlag .I = true) :
    m.dispatches = some vec ↔
      m.Raised vec ∧ m.interrupts.highestPending = vec ∧ m.vectorWord vec ≠ 0xFFFF := by
  rw [dispatches_due bound enabled, due]
  split
  next empty =>
    apply iff_of_false (by simp)
    rintro ⟨raised, -, -⟩
    exact (highestPending_le raised).1 empty
  next some =>
    rw [Option.filter_eq_some_iff, Option.some.injEq]
    constructor
    · rintro ⟨rfl, programmed⟩
      have raised := raised_highestPending some
      exact ⟨raised, rfl, (programmed_iff raised).mp programmed⟩
    · rintro ⟨raised, top, programmed⟩
      exact ⟨top, (programmed_iff raised).mpr programmed⟩

/-- Some pending vector has a handler, so one of them has the lowest number. -/
theorem exists_first {m : Machine} (h : ¬ m.Unhandled) : ∃ vec, m.First vec := by
  obtain ⟨some, handled⟩ := not_forall.mp h
  rw [Classical.not_imp] at handled
  have search : ∃ n, ∃ w : InterruptVector, w.toNat = n ∧ m.Raised w ∧ m.vectorWord w ≠ 0xFFFF :=
    ⟨_, some, rfl, handled⟩
  classical
  obtain ⟨vec, number, raised, programmed⟩ := Nat.find_spec search
  refine ⟨vec, raised, programmed, ?_⟩
  intro w hw programmed'
  rw [number]
  exact Nat.find_min' search ⟨w, rfl, hw, programmed'⟩

/-- With a handler on top, the first vector is the one on top. -/
theorem First.highestPending_eq {m : Machine} {vec : InterruptVector} (h : m.First vec)
    (top : m.vectorWord m.interrupts.highestPending ≠ 0xFFFF) :
    m.interrupts.highestPending = vec := by
  obtain ⟨some, le⟩ := highestPending_le h.raised
  exact BitVec.eq_of_toNat_eq (Nat.le_antisymm le (h.lowest _ (raised_highestPending some) top))

theorem raised_drop {m : Machine} {vec w : InterruptVector} (hv : 1 ≤ vec.toNat)
    (m' : Machine) (same : m'.interrupts = m.interrupts.drop vec) :
    m'.Raised w ↔ m.Raised w ∧ w ≠ vec := by
  have split (hw : 1 ≤ w.toNat ∧ w.toNat ≤ 32) :
      m'.interrupts.isPending w = true ↔ m.interrupts.isPending w = true ∧ w ≠ vec := by
    have bits : ¬ w.toNat - 1 = vec.toNat - 1 ↔ w ≠ vec := by
      rw [ne_eq, ← BitVec.toNat_inj]
      omega
    rw [same, Interrupts.isPending_drop _ hw.2, Bool.and_eq_true, Bool.not_eq_true',
      Interrupts.sameBit, decide_eq_false_iff_not, bits]
  constructor
  · rintro ⟨number, pending⟩
    obtain ⟨old, ne⟩ := (split number).mp pending
    exact ⟨⟨number, old⟩, ne⟩
  · rintro ⟨⟨number, pending⟩, ne⟩
    exact ⟨number, (split number).mpr ⟨pending, ne⟩⟩

theorem entered_dispatch {m : Machine} {vec : InterruptVector} (raised : m.Raised vec)
    (room : 0x0101 ≤ m.state.sp ∧ m.state.sp ≤ 0x08FF) :
    m.Dispatch vec ((m.drop vec).entered vec) := by
  obtain ⟨sram, timer0, saved⟩ := pushedWord_room (m := m.drop vec) m.state.pc room
  have entered : (m.drop vec).entered vec = ((m.drop vec).pushedWord m.state.pc).setState
      { ((m.drop vec).pushedWord m.state.pc).state.clearFlag .I with
        pc := Interrupts.vectorAddr vec } := rfl
  have interrupts : ((m.drop vec).entered vec).interrupts = m.interrupts.drop vec := by
    rw [entered, saved]
    rfl
  constructor
  case pushes => exact ⟨_, run_pushWord _ _, rfl⟩
  case sp =>
    rw [entered, saved]
    rfl
  case fault =>
    rw [entered, saved]
    rfl
  case flags =>
    intro b
    have flags := AvrState.getFlag_clearFlag m.state .I b
    rw [entered, saved]
    exact flags
  case pc => exact vectorAddr_toNat raised.number
  case taken =>
    rw [raised_drop raised.number.1 _ interrupts]
    exact fun h => h.2 rfl
  case kept =>
    intro w ne
    rw [raised_drop raised.number.1 _ interrupts, and_iff_left ne]

theorem run_service_dispatch {m : Machine} {vec : InterruptVector}
    (h : m.dispatches = some vec) :
    interruptService.run m = some (some vec, (m.drop vec).entered vec) := by
  have run := run_interruptService m
  simp only [h, run_enterHandler, Option.map_some] at run
  rw [run, settled_of_dispatches h]

theorem run_service_idle {m : Machine} (h : m.dispatches = none) :
    interruptService.run m = some (none, m.settled) := by
  have run := run_interruptService m
  rwa [h] at run

/-- Service meets the law exactly when no vector without a handler is on top of
one that has a handler. -/
theorem serviceLaw_iff {m : Machine} (bound : m.interrupts.bound = true)
    (room : 0x0101 ≤ m.state.sp ∧ m.state.sp ≤ 0x08FF) : m.ServiceLaw ↔ m.HandlerOnTop := by
  constructor
  · intro law enabled handled
    obtain ⟨vec, first⟩ := exists_first handled
    obtain ⟨m', run, -⟩ := law.handled enabled vec first
    cases hd : m.dispatches with
    | none =>
      rw [run_service_idle hd] at run
      cases run
    | some w =>
      obtain ⟨-, rfl, programmed⟩ := (dispatches_eq_some_iff bound enabled).mp hd
      exact programmed
  · intro top
    constructor
    case disabled =>
      intro off
      have idle : m.candidate = none := by simp [candidate, off]
      have none : m.dispatches = none := by rw [dispatches, idle, Option.filter_none]
      rw [run_service_idle none, settled, idle]
    case handled =>
      intro enabled vec first
      have handled : ¬ m.Unhandled := fun h => first.programmed (h vec first.raised)
      have hd : m.dispatches = some vec := (dispatches_eq_some_iff bound enabled).mpr
        ⟨first.raised, first.highestPending_eq (top enabled handled), first.programmed⟩
      exact ⟨_, run_service_dispatch hd, entered_dispatch first.raised room⟩
    case unhandled =>
      intro enabled unhandled
      have none : m.dispatches = none := by
        apply Option.eq_none_iff_forall_ne_some.mpr
        intro vec hd
        obtain ⟨raised, -, programmed⟩ := (dispatches_eq_some_iff bound enabled).mp hd
        exact programmed (unhandled vec raised)
      exact ⟨_, run_service_idle none, settled_frame m⟩

end Machine

theorem Program.run_bound {ok : Program → Input → Prop} {m : Machine} {fcntlOk : Bool}
    {snapshot : Option AvrState} {trace : List (Input × Event)} {p : Program}
    (run : Run Program.step ok (.start m fcntlOk snapshot) trace p) :
    p.machine.interrupts.bound = true :=
  run.invariant (fun _ _ _ _ bound _ taken => Program.step_bound bound taken) rfl

/-- A turn takes up the first vector exactly under the condition. -/
theorem Program.turn_first_iff {p : Program} {stop pause : Bool} {stdin : Option Byte}
    {vec : InterruptVector} (bound : p.machine.interrupts.bound = true)
    (body : p.control = .body) (enabled : p.machine.state.getFlag .I = true)
    (first : (p.servicePoint stdin).First vec) :
    (∃ q, p.step (.loop stop pause stdin) = some (.dispatched vec, q)) ↔
      (p.servicePoint stdin).HandlerOnTop := by
  have bound' : (p.servicePoint stdin).interrupts.bound = true := by
    rw [p.servicePoint_bound, bound]
  have enabled' : (p.servicePoint stdin).state.getFlag .I = true := by
    rw [p.servicePoint_state, enabled]
  have handled : ¬ (p.servicePoint stdin).Unhandled := fun h =>
    first.programmed (h vec first.raised)
  rw [Program.step_body body]
  constructor
  · rintro ⟨q, turn⟩ - -
    cases Program.turn_cases turn with
    | dispatched hd =>
      obtain ⟨-, rfl, programmed⟩ := (Machine.dispatches_eq_some_iff bound' enabled').mp hd
      exact programmed
  · intro top
    have hd : (p.servicePoint stdin).dispatches = some vec :=
      (Machine.dispatches_eq_some_iff bound' enabled').mpr ⟨first.raised,
        first.highestPending_eq (top enabled' handled), first.programmed⟩
    exact ⟨_, Program.turn_dispatch hd⟩

/-- One call of service dispatches the lowest-numbered pending vector that has a
handler exactly when no vector without one is on top of it, and so does the loop. -/
theorem first_vector_is_dispatched (m : Machine) (bound : m.interrupts.bound = true)
    (room : 0x0101 ≤ m.state.sp ∧ m.state.sp ≤ 0x08FF) :
    (m.ServiceLaw ↔ m.HandlerOnTop) ∧
    ∀ (m₀ : Machine) (fcntlOk : Bool) (snapshot : Option AvrState)
      (trace : List (Input × Event)) (p : Program) (stop pause : Bool) (stdin : Option Byte)
      (vec : InterruptVector), Run Program.step anything (.start m₀ fcntlOk snapshot) trace p →
      p.control = .body → p.machine.state.getFlag .I = true → (p.servicePoint stdin).First vec →
      ((∃ q, p.step (.loop stop pause stdin) = some (.dispatched vec, q)) ↔
        (p.servicePoint stdin).HandlerOnTop) :=
  ⟨Machine.serviceLaw_iff bound room,
    fun _ _ _ _ _ _ _ _ _ run body enabled first =>
      Program.turn_first_iff (Program.run_bound run) body enabled first⟩

/-- I is set, TIMER0_COMPA and TIMER0_OVF are pending, and flash is all NOPs but
for the given word at the vector of TIMER0_COMPA. -/
def bothTimersPending (word : Byte) : Machine :=
  { Machine.initial { clearState .zero with
      sreg := 0x80
      flash := fun i => if i.val = 56 ∨ i.val = 57 then word else 0 } with
    interrupts := ⟨true, 0x14000⟩ }

theorem both_handlers_programmed : (bothTimersPending 0).ServiceLaw := by
  have top : (bothTimersPending 0).vectorWord (bothTimersPending 0).interrupts.highestPending ≠
      0xFFFF := by decide +kernel
  exact (first_vector_is_dispatched (bothTimersPending 0) rfl (by decide)).1.mpr fun _ _ => top

/-- With the vector of TIMER0_COMPA erased, TIMER0_OVF is not dispatched. -/
theorem erased_vector_hides_overflow :
    (bothTimersPending 0xFF).state.getFlag .I = true ∧
    (bothTimersPending 0xFF).First .TIMER0_OVF ∧
    ∃ m', interruptService.run (bothTimersPending 0xFF) = some (none, m') := by
  refine ⟨by decide, ⟨⟨by decide, by decide⟩, by decide, fun w raised programmed => ?_⟩, ?_⟩
  · have bits : ∀ k < 32, (0x14000 : BitVec 32).getLsbD k = true → k = 14 ∨ k = 16 := by decide
    have number := raised.number
    by_contra below
    rcases bits (w.toNat - 1) (by omega) raised.pending with low | high
    · have compA : w = .TIMER0_COMPA := BitVec.eq_of_toNat_eq (show w.toNat = 15 by omega)
      subst compA
      exact programmed (by decide)
    · have ovf : InterruptVector.TIMER0_OVF.toNat = 17 := rfl
      omega
  · exact ⟨_, Machine.run_service_idle (by decide +kernel)⟩

end AvrEmulator
