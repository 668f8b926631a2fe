import AvrEmulator.UartAccess

/-! USART interrupts. The UART raises its vectors at events, and nothing but
service takes a raised vector back. -/

namespace AvrEmulator

open Transition

namespace Uart

/-- The three interrupts of the USART. -/
inductive Source where
  | rx | udre | tx
  deriving DecidableEq, Repr

def Source.vector : Source → InterruptVector
  | .rx => .USART_RX
  | .udre => .USART_UDRE
  | .tx => .USART_TX

/-- The source's enable bit in UCSR0B: RXCIE0, UDRIE0, TXCIE0. -/
def Source.bit : Source → Nat
  | .rx => 7
  | .udre => 5
  | .tx => 6

def enables (u : Uart) (src : Source) : Bool := sregBit u.ucsrb src.bit

/-- The source is enabled, and for USART_RX a received byte is unread. -/
def Backs (u : Uart) (src : Source) : Prop :=
  u.enables src = true ∧ (src = .rx → u.rxReady = true)

theorem Source.vector_bound (src : Source) : src.vector.toNat ≤ 32 := by cases src <;> decide

theorem Source.sameBit_vector (a b : Source) :
    Interrupts.sameBit a.vector b.vector = decide (a = b) := by
  cases a <;> cases b <;> decide

theorem isPending_raise (i : Interrupts) (raised src : Source) :
    (i.interruptRaise raised.vector).isPending src.vector = true ↔
      i.isPending src.vector = true ∨ src = raised := by
  rw [Interrupts.isPending_raise _ src.vector_bound, Source.sameBit_vector, Bool.or_eq_true,
    decide_eq_true_eq]

theorem latch_ucsrb (u : Uart) (stdin : Option Byte) : (u.latch stdin).2.ucsrb = u.ucsrb := by
  unfold latch
  split <;> split <;> rfl

/-- A poll latches a byte into an empty buffer only. -/
theorem latch_ready (u : Uart) (stdin : Option Byte) :
    (u.latch stdin).2.rxReady = (u.rxReady || (u.latch stdin).1) := by
  unfold latch rxReady
  cases tui : u.tuiMode with
  | true =>
    rw [if_pos rfl, if_pos rfl]
    split <;> simp [tui]
  | false =>
    rw [if_neg Bool.false_ne_true, if_neg Bool.false_ne_true]
    split <;> simp [tui]

theorem consumeByte_frame (u : Uart) :
    u.consumeByte.2.ucsrb = u.ucsrb ∧ u.consumeByte.2.rxReady = false := by
  unfold consumeByte rxReady
  cases tui : u.tuiMode with
  | true => cases ready : u.rxHwReady <;> simp [tui, ready]
  | false => cases ready : u.stdinReady <;> simp [tui, ready]

theorem transmit_frame (u : Uart) (i : Interrupts) (value : Byte) :
    (u.transmit i value).1.ucsrb = u.ucsrb ∧ (u.transmit i value).1.rxReady = u.rxReady := by
  unfold transmit rxReady
  cases u.tuiMode <;> simp

theorem uartPoll_pending (u : Uart) (i : Interrupts) (stdin : Option Byte) (src : Source) :
    (u.uartPoll i stdin).2.isPending src.vector = true ↔ i.isPending src.vector = true ∨
      src = .rx ∧ (u.latch stdin).1 = true ∧ u.enables .rx = true := by
  have bit : u.enables .rx = sregBit (u.latch stdin).2.ucsrb 7 := by
    rw [latch_ucsrb]
    rfl
  rw [bit]
  unfold uartPoll
  dsimp only
  split
  next raised =>
    rw [Bool.and_eq_true] at raised
    simp only [raised, and_true]
    exact isPending_raise i .rx src
  next quiet =>
    rw [Bool.and_eq_true] at quiet
    simp only [quiet, and_false, or_false]

theorem writeControl_pending (u : Uart) (i : Interrupts) (value : Byte) (src : Source) :
    (u.writeControl i value).2.isPending src.vector = true ↔
      i.isPending src.vector = true ∨ src = .udre ∧ sregBit value 5 = true := by
  unfold writeControl
  dsimp only
  split
  next raised =>
    simp only [raised, and_true]
    exact isPending_raise i .udre src
  next quiet => simp only [quiet, Bool.false_eq_true, and_false, or_false]

theorem transmit_pending (u : Uart) (i : Interrupts) (value : Byte) (src : Source) :
    (u.transmit i value).2.isPending src.vector = true ↔
      i.isPending src.vector = true ∨ src ≠ .rx ∧ u.enables src = true := by
  have raise (raised : Source) (enabled : Bool) (j : Interrupts) :
      (if enabled then j.interruptRaise raised.vector else j).isPending src.vector = true ↔
        j.isPending src.vector = true ∨ src = raised ∧ enabled = true := by
    cases enabled
    · simp
    · simpa using isPending_raise j raised src
  have ucsrb : (if u.tuiMode then { u with txBuffer := u.txBuffer ++ [value] }
      else { u with stdout := u.stdout ++ [value] }).ucsrb = u.ucsrb := by
    split <;> rfl
  unfold transmit
  dsimp only
  rw [ucsrb]
  apply ((raise .udre _ _).trans (or_congr_left (raise .tx _ _))).trans
  cases src <;> simp [enables, Source.bit]

end Uart

theorem raiseTimer0_pending (m : Machine) (src : Uart.Source) :
    (raiseTimer0 m).interrupts.isPending src.vector = m.interrupts.isPending src.vector := by
  have raise (raised : Bool) (timer : Timer0.Source) (m : Machine) :
      (raiseIf raised timer.vector m).interrupts.isPending src.vector =
        m.interrupts.isPending src.vector := by
    have apart : Interrupts.sameBit src.vector timer.vector = false := by
      cases src <;> cases timer <;> decide
    unfold raiseIf
    split
    · rw [Interrupts.isPending_raise _ src.vector_bound, apart, Bool.or_false]
    · rfl
  exact (raise _ .compB _).trans ((raise _ .compA _).trans (raise _ .overflow m))

/-- Settling takes the candidate off the pending set and no other vector. -/
theorem settled_pending (m : Machine) (src : Uart.Source) :
    m.settled.interrupts.isPending src.vector = true ↔
      m.interrupts.isPending src.vector = true ∧ m.candidate ≠ some src.vector := by
  unfold Machine.settled
  cases taken : m.candidate with
  | none => simp
  | some vec =>
    have number : 1 ≤ vec.toNat := by
      obtain ⟨rfl, some⟩ := highestPending_of_candidate taken
      have := Interrupts.highestPending_number (Interrupts.pending_ne_zero some)
      omega
    have bits : Interrupts.sameBit src.vector vec = true ↔ vec = src.vector := by
      have : 1 ≤ src.vector.toNat := by cases src <;> decide
      rw [Interrupts.sameBit, decide_eq_true_eq, ← BitVec.toNat_inj]
      omega
    rw [Interrupts.isPending_drop _ src.vector_bound, Bool.and_eq_true, Bool.not_eq_true',
      ← Bool.not_eq_true, bits, ne_eq, Option.some.injEq]

/-- The access raises the source's vector. -/
def Raises (m : Machine) (src : Uart.Source) : Access → Prop
  | .poll stdin => src = .rx ∧ (m.uart.latch stdin).1 = true ∧ m.uart.enables .rx = true
  | .store addr value =>
    ControlRegister addr ∧ src = .udre ∧ sregBit value 5 = true ∨
      DataRegister addr ∧ src ≠ .rx ∧ m.uart.enables src = true
  | _ => False

/-- A vector is pending after a step if it was pending and service did not take it
up, or if the step raised it. -/
theorem Effect.pending {m : Machine} {a : Access} {seen : Seen} {u : Uart} {i : Interrupts}
    (h : Effect m a seen u i) (src : Uart.Source) : i.isPending src.vector = true ↔
      m.interrupts.isPending src.vector = true ∧ (∀ d, seen ≠ .took src.vector d) ∨
        Raises m src a := by
  cases h with
  | injectRx | popTx | readData | read | other => simp [Raises]
  | poll stdin => simp [Raises, Uart.uartPoll_pending]
  | writeData value data =>
    have control : ¬ ControlRegister _ := fun h => control_not_data h data
    simp [Raises, Uart.transmit_pending, data, control]
  | writeControl value control =>
    simp [Raises, Uart.writeControl_pending, control, control_not_data control]
  | write value ubrrl ucsrc data control => simp [Raises, data, control]
  | raiseTimer0 => simp [Raises, raiseTimer0_pending]
  | service =>
    rw [settled_pending]
    cases m.candidate <;> simp [Raises]

/-- What a store to UCSR0B sets the source's enable bit to. -/
def Uart.Source.setTo (src : Uart.Source) : Access → Option Bool
  | .store addr value => if ControlRegister addr then some (sregBit value src.bit) else none
  | _ => none

/-- The access reads UDR0 and so consumes a received byte. -/
def Access.consumes : Access → Bool
  | .load addr => DataRegister addr
  | _ => false

theorem Effect.enables {m : Machine} {a : Access} {seen : Seen} {u : Uart} {i : Interrupts}
    (h : Effect m a seen u i) (src : Uart.Source) :
    u.enables src = (src.setTo a).getD (m.uart.enables src) := by
  cases h with
  | injectRx | popTx | read | other | raiseTimer0 | service => rfl
  | poll stdin =>
    rw [Uart.uartPoll_fst, Uart.enables, Uart.latch_ucsrb]
    rfl
  | readData data =>
    rw [Uart.enables, m.uart.consumeByte_frame.1]
    rfl
  | writeData value data =>
    rw [Uart.enables, (m.uart.transmit_frame m.interrupts value).1, Uart.Source.setTo,
      if_neg fun control => control_not_data control data]
    rfl
  | writeControl value control =>
    rw [Uart.writeControl_fst, Uart.Source.setTo, if_pos control]
    rfl
  | write value ubrrl ucsrc data control =>
    rw [Uart.Source.setTo, if_neg control]
    rfl

theorem Effect.rxReady {m : Machine} {a : Access} {seen : Seen} {u : Uart} {i : Interrupts}
    (h : Effect m a seen u i) : u.rxReady = true ↔
      m.uart.rxReady = true ∧ a.consumes = false ∨ seen = .polled true := by
  cases h with
  | injectRx | popTx | write =>
    simp only [Access.consumes, and_true, reduceCtorEq, or_false]
    rfl
  | other | raiseTimer0 => simp [Access.consumes]
  | poll stdin => simp [Access.consumes, Uart.uartPoll_fst, Uart.latch_ready]
  | readData data => simp [Access.consumes, m.uart.consumeByte_frame.2, data]
  | read value data => simp [Access.consumes, data]
  | writeData value data =>
    simp [Access.consumes, (m.uart.transmit_frame m.interrupts value).2]
  | writeControl value control =>
    simp [Access.consumes, Uart.writeControl_fst, Uart.rxReady]
  | service => cases m.candidate <;> simp [Access.consumes]

theorem Effect.took {m : Machine} {a : Access} {seen : Seen} {u : Uart} {i : Interrupts}
    {vec : InterruptVector} {d : Bool} (h : Effect m a seen u i) (shown : seen = .took vec d) :
    a = .service := by
  cases h <;> first | rfl | cases shown

theorem Effect.polled {m : Machine} {a : Access} {seen : Seen} {u : Uart} {i : Interrupts}
    {ready : Bool} (h : Effect m a seen u i) (shown : seen = .polled ready) :
    ∃ stdin, a = .poll stdin := by
  cases h with
  | poll stdin => exact ⟨stdin, rfl⟩
  | service =>
    cases hc : m.candidate with
    | none =>
      rw [hc] at shown
      cases shown
    | some vec =>
      rw [hc] at shown
      cases shown
  | injectRx | popTx | readData | read | writeData | writeControl | write | other | raiseTimer0 =>
    cases shown

/-! ## No spurious interrupt -/

/-- Every pending source is enabled, and an unread byte backs USART_RX. -/
def Backed (u : Uart) (i : Interrupts) : Prop :=
  ∀ src : Uart.Source, i.isPending src.vector = true → u.Backs src

/-- The access takes back neither the enable bit of a pending source nor the
byte of a pending USART_RX. -/
def Machine.Spares (m : Machine) (a : Access) : Prop :=
  ∀ src : Uart.Source, m.interrupts.isPending src.vector = true →
    src.setTo a ≠ some false ∧ (src = .rx → a.consumes = false)

instance (m : Machine) (a : Access) : Decidable (m.Spares a) :=
  decidable_of_iff (∀ src ∈ [Uart.Source.rx, .udre, .tx],
    m.interrupts.isPending src.vector = true →
      src.setTo a ≠ some false ∧ (src = .rx → a.consumes = false))
    ⟨fun h src => h src (by cases src <;> decide), fun h src _ => h src⟩

/-- What raises a source finds it enabled, and USART_RX its byte. -/
theorem Effect.raised {m : Machine} {a : Access} {seen : Seen} {u : Uart} {i : Interrupts}
    (h : Effect m a seen u i) {src : Uart.Source} (raised : Raises m src a) : u.Backs src := by
  have enables := h.enables src
  have rxReady := h.rxReady
  cases h with
  | poll stdin =>
    obtain ⟨rfl, latched, enabled⟩ := raised
    exact ⟨enables.trans enabled, fun _ => rxReady.mpr (.inr (by rw [latched]))⟩
  | writeData value data =>
    obtain ⟨control, -⟩ | ⟨-, notRx, enabled⟩ := raised
    · exact absurd data (control_not_data control)
    · rw [Uart.Source.setTo, if_neg fun control => control_not_data control data] at enables
      exact ⟨enables.trans enabled, fun rx => absurd rx notRx⟩
  | writeControl value control =>
    obtain ⟨-, rfl, bit⟩ | ⟨data, -⟩ := raised
    · rw [Uart.Source.setTo, if_pos control] at enables
      exact ⟨enables.trans bit, fun rx => by cases rx⟩
    · exact absurd data (control_not_data control)
  | write value ubrrl ucsrc data control =>
    obtain ⟨control', -⟩ | ⟨data', -⟩ := raised
    · exact absurd control' control
    · exact absurd data' data
  | injectRx | popTx | readData | read | other | raiseTimer0 | service => cases raised

/-- A step keeps every pending source backed exactly when it spares them. -/
theorem Effect.backed_iff {m : Machine} {a : Access} {seen : Seen} {u : Uart} {i : Interrupts}
    (h : Effect m a seen u i) (old : Backed m.uart m.interrupts) :
    Backed u i ↔ m.Spares a := by
  constructor
  · intro new src pending
    by_cases taken : ∃ d, seen = .took src.vector d
    · obtain ⟨d, taken⟩ := taken
      obtain rfl := h.took taken
      exact ⟨fun cleared => (by cases cleared), fun _ => rfl⟩
    · have backs := new src ((h.pending src).mpr (.inl ⟨pending, not_exists.mp taken⟩))
      constructor
      · intro cleared
        have enables := h.enables src
        rw [cleared] at enables
        exact absurd (enables.symm.trans backs.1) Bool.false_ne_true
      · intro rx
        obtain ⟨-, kept⟩ | polled := h.rxReady.mp (backs.2 rx)
        · exact kept
        · obtain ⟨stdin, rfl⟩ := h.polled polled
          rfl
  · intro spares src pending
    obtain ⟨before, -⟩ | raised := (h.pending src).mp pending
    · obtain ⟨set, unread⟩ := spares src before
      obtain ⟨enabled, ready⟩ := old src before
      constructor
      · rw [h.enables src, enabled]
        cases hs : src.setTo a with
        | none => rfl
        | some bit =>
          cases bit
          · exact absurd hs set
          · rfl
      · intro rx
        exact h.rxReady.mpr (.inl ⟨ready rx, unread rx⟩)
    · exact h.raised raised

/-- Service dispatches only what is pending. -/
theorem dispatched_pending {m m' : Machine} {vec : InterruptVector}
    (taken : m.access .service = some (.took vec true, m')) :
    m.interrupts.isPending vec = true := by
  obtain ⟨⟨result, m₁⟩, -, shown⟩ := Option.map_eq_some_iff.mp taken
  cases hc : m.candidate with
  | none =>
    rw [hc] at shown
    cases shown
  | some w =>
    rw [hc] at shown
    simp only [Option.map_some, Option.getD_some, Prod.mk.injEq, Seen.took.injEq] at shown
    obtain ⟨⟨rfl, -⟩, -⟩ := shown
    exact candidate_pending hc

/-- In every run whose steps spare the pending sources, a dispatched USART vector is
enabled at that moment, and USART_RX has an unread byte. One step keeps every
pending source backed exactly when it spares them. -/
theorem no_spurious_usart_interrupt (m m' : Machine) :
    (∀ (m₀ : Machine) (trace : List (Access × Seen)) (src : Uart.Source),
      m₀.interrupts.pending = 0 → Run Machine.access Machine.Spares m₀ trace m →
      m.access .service = some (.took src.vector true, m') →
      m.uart.enables src = true ∧ (src = .rx → sregBit m.uart.ucsra 7 = true)) ∧
    (∀ (a : Access) (seen : Seen), Backed m.uart m.interrupts →
      m.access a = some (seen, m') → (Backed m'.uart m'.interrupts ↔ m.Spares a)) := by
  constructor
  · intro m₀ trace src empty run taken
    have init : Backed m₀.uart m₀.interrupts := by
      intro src pending
      simp [Interrupts.isPending, empty] at pending
    have backed : Backed m.uart m.interrupts :=
      run.invariant (fun p a seen q old spares step =>
        ((access_effect step).backed_iff old).mpr spares) init
    rw [Uart.ucsra_rxc]
    exact backed src (dispatched_pending taken)
  · intro a seen old taken
    exact (access_effect taken).backed_iff old

/-- A reset machine in TUI mode with no interrupt pending. -/
def usartStart : Machine :=
  { Machine.initial (clearState .zero) with
    uart := Uart.initial.uartSetTuiMode
    interrupts := ⟨true, 0⟩ }

/-- The program sets I. -/
def enableI : Access := .other (Machine.initial { clearState .zero with sreg := 0x80 })

theorem received_byte_is_dispatched : ∃ m m',
    Run Machine.access Machine.Spares usartStart
      [(.store 0xC1 0x80, .nothing), (.injectRx 0x41, .nothing), (.poll none, .polled true),
        (enableI, .nothing)] m ∧
    m.access .service = some (.took .USART_RX true, m') ∧
    m.uart.enables .rx = true ∧ sregBit m.uart.ucsra 7 = true := by
  have shown : (feed Machine.access Machine.Spares usartStart [.store 0xC1 0x80, .injectRx 0x41,
      .poll none, enableI]).map (fun p => (p.1, (p.2.access .service).map Prod.fst)) =
        some ([.nothing, .nothing, .polled true, .nothing], some (.took .USART_RX true)) := by
    decide +kernel
  obtain ⟨⟨es, m⟩, fed, shown⟩ := Option.map_eq_some_iff.mp shown
  obtain ⟨rfl, shown⟩ := Prod.mk.inj shown
  obtain ⟨⟨e, m'⟩, taken, rfl⟩ := Option.map_eq_some_iff.mp shown
  have run := run_of_feed fed
  have backed := (no_spurious_usart_interrupt m m').1 _ _ .rx rfl run taken
  exact ⟨m, m', run, taken, backed.1, backed.2 rfl⟩

/-- A byte arrives under RXCIE0, the program clears RXCIE0 and then sets I:
USART_RX is dispatched all the same. -/
theorem disabled_source_is_dispatched : ∃ m m',
    Run Machine.access anything usartStart
      [(.store 0xC1 0x80, .nothing), (.injectRx 0x41, .nothing), (.poll none, .polled true),
        (.store 0xC1 0x00, .nothing), (enableI, .nothing)] m ∧
    m.access .service = some (.took .USART_RX true, m') ∧ m.uart.enables .rx = false := by
  have shown : (feed Machine.access anything usartStart [.store 0xC1 0x80, .injectRx 0x41,
      .poll none, .store 0xC1 0x00, enableI]).map
        (fun p => (p.1, (p.2.access .service).map Prod.fst, p.2.uart.enables .rx)) =
        some ([.nothing, .nothing, .polled true, .nothing, .nothing],
          some (.took .USART_RX true), false) := by
    decide +kernel
  obtain ⟨⟨es, m⟩, fed, shown⟩ := Option.map_eq_some_iff.mp shown
  obtain ⟨rfl, shown⟩ := Prod.mk.inj shown
  obtain ⟨shown, disabled⟩ := Prod.mk.inj shown
  obtain ⟨⟨e, m'⟩, taken, rfl⟩ := Option.map_eq_some_iff.mp shown
  exact ⟨m, m', run_of_feed fed, taken, disabled⟩

end AvrEmulator
