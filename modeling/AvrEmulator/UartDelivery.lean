import AvrEmulator.UartInterrupts

/-! Delivery of USART interrupts. A raised vector stays pending until service takes
it up, and afterwards it is raised again only by a new event. -/

namespace AvrEmulator

open Transition

/-- Service took the vector up somewhere in the trace. -/
def TakenUp (src : Uart.Source) (trace : List (Access × Seen)) : Prop :=
  ∃ x ∈ trace, ∃ d, x.2 = .took src.vector d

theorem pending_or_taken (src : Uart.Source) {ok : Machine → Access → Prop} {m m' : Machine}
    {trace : List (Access × Seen)} (run : Run Machine.access ok m trace m')
    (pending : m.interrupts.isPending src.vector = true) :
    m'.interrupts.isPending src.vector = true ∨ TakenUp src trace := by
  induction run with
  | nil => exact .inl pending
  | @cons m m₁ m' a seen trace _ taken rest ih =>
    by_cases up : ∃ d, seen = .took src.vector d
    · exact .inr ⟨(a, seen), List.mem_cons_self, up⟩
    · rcases ih (((access_effect taken).pending src).mpr (.inl ⟨pending, not_exists.mp up⟩)) with
        still | ⟨x, hx, later⟩
      · exact .inl still
      · exact .inr ⟨x, List.mem_cons_of_mem _ hx, later⟩

/-- The step latches a received byte. -/
def Latches (_ : Access) (seen : Seen) : Prop := seen = .polled true

/-- The step stores to UDR0 or UCSR0B, which raises USART_UDRE under UDRIE0. -/
def Arms (a : Access) (_ : Seen) : Prop :=
  ∃ addr value, a = .store addr value ∧ (DataRegister addr ∨ ControlRegister addr)

/-- A byte latched under RXCIE0 leaves USART_RX pending until it is taken up. -/
theorem latched_pending {m m' : Machine} {stdin : Option Byte} (enabled : m.uart.enables .rx = true)
    (taken : m.access (.poll stdin) = some (.polled true, m')) :
    m'.interrupts.isPending .USART_RX = true := by
  have latched : (m.uart.latch stdin).1 = true := by
    simp only [Machine.access, Option.some.injEq, Prod.mk.injEq, Seen.polled.injEq] at taken
    exact taken.1
  exact ((access_effect taken).pending .rx).mpr (.inr ⟨rfl, latched, enabled⟩)

/-- A store to UDR0 or UCSR0B that finds or leaves UDRIE0 set leaves USART_UDRE pending. -/
theorem armed_pending {m m' : Machine} {addr : Word} {value : Byte} {seen : Seen}
    (register : DataRegister addr ∨ ControlRegister addr)
    (taken : m.access (.store addr value) = some (seen, m'))
    (enabled : m'.uart.enables .udre = true) :
    m'.interrupts.isPending .USART_UDRE = true := by
  have effect := access_effect taken
  have kept := effect.enables .udre
  rw [enabled, Uart.Source.setTo] at kept
  refine (effect.pending .udre).mpr (.inr ?_)
  rcases register with data | control
  · rw [if_neg fun control => control_not_data control data] at kept
    exact .inr ⟨data, by decide, kept.symm⟩
  · rw [if_pos control] at kept
    exact .inl ⟨control, rfl, kept.symm⟩

/-- An unread byte was latched by some poll, and if RXCIE0 was set there, USART_RX is
pending or service took it up since. While UDRIE0 is set, USART_UDRE is pending or
service took it up since the last store to UDR0 or UCSR0B. -/
theorem usart_interrupt_is_pending_or_taken {m₀ m : Machine} {trace : List (Access × Seen)}
    (unread : m₀.uart.rxReady = false) (disabled : m₀.uart.enables .udre = false)
    (run : Run Machine.access anything m₀ trace m) :
    (sregBit m.uart.ucsra 7 = true → ∃ before stdin later p,
      trace = before ++ (.poll stdin, .polled true) :: later ∧
      Run Machine.access anything m₀ before p ∧ (∀ x ∈ later, ¬ Latches x.1 x.2) ∧
      (p.uart.enables .rx = true →
        m.interrupts.isPending .USART_RX = true ∨ TakenUp .rx later)) ∧
    (m.uart.enables .udre = true → ∃ before addr value seen later,
      trace = before ++ (.store addr value, seen) :: later ∧
      (DataRegister addr ∨ ControlRegister addr) ∧ (∀ x ∈ later, ¬ Arms x.1 x.2) ∧
      (m.interrupts.isPending .USART_UDRE = true ∨ TakenUp .udre later)) := by
  constructor
  · intro full
    rw [Uart.ucsra_rxc] at full
    have enters (p : Machine) (a : Access) (seen : Seen) (q : Machine)
        (taken : p.access a = some (seen, q)) (ready : q.uart.rxReady = true) :
        p.uart.rxReady = true ∨ Latches a seen :=
      ((access_effect taken).rxReady.mp ready).imp_left And.left
    obtain ⟨before, a, seen, later, p, q, rfl, rfl, first, taken, -, rest, none⟩ :=
      run.since (P := fun m => m.uart.rxReady = true) (by simp [unread]) full enters
    obtain ⟨stdin, rfl⟩ := (access_effect taken).polled rfl
    exact ⟨before, stdin, later, p, rfl, first, none, fun enabled =>
      pending_or_taken .rx rest (latched_pending enabled taken)⟩
  · intro enabled
    have enters (p : Machine) (a : Access) (seen : Seen) (q : Machine)
        (taken : p.access a = some (seen, q)) (enabled : q.uart.enables .udre = true) :
        p.uart.enables .udre = true ∨ Arms a seen := by
      rw [(access_effect taken).enables .udre] at enabled
      cases a with
      | store addr value =>
        by_cases control : ControlRegister addr
        · exact .inr ⟨addr, value, rfl, .inr control⟩
        · rw [Uart.Source.setTo, if_neg control] at enabled
          exact .inl enabled
      | injectRx | popTx | poll | load | other | raiseTimer0 | service => exact .inl enabled
    obtain ⟨before, a, seen, later, p, q, rfl, ⟨addr, value, rfl, register⟩, -, taken, into,
        rest, none⟩ :=
      run.since (P := fun m => m.uart.enables .udre = true) (by simp [disabled]) enabled enters
    exact ⟨before, addr, value, seen, later, rfl, register, none,
      pending_or_taken .udre rest (armed_pending register taken into)⟩

theorem enabled_source_is_pending : ∃ m,
    Run Machine.access anything usartStart
      [(.store 0xC1 0xA0, .nothing), (.injectRx 0x41, .nothing), (.poll none, .polled true)] m ∧
    m.interrupts.isPending .USART_UDRE = true := by
  have shown : (feed Machine.access anything usartStart [.store 0xC1 0xA0, .injectRx 0x41,
      .poll none]).map (fun p => (p.1, p.2.uart.enables .udre)) =
        some ([.nothing, .nothing, .polled true], true) := by decide +kernel
  obtain ⟨⟨es, m⟩, fed, shown⟩ := Option.map_eq_some_iff.mp shown
  obtain ⟨rfl, enabled⟩ := Prod.mk.inj shown
  have run := run_of_feed fed
  refine ⟨m, run, ?_⟩
  obtain ⟨before, addr, value, seen, later, split, -, -, pending | ⟨x, hx, d, up⟩⟩ :=
    (usart_interrupt_is_pending_or_taken (by decide) (by decide) run).2 enabled
  · exact pending
  · have member : x ∈ before ++ (Access.store addr value, seen) :: later :=
      List.mem_append_right _ (List.mem_cons_of_mem _ hx)
    rw [← split] at member
    simp only [List.zip_cons_cons, List.zip_nil_right, List.mem_cons, List.not_mem_nil,
      or_false] at member
    rcases member with rfl | rfl | rfl <;> cases up

/-- Once USART_RX is dispatched it is not pending, though the byte is still unread
and RXCIE0 still set. -/
theorem dispatched_byte_is_not_pending : ∃ m,
    Run Machine.access anything usartStart
      [(.store 0xC1 0x80, .nothing), (.injectRx 0x41, .nothing), (.poll none, .polled true),
        (enableI, .nothing), (.service, .took .USART_RX true)] m ∧
    sregBit m.uart.ucsra 7 = true ∧ m.uart.enables .rx = true ∧
    m.interrupts.isPending .USART_RX = false := by
  have shown : (feed Machine.access anything usartStart [.store 0xC1 0x80, .injectRx 0x41,
      .poll none, enableI, .service]).map (fun p => (p.1, sregBit p.2.uart.ucsra 7,
        p.2.uart.enables .rx, p.2.interrupts.isPending .USART_RX)) =
        some ([.nothing, .nothing, .polled true, .nothing, .took .USART_RX true],
          true, true, false) := by decide +kernel
  obtain ⟨⟨es, m⟩, fed, shown⟩ := Option.map_eq_some_iff.mp shown
  simp only [Prod.mk.injEq] at shown
  obtain ⟨rfl, full, enabled, idle⟩ := shown
  exact ⟨m, run_of_feed fed, full, enabled, idle⟩

end AvrEmulator
