import AvrEmulator.Executor.Rules

/-! What an instruction can do to the machine beside its data-space stores. -/

namespace AvrEmulator

open Checked

/-- A relation that everything but a data-space store respects: changes of the
CPU state, a received byte that is consumed, a fault, a report. -/
structure EmuFrame (R : Machine → Machine → Prop) : Prop extends IsPreorder Machine R where
  cpu : ∀ m s, R m (m.setState s)
  uart : ∀ m u, R m { m with uart := u }
  fault : ∀ m e, R m { m with fault := true, error := e }
  error : ∀ m e, R m { m with error := e }

namespace EmuFrame

variable {R : Machine → Machine → Prop} {α β : Type}

theorem onCpu (h : EmuFrame R) (x : Cpu α) : Respects R (AvrEmulator.onCpu x) :=
  respects_zoom h.cpu

theorem bind (h : EmuFrame R) {x : Emu α} {g : α → Emu β} (hx : Respects R x)
    (hg : ∀ a, Respects R (g a)) : Respects R (x >>= g) :=
  respects_bind h.toIsPreorder hx hg

theorem pure (h : EmuFrame R) (a : α) : Respects R (Pure.pure a : Emu α) :=
  respects_pure h.toIsPreorder a

theorem get (h : EmuFrame R) : Respects R (MonadState.get : Emu Machine) :=
  respects_get h.toIsPreorder

theorem setSp (h : EmuFrame R) (sp : Word) : Respects R (AvrEmulator.setSp sp) :=
  respects_modify fun m => h.cpu m _

theorem callUartRead (h : EmuFrame R) (io : Byte) : Respects R (AvrEmulator.callUartRead io) := by
  rintro m value m' hm
  cases hm
  exact h.uart m _

/-- A store is a change of the CPU state, a write to one peripheral or a fault. -/
theorem writeDataByte (h : EmuFrame R)
    (timer : ∀ m io value t, m.timer0.timer0Write io value = some t →
      R m { m with timer0 := t })
    (uart : ∀ m io value, R m { m with
      uart := (m.uart.uartWrite m.interrupts io value).1
      interrupts := (m.uart.uartWrite m.interrupts io value).2 })
    (addr : Word) (value : Byte) : Respects R (AvrEmulator.writeDataByte addr value) := by
  apply respects_get_bind
  intro m b m' hm
  split at hm
  · exact h.onCpu _ _ _ _ hm
  split at hm
  · exact h.setSp _ _ _ _ hm
  split at hm
  · exact h.setSp _ _ _ _ hm
  split at hm
  · cases hm
    exact h.cpu m _
  split at hm
  next t ht =>
    cases hm
    exact timer m _ _ t ht
  split at hm
  · cases hm
    exact uart m _ _
  split at hm
  · cases hm
    exact uart m _ _
  split at hm
  · cases hm
    exact h.fault m _
  · exact h.onCpu _ _ _ _ hm

theorem rules (h : EmuFrame R) : EmuRules (fun _ _ => True) fun _ x => Respects R x where
  cpu := .all
  pure := h.pure
  bind := h.bind
  read _ rest := h.bind h.get rest
  onCpu _ := h.onCpu _
  callUartRead := h.callUartRead
  report _ := respects_modify fun m => h.error m _
  signal _ := respects_modify fun m => h.fault m _

end EmuFrame

/-- What respects stores and everything else respects every instruction. -/
theorem dispatch_respects {R : Machine → Machine → Prop} (h : EmuFrame R) (op : Opcode)
    (instr secondWord : Word)
    (write : op.op.stores = true → ∀ addr value, Respects R (writeDataByte addr value)) :
    Respects R (dispatch op instr secondWord) :=
  dispatch_rules h.rules op instr secondWord write fun _ => trivial

end AvrEmulator
