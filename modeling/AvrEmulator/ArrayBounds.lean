import AvrEmulator.Program

/-! Every array access is in bounds. A program of the model is undefined exactly
where it would index outside an array, so it suffices that all of them are
defined from every state. -/

namespace AvrEmulator

open Checked

/-- Each of the six accesses is defined exactly inside its array. -/
theorem accesses_checked (s : AvrState) (i : Nat) (v : Byte) :
    ((regAt i).run s).isSome = decide (i < 32) ∧
    ((setRegAt i v).run s).isSome = decide (i < 32) ∧
    ((flashAt i).run s).isSome = decide (i < 32768) ∧
    ((setFlashAt i v).run s).isSome = decide (i < 32768) ∧
    ((sramAt i).run s).isSome = decide (i < 2304) ∧
    ((setSramAt i v).run s).isSome = decide (i < 2304) := by
  have kept {β γ : Type} (o : Option β) (f : β → γ) :
      (o.bind fun a => some (f a)).isSome = o.isSome := by
    cases o <;> rfl
  have put {β γ : Type} (o : Option β) (f : β × AvrState → γ) :
      ((o.bind fun a => some (a, s)).bind fun a => some (f a)).isSome = o.isSome := by
    rw [kept, kept]
  exact ⟨(kept _ _).trans (s.r.isSome_read? i), (put _ _).trans (s.r.isSome_write? i v),
    (kept _ _).trans (s.flash.isSome_read? i), (put _ _).trans (s.flash.isSome_write? i v),
    (kept _ _).trans (s.sram.isSome_read? i), (put _ _).trans (s.sram.isSome_write? i v)⟩

theorem regAt_defined {i : Nat} (h : i < 32) : Defined (regAt i) := fun s => by
  rw [(accesses_checked s i 0).1, decide_eq_true h]

theorem setRegAt_defined {i : Nat} (v : Byte) (h : i < 32) : Defined (setRegAt i v) := fun s => by
  rw [(accesses_checked s i v).2.1, decide_eq_true h]

theorem flashAt_defined {i : Nat} (h : i < avrFlashSize) : Defined (flashAt i) := fun s => by
  rw [(accesses_checked s i 0).2.2.1, decide_eq_true h]

theorem setFlashAt_defined {i : Nat} (v : Byte) (h : i < avrFlashSize) :
    Defined (setFlashAt i v) := fun s => by
  rw [(accesses_checked s i v).2.2.2.1, decide_eq_true h]

theorem sramAt_defined {i : Nat} (h : i < avrSramSize) : Defined (sramAt i) := fun s => by
  rw [(accesses_checked s i 0).2.2.2.2.1, decide_eq_true h]

theorem setSramAt_defined {i : Nat} (v : Byte) (h : i < avrSramSize) :
    Defined (setSramAt i v) := fun s => by
  rw [(accesses_checked s i v).2.2.2.2.2, decide_eq_true h]

theorem onCpu_defined {α : Type} {x : Cpu α} (h : Defined x) : Defined (onCpu x) := h.zoom

theorem cpu_defined : CpuRules fun _ x => Defined x where
  pure := .pure
  bind := .bind
  state := .get
  change _ := .modify _
  regAt := regAt_defined
  setRegAt := setRegAt_defined
  flashAt := flashAt_defined
  sramAt := sramAt_defined

theorem callUartRead_defined (io : Byte) : Defined (callUartRead io) :=
  Defined.get.bind fun _ => (Defined.set _).bind fun _ => .pure _

theorem writeDataByte_defined (addr : Word) (value : Byte) :
    Defined (writeDataByte addr value) := by
  apply Defined.get.bind
  intro m
  split
  next low => exact onCpu_defined (setRegAt_defined _ (by bv_omega))
  split
  · exact .modify _
  split
  · exact .modify _
  split
  · exact .modify _
  split
  · exact .set _
  split
  · exact .modify _
  split
  · exact .modify _
  split
  · exact .modify _
  next inside => exact onCpu_defined (setSramAt_defined _ (sram_bound inside))

theorem executeSPM_defined : Defined executeSPM := by
  apply (cpu_defined.readRegWord (by decide)).bind
  intro pointer
  split
  · exact .pure _
  next inside =>
    have inside := Nat.not_le.mp inside
    exact (regAt_defined (by decide)).bind fun _ =>
      (setFlashAt_defined _ (Nat.lt_of_succ_lt inside)).bind fun _ =>
        (regAt_defined (by decide)).bind fun _ => setFlashAt_defined _ inside

theorem emu_defined : EmuRules (fun _ x => Defined x) fun _ x => Defined x where
  cpu := cpu_defined
  pure := .pure
  bind := .bind
  read _ rest := Defined.get.bind rest
  onCpu := onCpu_defined
  callUartRead := callUartRead_defined
  report _ := .modify _
  signal _ := .modify _

theorem executeInstruction_defined (op : Opcode) (instr secondWord : Word) :
    Defined (executeInstruction op instr secondWord) :=
  (dispatch_rules emu_defined op instr secondWord (fun _ => writeDataByte_defined)
    fun _ => executeSPM_defined).bind fun _ => .pure _

theorem interruptService_defined : Defined interruptService := by
  intro m
  rw [run_interruptService]
  split
  · rw [run_enterHandler]
    rfl
  · rfl

theorem execute_defined (f : Fetched) : Defined (execute f) := by
  refine (Defined.modify _).bind fun _ => (onCpu_defined (.modify _)).bind fun _ =>
    (executeInstruction_defined _ _ _).bind fun done => ?_
  split
  · exact .pure _
  apply (Defined.get.bind fun _ => .pure _).bind
  intro pending
  split
  · exact .pure _
  · exact (Defined.modify _).bind fun _ => .pure _

theorem fetchExecute_defined : Defined fetchExecute := by
  apply emu_defined.fetch.bind
  intro fetched
  split
  · exact .pure _
  · exact execute_defined _

theorem Program.turn_defined (p : Program) (stdin : Option Byte) :
    (p.turn stdin).isSome = true := by
  cases hd : (p.servicePoint stdin).dispatches with
  | some vec => rw [p.turn_dispatch hd, Option.isSome_some]
  | none => rw [p.turn_execute hd, Option.isSome_map, fetchExecute_defined]

/-- An access is defined exactly inside its array, and everything that fetch,
execution and interrupt service do is defined from every state. So no step of
`executeProgram` is undefined before its return. -/
theorem every_access_is_in_bounds :
    (∀ (s : AvrState) (i : Nat) (v : Byte),
      ((regAt i).run s).isSome = decide (i < 32) ∧
      ((setRegAt i v).run s).isSome = decide (i < 32) ∧
      ((flashAt i).run s).isSome = decide (i < 32768) ∧
      ((setFlashAt i v).run s).isSome = decide (i < 32768) ∧
      ((sramAt i).run s).isSome = decide (i < 2304) ∧
      ((setSramAt i v).run s).isSome = decide (i < 2304)) ∧
    (∀ (op : Opcode) (instr secondWord : Word) (m : Machine),
      ((executeInstruction op instr secondWord).run m).isSome = true) ∧
    (∀ m : Machine, (fetch.run m).isSome = true ∧ (interruptService.run m).isSome = true) ∧
    (∀ (p : Program) (i : Input),
      (p.step i).isSome = true ∨ ∃ result, p.control = .done result) := by
  refine ⟨accesses_checked, executeInstruction_defined,
    fun m => ⟨emu_defined.fetch m, interruptService_defined m⟩, fun p i => ?_⟩
  cases i with
  | injectRx | popTx => exact .inl rfl
  | loop stop pause stdin =>
    cases hc : p.control with
    | done result => exact .inr ⟨result, rfl⟩
    | body =>
      rw [Program.step_body hc]
      exact .inl (p.turn_defined stdin)
    | head =>
      rw [Program.step, hc]
      left
      dsimp only
      split <;> rfl
    | paused =>
      rw [Program.step, hc]
      left
      dsimp only
      split <;> rfl

end AvrEmulator
