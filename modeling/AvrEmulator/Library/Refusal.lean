import AvrEmulator.Library.Checked

/-! Programs that may refuse their input. Each is a checked state program that
returns a value or an error, and a specification says exactly when it refuses. -/

namespace Checked

variable {σ ε α β : Type}

/-- From `s`, the program accepts and ensures `Q` when `P` holds, and refuses when it
does not. It is never undefined. -/
structure Decides (x : ExceptT ε (StateT σ Option) α) (s : σ) (P : Prop) (Q : α → σ → Prop) :
    Prop where
  accepts : P → ∃ a t, x.run.run s = some (.ok a, t) ∧ Q a t
  refuses : ¬ P → ∃ e t, x.run.run s = some (.error e, t)

def refuseIf (c : Prop) [Decidable c] (e : ε) : ExceptT ε (StateT σ Option) Unit :=
  if c then throw e else pure ()

namespace Decides

variable {s : σ} {P R : Prop} {Q Q' : α → σ → Prop}

theorem congr {x : ExceptT ε (StateT σ Option) α} (h : Decides x s P Q) (same : P ↔ R) :
    Decides x s R Q :=
  ⟨fun p => h.accepts (same.mpr p), fun p => h.refuses fun q => p (same.mp q)⟩

theorem weaken {x : ExceptT ε (StateT σ Option) α} (h : Decides x s P Q)
    (ensures : P → ∀ a t, Q a t → Q' a t) : Decides x s P Q' := by
  refine ⟨fun p => ?_, h.refuses⟩
  obtain ⟨a, t, run, q⟩ := h.accepts p
  exact ⟨a, t, run, ensures p a t q⟩

theorem pure {a : α} (p : P) (q : Q a s) :
    Decides (pure a : ExceptT ε (StateT σ Option) α) s P Q :=
  ⟨fun _ => ⟨a, s, rfl, q⟩, fun refused => absurd p refused⟩

theorem throw {e : ε} (refused : ¬ P) :
    Decides (throw e : ExceptT ε (StateT σ Option) α) s P Q :=
  ⟨fun p => absurd p refused, fun _ => ⟨e, s, rfl⟩⟩

theorem lift {x : StateT σ Option α} {a : α} {t : σ} (run : x.run s = some (a, t)) :
    Decides (liftM x : ExceptT ε (StateT σ Option) α) s True (fun b u => b = a ∧ u = t) := by
  refine ⟨fun _ => ⟨a, t, ?_, rfl, rfl⟩, fun refused => absurd trivial refused⟩
  exact run_bind_of run fun a => Pure.pure (Except.ok a)

theorem modify (g : σ → σ) :
    Decides (modify g : ExceptT ε (StateT σ Option) PUnit) s True (fun _ t => t = g s) :=
  ⟨fun _ => ⟨⟨⟩, g s, rfl, rfl⟩, fun refused => absurd trivial refused⟩

/-- The second program runs only once the first has accepted. -/
theorem bind {x : ExceptT ε (StateT σ Option) α} {f : α → ExceptT ε (StateT σ Option) β}
    {Q' : β → σ → Prop} (hx : Decides x s P Q) (hf : P → ∀ a t, Q a t → Decides (f a) t R Q') :
    Decides (x >>= f) s (P ∧ R) Q' := by
  have run_bind {r : Except ε α} {t : σ} (run : x.run.run s = some (r, t)) :
      (x >>= f).run.run s = (ExceptT.bindCont f r).run t := run_bind_of run _
  by_cases p : P
  · obtain ⟨a, t, run, q⟩ := hx.accepts p
    have rest := hf p a t q
    constructor
    · intro both
      rw [run_bind run]
      exact rest.accepts both.2
    · intro refused
      rw [run_bind run]
      exact rest.refuses fun r => refused ⟨p, r⟩
  · obtain ⟨e, t, run⟩ := hx.refuses p
    refine ⟨fun both => absurd both.1 p, fun _ => ⟨e, t, ?_⟩⟩
    rw [run_bind run]
    rfl

/-- After a program that always accepts, the rest decides. -/
theorem after {x : ExceptT ε (StateT σ Option) α} {f : α → ExceptT ε (StateT σ Option) β}
    {Q' : β → σ → Prop} (hx : Decides x s True Q) (hf : ∀ a t, Q a t → Decides (f a) t R Q') :
    Decides (x >>= f) s R Q' :=
  (hx.bind fun _ => hf).congr (iff_of_eq (true_and R))

theorem refuseIf {c : Prop} [Decidable c] {e : ε} (s : σ) :
    Decides (refuseIf c e) s (¬ c) (fun _ t => t = s) := by
  unfold Checked.refuseIf
  split
  next refused => exact .throw (not_not_intro refused)
  next accepted => exact .pure accepted rfl

theorem forM {f : α → ExceptT ε (StateT σ Option) PUnit} {ok : α → Prop}
    (h : ∀ a, Decides (f a) s (ok a) (fun _ t => t = s)) (l : List α) :
    Decides (l.forM f) s (∀ a ∈ l, ok a) (fun _ t => t = s) := by
  induction l with
  | nil => exact .pure (by simp) rfl
  | cons a l ih =>
    refine ((h a).bind (R := ∀ b ∈ l, ok b) ?_).congr List.forall_mem_cons.symm
    rintro - - t rfl
    exact ih

theorem mapM {f : α → ExceptT ε (StateT σ Option) β} {g : α → β} {l : List α}
    (h : ∀ a ∈ l, Decides (f a) s True (fun b t => b = g a ∧ t = s)) :
    Decides (l.mapM f) s True (fun bs t => bs = l.map g ∧ t = s) := by
  induction l with
  | nil => exact .pure trivial ⟨rfl, rfl⟩
  | cons a l ih =>
    rw [List.mapM_cons]
    apply (h a List.mem_cons_self).after
    rintro b t ⟨rfl, rfl⟩
    refine (ih fun c hc => h c (List.mem_cons_of_mem _ hc)).after ?_
    rintro bs t ⟨rfl, rfl⟩
    exact .pure trivial ⟨rfl, rfl⟩

end Decides

end Checked
