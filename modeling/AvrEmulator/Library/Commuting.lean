import AvrEmulator.Library.Checked

/-! Changes of the state that a program does not notice: made before it or after it, they
give the same result and the same state. -/

namespace Checked

variable {σ τ α β : Type}

def Commutes (F : σ → σ) (x : StateT σ Option α) : Prop :=
  ∀ s, x.run (F s) = (x.run s).map fun p => (p.1, F p.2)

variable {F : σ → σ}

theorem Commutes.pure (a : α) : Commutes F (pure a : StateT σ Option α) := fun _ => rfl

theorem Commutes.modify {g : σ → σ} (same : ∀ s, g (F s) = F (g s)) :
    Commutes F (modify g : StateT σ Option PUnit) := by
  intro s
  change some ((), g (F s)) = some ((), F (g s))
  rw [same]

theorem Commutes.bind {x : StateT σ Option α} {f : α → StateT σ Option β}
    (hx : Commutes F x) (hf : ∀ a, Commutes F (f a)) : Commutes F (x >>= f) := by
  intro s
  rw [StateT.run_bind, StateT.run_bind, hx s]
  cases x.run s with
  | none => rfl
  | some p => exact hf p.1 p.2

/-- A read whose rest does not notice the change. -/
theorem Commutes.read {f : σ → StateT σ Option β} (same : ∀ s, f (F s) = f s)
    (rest : ∀ s, Commutes F (f s)) : Commutes F (get >>= f) := by
  intro s
  rw [run_get_bind, run_get_bind, same]
  exact rest s s

/-- The change is of another component. -/
theorem Commutes.zoom {get : τ → σ} {put : τ → σ → τ} {F : τ → τ} (same : ∀ t, get (F t) = get t)
    (kept : ∀ t s, put (F t) s = F (put t s)) (x : StateT σ Option α) :
    Commutes F (zoom get put x) := by
  intro t
  change (x.run (get (F t))).map _ = ((x.run (get t)).map _).map _
  rw [same, Option.map_map]
  congr 1
  funext p
  exact congrArg (Prod.mk p.1) (kept t p.2)

end Checked
