import Mathlib.Control.Basic
import Mathlib.Order.Defs.Unbundled

/-! State programs that may be undefined. A `StateT σ Option α` returns `none`
exactly where the modelled program leaves defined behaviour. -/

namespace Checked

variable {σ τ α β γ : Type}

/-- Every defined run relates its first state to its last. -/
def Respects (R : σ → σ → Prop) (x : StateT σ Option α) : Prop :=
  ∀ s a s', x.run s = some (a, s') → R s s'

/-- Run a program on one component of a larger state. -/
def zoom (get : τ → σ) (put : τ → σ → τ) (x : StateT σ Option α) : StateT τ Option α :=
  fun t => (x.run (get t)).map fun p => (p.1, put t p.2)

/-- Undo one step of a defined run. -/
theorem bind_inv {x : StateT σ Option α} {f : α → StateT σ Option β} {s s' : σ} {b : β}
    (h : (x >>= f).run s = some (b, s')) :
    ∃ a t, x.run s = some (a, t) ∧ (f a).run t = some (b, s') := by
  rw [StateT.run_bind] at h
  obtain ⟨⟨a, t⟩, hx, hf⟩ := Option.bind_eq_some_iff.mp h
  exact ⟨a, t, hx, hf⟩

theorem run_bind_of {x : StateT σ Option α} {s t : σ} {a : α} (h : x.run s = some (a, t))
    (f : α → StateT σ Option β) : (x >>= f).run s = (f a).run t := by
  rw [StateT.run_bind, h]
  rfl

theorem run_get_bind (f : σ → StateT σ Option β) (s : σ) : (get >>= f).run s = (f s).run s := rfl

theorem run_zoom {get : τ → σ} {put : τ → σ → τ} {x : StateT σ Option α} {t : τ} {a : α} {s' : σ}
    (h : x.run (get t) = some (a, s')) : (zoom get put x).run t = some (a, put t s') := by
  have hz : (zoom get put x).run t = (x.run (get t)).map fun p => (p.1, put t p.2) := rfl
  rw [hz, h]
  rfl

theorem zoom_inv {get : τ → σ} {put : τ → σ → τ} {x : StateT σ Option α} {t t' : τ} {a : α}
    (h : (zoom get put x).run t = some (a, t')) :
    ∃ s', x.run (get t) = some (a, s') ∧ t' = put t s' := by
  obtain ⟨⟨b, s'⟩, hx, hp⟩ := Option.map_eq_some_iff.mp h
  simp only [Prod.mk.injEq] at hp
  exact ⟨s', by rw [hx, hp.1], hp.2.symm⟩

variable {R : σ → σ → Prop}

theorem respects_pure (hR : IsPreorder σ R) (a : α) : Respects R (pure a : StateT σ Option α) := by
  rintro s b s' h
  cases h
  exact hR.refl s

theorem respects_get (hR : IsPreorder σ R) : Respects R (get : StateT σ Option σ) := by
  rintro s b s' h
  cases h
  exact hR.refl s

theorem respects_bind (hR : IsPreorder σ R) {x : StateT σ Option α} {g : α → StateT σ Option β}
    (hx : Respects R x) (hg : ∀ a, Respects R (g a)) : Respects R (x >>= g) := by
  intro s b s' h
  obtain ⟨a, t, ha, hb⟩ := bind_inv h
  exact hR.trans _ _ _ (hx s a t ha) (hg a t b s' hb)

/-- The read at the head of a program: the rest may use what was read. -/
theorem respects_get_bind {g : σ → StateT σ Option β}
    (hg : ∀ s b s', (g s).run s = some (b, s') → R s s') : Respects R (get >>= g) := by
  intro s b s' h
  exact hg s b s' h

theorem respects_modify {g : σ → σ} (h : ∀ s, R s (g s)) :
    Respects R (modify g : StateT σ Option PUnit) := by
  rintro s b s' hs
  cases hs
  exact h s

theorem respects_zoom {get : τ → σ} {put : τ → σ → τ} {x : StateT σ Option α} {R : τ → τ → Prop}
    (h : ∀ t s', R t (put t s')) : Respects R (zoom get put x) := by
  intro t a t' ht
  obtain ⟨s', -, rfl⟩ := zoom_inv ht
  exact h t s'

/-- Every defined run keeps this part of the state. -/
def Keeps (part : σ → γ) (x : StateT σ Option α) : Prop := Respects (fun s s' => part s' = part s) x

section Keeps

variable {part : σ → γ}

theorem same_preorder (part : σ → γ) : IsPreorder σ fun s s' => part s' = part s where
  refl _ := rfl
  trans _ _ _ hab hbc := hbc.trans hab

theorem Keeps.pure (a : α) : Keeps part (pure a : StateT σ Option α) :=
  respects_pure (same_preorder part) a

theorem Keeps.get : Keeps part (get : StateT σ Option σ) := respects_get (same_preorder part)

theorem Keeps.modify {g : σ → σ} (h : ∀ s, part (g s) = part s) :
    Keeps part (modify g : StateT σ Option PUnit) := respects_modify h

theorem Keeps.bind {x : StateT σ Option α} {f : α → StateT σ Option β} (hx : Keeps part x)
    (hf : ∀ a, Keeps part (f a)) : Keeps part (x >>= f) := respects_bind (same_preorder part) hx hf

theorem Keeps.lift (o : Option α) : Keeps part (liftM o : StateT σ Option α) := by
  intro s a s' h
  cases o with
  | none => cases h
  | some b =>
    cases h
    rfl

/-- A program on a component keeps what it keeps of it. -/
theorem Keeps.zoom {get : τ → σ} {put : τ → σ → τ} (got : ∀ t s, get (put t s) = s)
    {x : StateT σ Option α} (h : Keeps part x) : Keeps (part ∘ get) (zoom get put x) := by
  intro t a t' ht
  obtain ⟨s', hs, rfl⟩ := zoom_inv ht
  exact (congrArg part (got t s')).trans (h _ _ _ hs)

end Keeps

/-! ## Two runs of one program -/

/-- What is run from a state can be run from a related one, with the same result and
to a related state. -/
def Simulates (R : σ → σ → Prop) (x : StateT σ Option α) : Prop :=
  ∀ s t a s', R s t → x.run s = some (a, s') → ∃ t', x.run t = some (a, t') ∧ R s' t'

theorem Simulates.pure (a : α) : Simulates R (pure a : StateT σ Option α) := by
  rintro s t b s' related run
  cases run
  exact ⟨t, rfl, related⟩

theorem Simulates.modify {g : σ → σ} (kept : ∀ s t, R s t → R (g s) (g t)) :
    Simulates R (modify g : StateT σ Option PUnit) := by
  rintro s t b s' related run
  cases run
  exact ⟨g t, rfl, kept s t related⟩

theorem Simulates.bind {x : StateT σ Option α} {f : α → StateT σ Option β}
    (hx : Simulates R x) (hf : ∀ a, Simulates R (f a)) : Simulates R (x >>= f) := by
  intro s t b s' related run
  obtain ⟨a, u, first, rest⟩ := bind_inv run
  obtain ⟨v, first', related⟩ := hx s t a u related first
  obtain ⟨t', rest', related⟩ := hf a u v b s' related rest
  exact ⟨t', by rw [run_bind_of first', rest'], related⟩

/-- A read whose rest does not tell related states apart. -/
theorem Simulates.read {f : σ → StateT σ Option β} (same : ∀ s t, R s t → f s = f t)
    (rest : ∀ s, Simulates R (f s)) : Simulates R (get >>= f) := by
  intro s t b s' related run
  obtain ⟨t', run', related⟩ := rest s s t b s' related run
  exact ⟨t', by rw [run_get_bind, ← same s t (by assumption), run'], related⟩

theorem Simulates.zoom {get : τ → σ} {put : τ → σ → τ} {R : τ → τ → Prop}
    (same : ∀ s t, R s t → get s = get t) (kept : ∀ s t a, R s t → R (put s a) (put t a))
    (x : StateT σ Option α) : Simulates R (zoom get put x) := by
  intro s t a s' related run
  obtain ⟨u, first, rfl⟩ := zoom_inv run
  rw [same s t related] at first
  exact ⟨put t u, run_zoom first, kept s t u related⟩

def Defined (x : StateT σ Option α) : Prop := ∀ s, (x.run s).isSome = true

theorem Defined.pure (a : α) : Defined (pure a : StateT σ Option α) := fun _ => rfl

theorem Defined.get : Defined (get : StateT σ Option σ) := fun _ => rfl

theorem Defined.set (s : σ) : Defined (set s : StateT σ Option PUnit) := fun _ => rfl

theorem Defined.modify (g : σ → σ) : Defined (modify g : StateT σ Option PUnit) := fun _ => rfl

theorem Defined.run {x : StateT σ Option α} (h : Defined x) (s : σ) :
    ∃ a t, x.run s = some (a, t) := by
  obtain ⟨⟨a, t⟩, hx⟩ := Option.isSome_iff_exists.mp (h s)
  exact ⟨a, t, hx⟩

theorem Defined.bind {x : StateT σ Option α} {f : α → StateT σ Option β} (hx : Defined x)
    (hf : ∀ a, Defined (f a)) : Defined (x >>= f) := by
  intro s
  obtain ⟨a, t, ha⟩ := hx.run s
  rw [run_bind_of ha]
  exact hf a t

theorem Defined.zoom {get : τ → σ} {put : τ → σ → τ} {x : StateT σ Option α} (h : Defined x) :
    Defined (zoom get put x) := by
  intro t
  obtain ⟨a, s, ha⟩ := h.run (get t)
  rw [run_zoom ha]
  rfl

end Checked
