import Mathlib.Data.List.Basic

/-! Runs of a transition system that reads inputs and reports events. -/

namespace Transition

variable {σ ι ε : Type}

/-- A run whose every step is taken from a state and on an input that `ok` allows. -/
inductive Run (step : σ → ι → Option (ε × σ)) (ok : σ → ι → Prop) :
    σ → List (ι × ε) → σ → Prop
  | nil (s : σ) : Run step ok s [] s
  | cons {s t u : σ} {i : ι} {e : ε} {trace : List (ι × ε)} (allowed : ok s i)
      (taken : step s i = some (e, t)) (rest : Run step ok t trace u) :
      Run step ok s ((i, e) :: trace) u

/-- Every input is allowed everywhere. -/
def anything (_ : σ) (_ : ι) : Prop := True

variable {step : σ → ι → Option (ε × σ)} {ok : σ → ι → Prop} {s t u : σ}
  {trace before later : List (ι × ε)}

/-- What holds at the start and is kept by every allowed step holds at the end. -/
theorem Run.invariant {P : σ → Prop} (run : Run step ok s trace t)
    (kept : ∀ s i e t, P s → ok s i → step s i = some (e, t) → P t) (init : P s) : P t := by
  induction run with
  | nil => exact init
  | cons allowed taken _ ih => exact ih (kept _ _ _ _ init allowed taken)

theorem Run.mono {ok' : σ → ι → Prop} (run : Run step ok s trace t)
    (weaker : ∀ s i, ok s i → ok' s i) : Run step ok' s trace t := by
  induction run with
  | nil => exact .nil _
  | cons allowed taken _ ih => exact .cons (weaker _ _ allowed) taken ih

/-- What is said of the inputs alone holds of all of them. -/
theorem Run.inputs {P : ι → Prop} (run : Run step ok s trace t) (said : ∀ s i, ok s i → P i) :
    ∀ x ∈ trace, P x.1 := by
  induction run with
  | nil => simp
  | cons allowed _ _ ih => exact List.forall_mem_cons.mpr ⟨said _ _ allowed, ih⟩

theorem Run.snoc {i : ι} {e : ε} (run : Run step ok s trace t) (allowed : ok t i)
    (taken : step t i = some (e, u)) : Run step ok s (trace ++ [(i, e)]) u := by
  induction run with
  | nil => exact .cons allowed taken (.nil u)
  | cons allowed' taken' _ ih => exact .cons allowed' taken' (ih allowed taken)

theorem Run.append (run : Run step ok s before t) (rest : Run step ok t later u) :
    Run step ok s (before ++ later) u := by
  induction run with
  | nil => exact rest
  | cons allowed taken _ ih => exact .cons allowed taken (ih rest)

/-- An invariant that also reads the trace so far. -/
theorem Run.traced {P : List (ι × ε) → σ → Prop} (run : Run step ok s trace t)
    (kept : ∀ before p i e q, Run step ok s before p → P before p → ok p i →
      step p i = some (e, q) → P (before ++ [(i, e)]) q) (init : P [] s) : P trace t := by
  have extend {later : List (ι × ε)} {p u : σ} (rest : Run step ok p later u) :
      ∀ before, Run step ok s before p → P before p → P (before ++ later) u := by
    induction rest with
    | nil => exact fun before _ h => by rwa [List.append_nil]
    | @cons p q u i e later allowed taken rest ih =>
      intro before first h
      have next := ih (before ++ [(i, e)]) (first.snoc allowed taken)
        (kept before p i e q first h allowed taken)
      rwa [List.append_assoc] at next
  exact extend run [] (.nil s) init

theorem Run.split (run : Run step ok s (before ++ later) u) :
    ∃ t, Run step ok s before t ∧ Run step ok t later u := by
  induction before generalizing s with
  | nil => exact ⟨s, .nil s, run⟩
  | cons x before ih =>
    cases run with
    | cons allowed taken rest =>
      obtain ⟨t, first, second⟩ := ih rest
      exact ⟨t, .cons allowed taken first, second⟩

/-- A run from outside `P` to inside crosses into it at some step. -/
theorem Run.crossing {P : σ → Prop} (run : Run step ok s trace t) (outside : ¬ P s)
    (inside : P t) : ∃ before i e later p q, trace = before ++ (i, e) :: later ∧
      Run step ok s before p ∧ step p i = some (e, q) ∧ ¬ P p ∧ P q ∧ Run step ok q later t := by
  induction run with
  | nil => exact absurd inside outside
  | @cons s s' t i e trace allowed taken rest ih =>
    by_cases crossed : P s'
    · exact ⟨[], i, e, trace, s, s', rfl, .nil s, taken, outside, crossed, rest⟩
    · obtain ⟨before, j, f, later, p, q, rfl, first, step, out, into, last⟩ := ih crossed inside
      exact ⟨(i, e) :: before, j, f, later, p, q, rfl, .cons allowed taken first, step, out, into,
        last⟩

/-- When only marked steps lead into `P`, a run from outside `P` to inside has a last
marked step, and `P` holds right after it. -/
theorem Run.since {P : σ → Prop} {mark : ι → ε → Prop} (run : Run step ok s trace t)
    (outside : ¬ P s) (inside : P t)
    (enters : ∀ s i e t, step s i = some (e, t) → P t → P s ∨ mark i e) :
    ∃ before i e later p q, trace = before ++ (i, e) :: later ∧ mark i e ∧
      Run step ok s before p ∧ step p i = some (e, q) ∧ P q ∧ Run step ok q later t ∧
      ∀ x ∈ later, ¬ mark x.1 x.2 := by
  refine run.traced (P := fun trace t => P t → ∃ before i e later p q,
    trace = before ++ (i, e) :: later ∧ mark i e ∧ Run step ok s before p ∧
      step p i = some (e, q) ∧ P q ∧ Run step ok q later t ∧ ∀ x ∈ later, ¬ mark x.1 x.2)
    (fun before p i e q first ih allowed taken inside => ?_) (absurd · outside) inside
  by_cases marked : mark i e
  · exact ⟨before, i, e, [], p, q, rfl, marked, first, taken, inside, .nil q, by simp⟩
  · obtain ⟨early, j, f, later, p', q', rfl, marked', start, step', into, rest, none⟩ :=
      ih ((enters p i e q taken inside).resolve_right marked)
    refine ⟨early, j, f, later ++ [(i, e)], p', q', by simp, marked', start, step', into,
      rest.snoc allowed taken, fun x hx => ?_⟩
    rcases List.mem_append.mp hx with old | new
    · exact none x old
    · rw [List.mem_singleton.mp new]
      exact marked

/-- When each step can be followed from a related state, so can each run. -/
theorem Run.simulated {τ : Type} {step' : τ → ι → Option (ε × τ)} {S : σ → τ → Prop} {t₀ : τ}
    (run : Run step ok s trace t) (related : S s t₀)
    (follow : ∀ p q i e p', S p q → step p i = some (e, p') →
      ∃ q', step' q i = some (e, q') ∧ S p' q') :
    ∃ t', Run step' anything t₀ trace t' ∧ S t t' := by
  induction run generalizing t₀ with
  | nil => exact ⟨t₀, .nil t₀, related⟩
  | cons _ taken _ ih =>
    obtain ⟨q, taken', related'⟩ := follow _ _ _ _ _ related taken
    obtain ⟨t', rest, last⟩ := ih related'
    exact ⟨t', .cons trivial taken' rest, last⟩

/-- Steps are functions, so a trace determines where it leads. -/
theorem Run.deterministic {ok' : σ → ι → Prop} (run : Run step ok s trace t)
    (run' : Run step ok' s trace u) : t = u := by
  induction run with
  | nil =>
    cases run'
    rfl
  | cons _ taken _ ih =>
    cases run' with
    | cons _ taken' rest' =>
      rw [taken] at taken'
      cases taken'
      exact ih rest'

/-- And so do its inputs. -/
theorem Run.determined {ok' : σ → ι → Prop} {trace' : List (ι × ε)} (run : Run step ok s trace t)
    (run' : Run step ok' s trace' u) (inputs : trace.map Prod.fst = trace'.map Prod.fst) :
    trace = trace' ∧ t = u := by
  induction run generalizing trace' with
  | nil =>
    cases run' with
    | nil => exact ⟨rfl, rfl⟩
    | cons => cases inputs
  | cons _ taken _ ih =>
    cases run' with
    | nil => cases inputs
    | cons _ taken' rest' =>
      obtain ⟨rfl, later⟩ := List.cons.inj inputs
      rw [taken] at taken'
      cases taken'
      obtain ⟨rfl, same⟩ := ih rest' later
      exact ⟨rfl, same⟩

/-- Feed a list of inputs, each allowed where it is read. -/
def feed (step : σ → ι → Option (ε × σ)) (ok : σ → ι → Prop) [∀ s i, Decidable (ok s i)] :
    σ → List ι → Option (List ε × σ)
  | s, [] => some ([], s)
  | s, i :: is =>
    if ok s i then do
      let (e, t) ← step s i
      let (es, u) ← feed step ok t is
      return (e :: es, u)
    else none

instance (s : σ) (i : ι) : Decidable (anything s i) := .isTrue trivial

theorem run_of_feed [∀ s i, Decidable (ok s i)] {is : List ι} {es : List ε}
    (fed : feed step ok s is = some (es, t)) : Run step ok s (is.zip es) t := by
  induction is generalizing s es with
  | nil =>
    cases fed
    exact .nil _
  | cons i is ih =>
    simp only [feed, Option.ite_none_right_eq_some, Option.bind_eq_bind, Option.bind_eq_some_iff,
      Option.pure_def, Option.some.injEq, Prod.mk.injEq] at fed
    obtain ⟨allowed, ⟨e, v⟩, taken, ⟨rest, w⟩, fed, rfl, rfl⟩ := fed
    exact .cons allowed taken (ih fed)

end Transition
