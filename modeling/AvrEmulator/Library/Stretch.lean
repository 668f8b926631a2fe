import AvrEmulator.Library.Transition

/-! Stretches of a run. A relation says how a marked step moves a view of the state, and
other steps leave the view alone. What is shown of the relation then holds of every run. -/

namespace Transition

section Steps

variable {α : Type} {next : α → α → Prop}

/-- So many steps of a relation. -/
inductive Steps (next : α → α → Prop) : Nat → α → α → Prop
  | none (a : α) : Steps next 0 a a
  | some {n : Nat} {a b c : α} (first : next a b) (rest : Steps next n b c) :
      Steps next (n + 1) a c

theorem Steps.trans {n k : Nat} {a b c : α} (first : Steps next n a b)
    (rest : Steps next k b c) : Steps next (n + k) a c := by
  induction first with
  | none a =>
    rw [Nat.zero_add]
    exact rest
  | @some n a b c taken _ ih =>
    rw [Nat.add_right_comm]
    exact .some taken (ih rest)

/-- Where steps are functional a number of them leads to one place. -/
theorem Steps.unique {n : Nat} {a b c : α} (functional : ∀ a b c, next a b → next a c → b = c)
    (one : Steps next n a b) (other : Steps next n a c) : b = c := by
  induction one with
  | none a =>
    cases other
    rfl
  | some first _ ih =>
    cases other with
    | some first' rest' =>
      rw [functional _ _ _ first' first] at rest'
      exact ih rest'

/-- From every `P` so many steps lead to a `Q`. -/
def Leads (next : α → α → Prop) (n : Nat) (P Q : α → Prop) : Prop :=
  ∀ a, P a → ∃ b, Steps next n a b ∧ Q b

variable {n k : Nat} {P P' Q Q' R : α → Prop}

theorem Leads.skip (P : α → Prop) : Leads next 0 P P := fun a pre => ⟨a, .none a, pre⟩

theorem Leads.step (taken : ∀ a, P a → ∃ b, next a b ∧ Q b) : Leads next 1 P Q := by
  intro a pre
  obtain ⟨b, first, post⟩ := taken a pre
  exact ⟨b, .some first (.none b), post⟩

theorem Leads.seq (first : Leads next n P Q) (rest : Leads next k Q R) :
    Leads next (n + k) P R := by
  intro a pre
  obtain ⟨b, one, between⟩ := first a pre
  obtain ⟨c, two, post⟩ := rest b between
  exact ⟨c, one.trans two, post⟩

theorem Leads.weaken (leads : Leads next n P Q) (before : ∀ a, P' a → P a)
    (after : ∀ a, Q a → Q' a) : Leads next n P' Q' := by
  intro a pre
  obtain ⟨b, steps, post⟩ := leads a (before a pre)
  exact ⟨b, steps, after b post⟩

/-- A loop that counts down, where `I k` holds with `k` rounds left. -/
theorem Leads.loop {I : Nat → α → Prop} (body : ∀ k, Leads next n (I (k + 1)) (I k))
    (rounds left : Nat) : Leads next (n * rounds) (I (left + rounds)) (I left) := by
  induction rounds with
  | zero => exact .skip _
  | succ rounds ih =>
    rw [Nat.mul_succ, Nat.add_comm]
    exact (body (left + rounds)).seq ih

end Steps

section Views

variable {σ ι ε α : Type} {step : σ → ι → Option (ε × σ)} {ok : σ → ι → Prop} {view : σ → α}
  {next : α → α → Prop} {mark quiet : ε → Bool}

/-- Where the relation can move the view, a step moves it so and is marked, or leaves it
and is quiet. -/
structure Views (step : σ → ι → Option (ε × σ)) (ok : σ → ι → Prop) (view : σ → α)
    (next : α → α → Prop) (mark quiet : ε → Bool) : Prop where
  moves : ∀ {s i e t b}, ok s i → step s i = some (e, t) → next (view s) b →
    mark e = true ∧ view t = b ∨ mark e = false ∧ quiet e = true ∧ view t = view s

/-- The marked steps of a trace. -/
def marks (mark : ε → Bool) (trace : List (ι × ε)) : Nat := trace.countP fun x => mark x.2

/-- All steps of a trace are marked or quiet. -/
def Calm (mark quiet : ε → Bool) (trace : List (ι × ε)) : Prop :=
  ∀ x ∈ trace, mark x.2 = true ∨ quiet x.2 = true

theorem Calm.cons {i : ι} {e : ε} {trace : List (ι × ε)} (first : mark e = true ∨ quiet e = true)
    (rest : Calm mark quiet trace) : Calm mark quiet ((i, e) :: trace) := by
  intro x member
  rcases List.mem_cons.mp member with rfl | later
  · exact first
  · exact rest x later

/-- A run through a stretch of steps is still on its way or has come to the end of it, with
as many marked steps behind it. -/
theorem Run.along {n : Nat} {s t : σ} {b : α} {trace : List (ι × ε)}
    (views : Views step ok view next mark quiet) (run : Run step ok s trace t)
    (steps : Steps next n (view s) b) :
    (Calm mark quiet trace ∧ ∃ k, marks mark trace + (k + 1) = n ∧
      Steps next (marks mark trace) (view s) (view t) ∧ Steps next (k + 1) (view t) b) ∨
    ∃ before later u, trace = before ++ later ∧ Run step ok s before u ∧
      Run step ok u later t ∧ Calm mark quiet before ∧ marks mark before = n ∧ view u = b := by
  induction run generalizing n with
  | nil s =>
    cases steps with
    | none => exact .inr ⟨[], [], s, rfl, .nil s, .nil s, nofun, rfl, rfl⟩
    | @some k _ _ _ first rest =>
      exact .inl ⟨nofun, k, Nat.zero_add _, .none _, .some first rest⟩
  | @cons s v t i e trace allowed taken later ih =>
    cases steps with
    | none =>
      exact .inr ⟨[], (i, e) :: trace, s, rfl, .nil s, .cons allowed taken later, nofun, rfl, rfl⟩
    | @some k _ c _ first rest =>
      rcases views.moves allowed taken first with ⟨marked, moved⟩ | ⟨unmarked, quiet, same⟩
      · have count (trace : List (ι × ε)) :
            marks mark ((i, e) :: trace) = marks mark trace + 1 :=
          List.countP_cons_of_pos marked
        rw [← moved] at first rest
        rcases ih rest with ⟨calm, j, total, sofar, left⟩ |
            ⟨before, after, u, rfl, first', last, calm, total, reached⟩
        · refine .inl ⟨calm.cons (.inl marked), j, ?_, ?_, left⟩
          · rw [count]
            omega
          · rw [count]
            exact .some first sofar
        · refine .inr ⟨(i, e) :: before, after, u, rfl, .cons allowed taken first', last,
            calm.cons (.inl marked), ?_, reached⟩
          rw [count, total]
      · have count (trace : List (ι × ε)) : marks mark ((i, e) :: trace) = marks mark trace :=
          List.countP_cons_of_neg (by simp [unmarked])
        have steps : Steps next (k + 1) (view v) b := by
          rw [same]
          exact .some first rest
        rcases ih steps with ⟨calm, j, total, sofar, left⟩ |
            ⟨before, after, u, rfl, first', last, calm, total, reached⟩
        · rw [same] at sofar
          refine .inl ⟨calm.cons (.inr quiet), j, ?_, ?_, left⟩
          · rw [count, total]
          · rw [count]
            exact sofar
        · exact .inr ⟨(i, e) :: before, after, u, rfl, .cons allowed taken first', last,
            calm.cons (.inr quiet), (count _).trans total, reached⟩

/-- A run that can follow each step of the relation can follow a stretch of them. -/
theorem Steps.realised {ready : σ → Prop} {n : Nat} {a b : α} {s : σ} (mark : ε → Bool)
    (follow : ∀ s b, ready s → next (view s) b → ∃ trace t, Run step ok s trace t ∧ ready t ∧
      view t = b ∧ marks mark trace = 1)
    (steps : Steps next n a b) (start : ready s) (here : view s = a) :
    ∃ trace t, Run step ok s trace t ∧ ready t ∧ view t = b ∧ marks mark trace = n := by
  induction steps generalizing s with
  | none a => exact ⟨[], s, .nil s, start, here, rfl⟩
  | some first _ ih =>
    obtain ⟨trace, t, run, able, there, one⟩ := follow s _ start (here.symm ▸ first)
    obtain ⟨later, u, rest, able', last, count⟩ := ih able there
    refine ⟨trace ++ later, u, run.append rest, able', last, ?_⟩
    rw [marks, List.countP_append]
    change marks mark trace + marks mark later = _
    omega

end Views

end Transition
