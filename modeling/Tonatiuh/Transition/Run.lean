import Mathlib.Logic.Function.Basic

/-! Runs of labelled transition systems.

A system is a relation `R s e s'`: from state `s` the event `e` leads to `s'`. A run is a
finite list of events with the states between them. A condition on steps is imposed by
intersecting the relation with it, so "every step of the run meets `C`" is a run of
`R.Meeting C`. The invariant rules below are the only inductions over runs that the systems
of this development need. -/

namespace Tonatiuh.Transition

/-- A run of the relation `R`: the events in order, from the first state to the last. -/
inductive Run (R : σ → ε → σ → Prop) : σ → List ε → σ → Prop where
  | nil : Run R s [] s
  | cons : R s e s' → Run R s' es s'' → Run R s (e :: es) s''

/-- The steps of `R` that meet the condition `C`. -/
def Meeting (R C : σ → ε → σ → Prop) (s : σ) (e : ε) (s' : σ) : Prop := R s e s' ∧ C s e s'

/-- The relation of a partial step function. -/
def Stepping (step : σ → ε → Option σ) (s : σ) (e : ε) (s' : σ) : Prop := step s e = some s'

/-- The state after a list of events, if every one of them is enabled. -/
def exec (step : σ → ε → Option σ) : σ → List ε → Option σ
  | s, [] => some s
  | s, e :: es => (step s e).bind (exec step · es)

theorem Run.of_exec {step : σ → ε → Option σ} {s : σ} (h : exec step s es = some s') :
    Run (Stepping step) s es s' := by
  induction es generalizing s with
  | nil => cases h; exact .nil
  | cons e es ih =>
    obtain ⟨t, ht, hrest⟩ := Option.bind_eq_some_iff.mp h
    exact .cons ht (ih hrest)

theorem Run.of_exec_get {step : σ → ε → Option σ} {s : σ} (h : (exec step s es).isSome) :
    Run (Stepping step) s es ((exec step s es).get h) :=
  .of_exec (Option.some_get h).symm

/-- A step after a list of events, found by execution. -/
theorem Run.exists_step {step : σ → ε → Option σ} {P : σ → σ → Prop} [∀ t t', Decidable (P t t')]
    {s : σ} (h : (exec step s es).any fun t => (step t e).any fun t' => P t t') :
    ∃ t t', Run (Stepping step) s es t ∧ step t e = some t' ∧ P t t' := by
  obtain ⟨t, ht, h⟩ := (Option.any_eq_true _ _).mp h
  obtain ⟨t', ht', h⟩ := (Option.any_eq_true _ _).mp h
  exact ⟨t, t', .of_exec ht, ht', of_decide_eq_true h⟩

/-- `exec` with a test of every step. -/
def execWhere (step : σ → ε → Option σ) (C : σ → ε → Prop) [∀ s e, Decidable (C s e)] :
    σ → List ε → Option σ
  | s, [] => some s
  | s, e :: es => if C s e then (step s e).bind (execWhere step C · es) else none

theorem Run.of_execWhere {step : σ → ε → Option σ} {C : σ → ε → Prop} [∀ s e, Decidable (C s e)]
    {s : σ} (h : execWhere step C s es = some s') :
    Run (Meeting (Stepping step) fun s e _ => C s e) s es s' := by
  induction es generalizing s with
  | nil => cases h; exact .nil
  | cons e es ih =>
    rw [execWhere] at h
    split at h
    next hC =>
      obtain ⟨t, ht, hrest⟩ := Option.bind_eq_some_iff.mp h
      exact .cons ⟨ht, hC⟩ (ih hrest)
    next => cases h

theorem Run.of_execWhere_get {step : σ → ε → Option σ} {C : σ → ε → Prop}
    [∀ s e, Decidable (C s e)] {s : σ} (h : (execWhere step C s es).isSome) :
    Run (Meeting (Stepping step) fun s e _ => C s e) s es ((execWhere step C s es).get h) :=
  .of_execWhere (Option.some_get h).symm

/-- A step after such a list. -/
theorem Run.exists_step_where {step : σ → ε → Option σ} {C : σ → ε → Prop} {P : σ → σ → Prop}
    [∀ s e, Decidable (C s e)] [∀ t t', Decidable (P t t')] {s : σ}
    (h : (execWhere step C s es).any fun t => (step t e).any fun t' => P t t') :
    ∃ t t', Run (Meeting (Stepping step) fun s e _ => C s e) s es t ∧ step t e = some t' ∧
      P t t' := by
  obtain ⟨t, ht, h⟩ := (Option.any_eq_true _ _).mp h
  obtain ⟨t', ht', h⟩ := (Option.any_eq_true _ _).mp h
  exact ⟨t, t', .of_execWhere ht, ht', of_decide_eq_true h⟩

namespace Run

variable {R C : σ → ε → σ → Prop}

theorem single (h : R s e s') : Run R s [e] s' := .cons h .nil

theorem append (h₁ : Run R s es₁ t) (h₂ : Run R t es₂ s') : Run R s (es₁ ++ es₂) s' := by
  induction h₁ with
  | nil => exact h₂
  | cons hstep _ ih => exact .cons hstep (ih h₂)

theorem snoc (h : Run R s es t) (hstep : R t e s') : Run R s (es ++ [e]) s' :=
  h.append (.single hstep)

theorem mono {R' : σ → ε → σ → Prop} (hR : ∀ s e s', R s e s' → R' s e s')
    (h : Run R s es s') : Run R' s es s' := by
  induction h with
  | nil => exact .nil
  | cons hstep _ ih => exact .cons (hR _ _ _ hstep) ih

/-- A run meets a condition that all its steps meet. -/
theorem meeting (h : Run R s es s') (hC : ∀ s e s', e ∈ es → R s e s' → C s e s') :
    Run (Meeting R C) s es s' := by
  induction h with
  | nil => exact .nil
  | cons hstep _ ih =>
    exact .cons ⟨hstep, hC _ _ _ List.mem_cons_self hstep⟩
      (ih fun s e s' he => hC s e s' (List.mem_cons_of_mem _ he))

/-- What holds first and is preserved by every step holds last. -/
theorem invariant {I : σ → Prop} (hstep : ∀ s e s', I s → R s e s' → I s')
    (h : Run R s es s') (hs : I s) : I s' := by
  induction h with
  | nil => exact hs
  | cons hst _ ih => exact ih (hstep _ _ _ hs hst)

/-- Under an invariant that each step of `R` keeps, a run of `R` is a run of the relation that
`R` implies there. -/
theorem mono_invariant {R' : σ → ε → σ → Prop} {I : σ → Prop}
    (hstep : ∀ s e s', I s → R s e s' → R' s e s' ∧ I s') (h : Run R s es s') (hs : I s) :
    Run R' s es s' := by
  induction h with
  | nil => exact .nil
  | cons hst _ ih =>
    obtain ⟨h₁, h₂⟩ := hstep _ _ _ hs hst
    exact .cons h₁ (ih h₂)

/-- What holds last has held all the time, or has been brought about by a step and held since. -/
theorem since {P : σ → Prop} (h : Run R s es s') (hs' : P s') :
    (P s ∧ Run (Meeting R fun a _ b => P a ∧ P b) s es s') ∨
      ∃ es₁ e es₂ t t', es = es₁ ++ e :: es₂ ∧ Run R s es₁ t ∧ ¬P t ∧ R t e t' ∧ P t' ∧
        Run (Meeting R fun a _ b => P a ∧ P b) t' es₂ s' := by
  induction h with
  | nil => exact .inl ⟨hs', .nil⟩
  | @cons s e t es s' hstep _ ih =>
    rcases ih hs' with ⟨ht, hkept⟩ | ⟨es₁, e', es₂, u, u', rfl, h₁, hu, hstep', hu', h₂⟩
    · by_cases hs : P s
      · exact .inl ⟨hs, .cons ⟨hstep, hs, ht⟩ hkept⟩
      · exact .inr ⟨[], e, es, s, t, rfl, .nil, hs, hstep, ht, hkept⟩
    · exact .inr ⟨e :: es₁, e', es₂, u, u', rfl, .cons hstep h₁, hu, hstep', hu', h₂⟩

/-- What holds last has held first, or has been caused by a step that meets `P` at its first
state. -/
theorem caused {P : σ → ε → Prop} {Q : σ → Prop} (hstep : ∀ s e s', R s e s' → Q s' → Q s ∨ P s e)
    (h : Run R s es s') (hs' : Q s') :
    Q s ∨ ∃ es₁ e es₂ t, es = es₁ ++ e :: es₂ ∧ Run R s es₁ t ∧ P t e := by
  induction h with
  | nil => exact .inl hs'
  | @cons s e t es s' hst _ ih =>
    rcases ih hs' with ht | ⟨es₁, e', es₂, u, rfl, h₁, hu⟩
    · exact (hstep _ _ _ hst ht).imp_right fun hs => ⟨[], e, es, s, rfl, .nil, hs⟩
    · exact .inr ⟨e :: es₁, e', es₂, u, rfl, .cons hst h₁, hu⟩

/-- The same, where the events do not matter. -/
theorem once {P Q : σ → Prop} (hstep : ∀ s e s', R s e s' → Q s' → Q s ∨ P s) (h : Run R s es s')
    (hs' : Q s') :
    Q s ∨ ∃ es₁ es₂ t, es = es₁ ++ es₂ ∧ Run R s es₁ t ∧ P t :=
  (h.caused (P := fun s _ => P s) hstep hs').imp_right fun ⟨es₁, e, es₂, t, hes, h₁, ht⟩ =>
    ⟨es₁, e :: es₂, t, hes, h₁, ht⟩

end Run

end Tonatiuh.Transition
