import Mathlib.Logic.Basic

/-!
# Runs of a step function

A system is a partial step function `step : σ → ε → Option σ`: `none` says that
the event is not enabled in the state.  This module gives the three things a
development needs of such systems:

- `exec`, the executable fold over a list of events, for concrete traces;
- `Run`, a run every step of which meets a guard, with its induction rules;
- `Run.frozen`, the rule for a value that no guarded step changes once it is set;
- `Run.entered`, the step of a run at which a property became true.

Nothing here depends on what the states or events are.
-/

namespace M8flow.Lib

variable {σ ε : Type*}

/-- A run from one state to another along a list of events, every step of which
meets `guard` in the state it starts from. -/
inductive Run (step : σ → ε → Option σ) (guard : σ → ε → Prop) :
    σ → List ε → σ → Prop where
  | nil (s) : Run step guard s [] s
  | cons {s e s' es s''} : guard s e → step s e = some s' →
      Run step guard s' es s'' → Run step guard s (e :: es) s''

/-- Run the events in order, stopping at the first one that is not enabled or
does not meet the guard. -/
def exec (step : σ → ε → Option σ) (guard : σ → ε → Prop) [∀ s e, Decidable (guard s e)] :
    σ → List ε → Option σ
  | s, [] => some s
  | s, e :: es =>
      if guard s e then (step s e).bind fun s' => exec step guard s' es else none

section Rules

variable {step : σ → ε → Option σ} {guard : σ → ε → Prop}

/-- An execution is a run. -/
theorem exec_eq_some_iff [∀ s e, Decidable (guard s e)] {s t : σ} {es : List ε} :
    exec step guard s es = some t ↔ Run step guard s es t := by
  induction es generalizing s with
  | nil =>
      constructor
      · intro h
        cases h
        exact Run.nil _
      · intro h
        cases h
        rfl
  | cons e es ih =>
      constructor
      · intro h
        unfold exec at h
        split at h
        · rename_i hguard
          rcases Option.bind_eq_some_iff.mp h with ⟨s', hstep, hrest⟩
          exact Run.cons hguard hstep (ih.mp hrest)
        · cases h
      · intro h
        cases h with
        | cons hguard hstep hrest =>
            unfold exec
            rw [if_pos hguard, hstep, Option.bind_some]
            exact ih.mpr hrest

/-- An execution whose end shows a value is a run to a state that shows it. -/
theorem run_of_exec_map [∀ s e, Decidable (guard s e)] {α : Type*} {value : σ → α}
    {s : σ} {es : List ε} {a : α} (h : (exec step guard s es).map value = some a) :
    ∃ t, Run step guard s es t ∧ value t = a := by
  rcases Option.map_eq_some_iff.mp h with ⟨t, hexec, hvalue⟩
  exact ⟨t, exec_eq_some_iff.mp hexec, hvalue⟩

/-- Two executions in a row whose states show a value together are two runs. -/
theorem run_of_exec_bind {guard' : σ → ε → Prop} [∀ s e, Decidable (guard s e)]
    [∀ s e, Decidable (guard' s e)] {α : Type*} {value : σ → σ → α} {s : σ} {es fs : List ε} {a : α}
    (h : ((exec step guard s es).bind fun t => (exec step guard' t fs).map (value t)) = some a) :
    ∃ t u, Run step guard s es t ∧ Run step guard' t fs u ∧ value t u = a := by
  obtain ⟨t, hexec, hrest⟩ := Option.bind_eq_some_iff.mp h
  obtain ⟨u, hrun, hvalue⟩ := run_of_exec_map hrest
  exact ⟨t, u, exec_eq_some_iff.mp hexec, hrun, hvalue⟩

/-- A run under a guard is a run under every weaker one. -/
theorem Run.mono {weaker : σ → ε → Prop} {s t : σ} {es : List ε}
    (h : Run step guard s es t) (hweaker : ∀ s e, guard s e → weaker s e) :
    Run step weaker s es t := by
  induction h with
  | nil s => exact Run.nil s
  | cons hguard hstep _ ih => exact Run.cons (hweaker _ _ hguard) hstep ih

/-- Two runs compose. -/
theorem Run.append {s t u : σ} {es fs : List ε}
    (h : Run step guard s es t) (h' : Run step guard t fs u) :
    Run step guard s (es ++ fs) u := by
  induction h with
  | nil _ => exact h'
  | cons hguard hstep _ ih => exact Run.cons hguard hstep (ih h')

/-- A property that every guarded step keeps holds at the end of every run. -/
theorem Run.invariant {P : σ → Prop} {s t : σ} {es : List ε}
    (h : Run step guard s es t) (hstart : P s)
    (hkeep : ∀ s e s', P s → guard s e → step s e = some s' → P s') : P t := by
  induction h with
  | nil _ => exact hstart
  | cons hguard hstep _ ih => exact ih (hkeep _ _ _ hstart hguard hstep)

/-- Under an invariant, a value that no guarded step changes once it is frozen
is the same at the end of the run as at its start. -/
theorem Run.frozen {α : Type*} {P : σ → Prop} (value : σ → α) (frozen : α → Prop)
    {s t : σ} {es : List ε} (h : Run step guard s es t) (hstart : P s)
    (hkeep : ∀ s e s', P s → guard s e → step s e = some s' → P s')
    (hvalue : ∀ s e s', P s → guard s e → step s e = some s' →
      frozen (value s) → value s' = value s)
    (hfrozen : frozen (value s)) : value t = value s := by
  induction h with
  | nil _ => rfl
  | cons hguard hstep _ ih =>
      have hsame := hvalue _ _ _ hstart hguard hstep hfrozen
      have hrest := ih (hkeep _ _ _ hstart hguard hstep) (by rw [hsame]; exact hfrozen)
      rw [hrest, hsame]

/-- A property that does not hold at the start of a run and holds at its end became true
at a step of the run. -/
theorem Run.entered {P : σ → Prop} {s t : σ} {es : List ε} (h : Run step guard s es t)
    (hstart : ¬ P s) (hend : P t) :
    ∃ before e after u u', es = before ++ e :: after ∧ Run step guard s before u ∧
      guard u e ∧ step u e = some u' ∧ Run step guard u' after t ∧ ¬ P u ∧ P u' := by
  induction h with
  | nil _ => exact absurd hend hstart
  | @cons s e s' es t hguard hstep hrest ih =>
      by_cases hnext : P s'
      · exact ⟨[], e, es, s, s', rfl, Run.nil s, hguard, hstep, hrest, hstart, hnext⟩
      · obtain ⟨before, e', after, u, u', hes, hbefore, hrun⟩ := ih hnext hend
        refine ⟨e :: before, e', after, u, u', ?_, Run.cons hguard hstep hbefore, hrun⟩
        rw [hes, List.cons_append]

end Rules

end M8flow.Lib
