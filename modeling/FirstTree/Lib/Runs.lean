import Mathlib.Data.List.Induction

/-!
# Runs of a labelled transition system

A step relation `step : σ → α → σ → Prop` says which states an action may lead to. A run is the finite sequence of the actions
taken. A guard restricts the steps of a run to those that meet a condition on the state before the step, which is how a
result about a run is stated under an assumption on its steps.
-/

namespace Runs

variable {σ α : Type*}

/-- A run of `step` from one state to another by the list of its actions, the last action at the end. -/
inductive Run (step : σ → α → σ → Prop) : σ → List α → σ → Prop where
  | nil (s : σ) : Run step s [] s
  | snoc {s t u : σ} {as : List α} {a : α} : Run step s as t → step t a u → Run step s (as ++ [a]) u

/-- The steps that meet the guard in the state before them. -/
def Guarded (guard : σ → α → Prop) (step : σ → α → σ → Prop) : σ → α → σ → Prop :=
  fun s a t => guard s a ∧ step s a t

/-- The step relation of a partial function. -/
def ofPartial (f : σ → α → Option σ) : σ → α → σ → Prop :=
  fun s a t => f s a = some t

/-- The step relation of a total function. -/
def ofTotal (f : σ → α → σ) : σ → α → σ → Prop :=
  fun s a t => f s a = t

/-- A state predicate that every step keeps. -/
def Preserves (step : σ → α → σ → Prop) (P : σ → Prop) : Prop :=
  ∀ s a t, P s → step s a t → P t

namespace Run

variable {step : σ → α → σ → Prop} {s t u : σ} {as bs : List α}

/-- What every step keeps, every run keeps. -/
theorem invariant {P : σ → Prop} (hP : Preserves step P) (hr : Run step s as t) (hs : P s) : P t := by
  induction hr with
  | nil => exact hs
  | snoc _ hstep ih => exact hP _ _ _ ih hstep

/-- A run followed by a run is a run. -/
theorem append (h₁ : Run step s as t) (h₂ : Run step t bs u) : Run step s (as ++ bs) u := by
  induction h₂ with
  | nil => simpa using h₁
  | snoc _ hstep ih =>
    rw [← List.append_assoc]
    exact Run.snoc ih hstep

/-- One step is a run. -/
theorem single {a : α} (h : step s a t) : Run step s [a] t := by
  simpa using Run.snoc (Run.nil s) h

/-- A run of fewer steps is a run of more steps. -/
theorem mono {step' : σ → α → σ → Prop} (h : ∀ s a t, step s a t → step' s a t) (hr : Run step s as t) :
    Run step' s as t := by
  induction hr with
  | nil => exact Run.nil s
  | snoc _ hstep ih => exact Run.snoc ih (h _ _ _ hstep)

/-- A run of a total function is its fold over the actions. -/
theorem ofTotal_iff {f : σ → α → σ} : Run (ofTotal f) s as t ↔ as.foldl f s = t := by
  constructor
  · intro hr
    induction hr with
    | nil => rfl
    | snoc _ hstep ih =>
      rw [List.foldl_append, ih]
      exact hstep
  · rintro rfl
    induction as using List.reverseRecOn with
    | nil => exact Run.nil s
    | append_singleton as a ih =>
      rw [List.foldl_append]
      exact Run.snoc ih rfl

/-- The fold of a partial function over the actions is a run. -/
theorem of_foldlM {f : σ → α → Option σ} (h : as.foldlM f s = some t) : Run (ofPartial f) s as t := by
  induction as generalizing s with
  | nil =>
    cases h
    exact Run.nil _
  | cons a as ih =>
    simp only [List.foldlM_cons, Option.bind_eq_bind, Option.bind_eq_some_iff] at h
    obtain ⟨u, hu, ht⟩ := h
    exact append (single (show ofPartial f s a u from hu)) (ih ht)

/-- The fold of a partial function that stops at a step the guard refuses is a guarded run. -/
theorem guarded_of_foldlM {f : σ → α → Option σ} {guard : σ → α → Prop} [∀ s a, Decidable (guard s a)]
    (h : as.foldlM (fun s a => if guard s a then f s a else none) s = some t) : Run (Guarded guard (ofPartial f)) s as t := by
  refine (of_foldlM h).mono ?_
  intro s a t hstep
  simp only [ofPartial] at hstep
  split at hstep
  · exact ⟨‹guard s a›, hstep⟩
  · exact absurd hstep (by simp)

end Run

/-- A state that a run from an initial state ends in. -/
def Reachable (init : σ → Prop) (step : σ → α → σ → Prop) (t : σ) : Prop :=
  ∃ s as, init s ∧ Run step s as t

/-- An invariant that holds of the initial states and that every step keeps holds of every reachable state. -/
theorem Reachable.invariant {init : σ → Prop} {step : σ → α → σ → Prop} {P : σ → Prop} {t : σ} (hinit : ∀ s, init s → P s)
    (hP : Preserves step P) (h : Reachable init step t) : P t := by
  obtain ⟨s, as, hs, hr⟩ := h
  exact hr.invariant hP (hinit s hs)

end Runs
