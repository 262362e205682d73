import Mathlib.Data.List.Basic

/-!
# Sequences of checks

A sequence of checks over a list ends with a state or with the first error. Reading back what has passed, an invariant over the list,
and two sequences of checks of which one passes whatever the other does.
-/

namespace Checks

universe u

variable {ε : Type*} {α β σ τ : Type u}

/-- A step and what follows have passed. -/
theorem bind_eq_ok {x : Except ε α} {f : α → Except ε β} {b : β} : (x >>= f) = .ok b ↔ ∃ a, x = .ok a ∧ f a = .ok b := by
  cases x with
  | ok a =>
    constructor
    · intro h
      exact ⟨a, rfl, h⟩
    · rintro ⟨a', ha, hf⟩
      obtain rfl := Except.ok.inj ha
      exact hf
  | error e =>
    constructor
    · intro h
      exact absurd h (by simp [bind, Except.bind])
    · rintro ⟨a', ha, _⟩
      exact absurd ha (by simp)

/-- A result has passed. -/
theorem pure_eq_ok {a b : α} : (pure a : Except ε α) = .ok b ↔ a = b := by
  simp [pure, Except.pure]

/-- A refusal under a condition has passed. -/
theorem refuse_eq_ok {c : Prop} [Decidable c] {e : ε} {f : β → Except ε α} {x : Except ε α} {a : α} :
    (if c then (throw e >>= f) else x) = .ok a ↔ ¬ c ∧ x = .ok a := by
  by_cases h : c
  · simp [h, throw, throwThe, MonadExceptOf.throw, bind, Except.bind]
  · simp [h]

/-- A check with another error has passed. -/
theorem mapError_eq_ok {ε' : Type*} {f : ε → ε'} {x : Except ε α} {a : α} : x.mapError f = .ok a ↔ x = .ok a := by
  cases x <;> simp [Except.mapError]

/-- What every check keeps, a sequence of checks keeps. -/
theorem foldlM_invariant {f : σ → α → Except ε σ} {P : σ → Prop} (hf : ∀ s a s', P s → f s a = .ok s' → P s') {l : List α}
    {s s' : σ} (hs : P s) (h : l.foldlM f s = .ok s') : P s' := by
  induction l generalizing s with
  | nil =>
    obtain rfl : s = s' := by simpa [pure, Except.pure] using h
    exact hs
  | cons a l ih =>
    rw [List.foldlM_cons, bind_eq_ok] at h
    obtain ⟨t, ht, hrest⟩ := h
    exact ih (hf s a t hs ht) hrest

/-- When one check passes wherever the other does, and keeps a relation between their states, so do sequences of them. -/
theorem foldlM_simulation {f : σ → α → Except ε σ} {g : τ → β → Except ε τ} {R : σ → τ → Prop} {m : β → α}
    (hstep : ∀ s t b s', R s t → f s (m b) = .ok s' → ∃ t', g t b = .ok t' ∧ R s' t') {l : List β} {s s' : σ} {t : τ}
    (hR : R s t) (h : (l.map m).foldlM f s = .ok s') : ∃ t', l.foldlM g t = .ok t' ∧ R s' t' := by
  induction l generalizing s t with
  | nil =>
    obtain rfl : s = s' := by simpa [pure, Except.pure] using h
    exact ⟨t, rfl, hR⟩
  | cons b l ih =>
    rw [List.map_cons, List.foldlM_cons, bind_eq_ok] at h
    obtain ⟨u, hu, hrest⟩ := h
    obtain ⟨v, hv, hRv⟩ := hstep s t b u hR hu
    obtain ⟨t', ht', hR'⟩ := ih hRv hrest
    exact ⟨t', by rw [List.foldlM_cons, bind_eq_ok]; exact ⟨v, hv, ht'⟩, hR'⟩

/-- What every check adds to a list, a sequence of checks adds in order. -/
theorem foldlM_collects {f : σ → α → Except ε σ} {collected : σ → List β} {g : α → β}
    (hf : ∀ s a s', f s a = .ok s' → collected s' = collected s ++ [g a]) {l : List α} {s s' : σ} (h : l.foldlM f s = .ok s') :
    collected s' = collected s ++ l.map g := by
  induction l generalizing s with
  | nil =>
    obtain rfl : s = s' := by simpa [pure, Except.pure] using h
    rw [List.map_nil, List.append_nil]
  | cons a l ih =>
    rw [List.foldlM_cons, bind_eq_ok] at h
    obtain ⟨t, ht, hrest⟩ := h
    rw [ih hrest, hf s a t ht, List.map_cons, List.append_assoc, List.singleton_append]

/-- A property that no two elements of a list share singles out the one that has it. -/
theorem filter_eq_singleton {p : α → Bool} {l : List α} (h : l.Pairwise fun a b => ¬ (p a = true ∧ p b = true)) {a : α}
    (hmem : a ∈ l) (ha : p a = true) : l.filter p = [a] := by
  induction l with
  | nil => exact absurd hmem (by simp)
  | cons b l ih =>
    have hb : ∀ c ∈ l, ¬ (p b = true ∧ p c = true) := fun c hc => List.rel_of_pairwise_cons h hc
    rcases List.mem_cons.1 hmem with rfl | hmem
    · rw [List.filter_cons_of_pos ha, List.filter_eq_nil_iff.2 fun c hc hpc => hb c hc ⟨ha, hpc⟩]
    · rw [List.filter_cons_of_neg fun hpb => hb a hmem ⟨hpb, ha⟩, ih h.of_cons hmem]

end Checks
