import Mathlib.Data.List.Basic

/-!
# Trimming the ends of a list

What is left of a list when the elements of a kind are dropped from its front and from its end: a part of it with no such element
at its ends, and all of it when there was none.
-/

namespace Trimming

variable {α : Type*}

/-- Drop the elements that meet a condition from both ends. -/
def trim (p : α → Bool) (t : List α) : List α := ((t.dropWhile p).reverse.dropWhile p).reverse

/-- Neither the first element nor the last meets a condition. -/
def EdgesClean (p : α → Bool) (t : List α) : Prop := (∀ c ∈ t.head?, p c = false) ∧ ∀ c ∈ t.getLast?, p c = false

variable {p : α → Bool} {t : List α}

/-- Dropping from the front leaves no such element in front. -/
theorem head_dropWhile {c : α} (h : c ∈ (t.dropWhile p).head?) : p c = false := by
  have := List.head?_dropWhile_not p t
  rw [Option.mem_def.mp h] at this
  simpa using this

/-- A list that starts with no such element keeps all of it. -/
theorem dropWhile_eq_self (h : ∀ c ∈ t.head?, p c = false) : t.dropWhile p = t := by
  cases t with
  | nil => rfl
  | cons c t => rw [List.dropWhile_cons_of_neg (by simp [h c rfl])]

/-- Trimming leaves no such element at the ends. -/
theorem edgesClean_trim (p : α → Bool) (t : List α) : EdgesClean p (trim p t) := by
  refine ⟨fun c hc => ?_, fun c hc => ?_⟩
  · -- The first element is that of the list trimmed at its front: what is dropped at the end is a suffix.
    unfold trim at hc
    have hprefix : ((t.dropWhile p).reverse.dropWhile p).reverse <+: t.dropWhile p := by
      have h := (List.dropWhile_suffix (l := (t.dropWhile p).reverse) p).reverse
      rwa [List.reverse_reverse] at h
    obtain ⟨rest, hrest⟩ := hprefix
    refine head_dropWhile (t := t) ?_
    rw [← hrest, List.head?_append, Option.mem_def.mp hc]
    rfl
  · rw [trim, List.getLast?_reverse] at hc
    exact head_dropWhile hc

/-- A list without such elements at its ends is its own trim. -/
theorem trim_eq_self (h : EdgesClean p t) : trim p t = t := by
  have hback : ∀ c ∈ t.reverse.head?, p c = false := by
    intro c hc
    rw [List.head?_reverse] at hc
    exact h.2 c hc
  rw [trim, dropWhile_eq_self h.1, dropWhile_eq_self hback, List.reverse_reverse]

/-- Exactly the lists without such elements at their ends are their own trim. -/
theorem trim_eq_self_iff : trim p t = t ↔ EdgesClean p t := ⟨fun h => h ▸ edgesClean_trim p t, trim_eq_self⟩

/-- Trimming only removes. -/
theorem trim_sublist (p : α → Bool) (t : List α) : (trim p t).Sublist t := by
  unfold trim
  have h := (List.dropWhile_sublist p (l := (t.dropWhile p).reverse)).reverse
  rw [List.reverse_reverse] at h
  exact h.trans (List.dropWhile_sublist p)

/-- Such an element in front is dropped. -/
theorem trim_cons_of_pos {c : α} (h : p c = true) (t : List α) : trim p (c :: t) = trim p t := by
  rw [trim, List.dropWhile_cons_of_pos h, trim]

/-- What no trimming touches stays in front. -/
theorem trim_append {a : List α} (hne : a ≠ []) (ha : EdgesClean p a) (t : List α) : ∃ b, trim p (a ++ t) = a ++ b := by
  have hfront : (a ++ t).dropWhile p = a ++ t := by
    refine dropWhile_eq_self fun c hc => ha.1 c ?_
    rw [List.head?_append_of_ne_nil a hne] at hc
    exact hc
  have hback : a.reverse.dropWhile p = a.reverse := by
    refine dropWhile_eq_self fun c hc => ha.2 c ?_
    rwa [List.head?_reverse] at hc
  rw [trim, hfront, List.reverse_append, List.dropWhile_append]
  split
  · exact ⟨[], by rw [hback, List.reverse_reverse, List.append_nil]⟩
  · exact ⟨(t.reverse.dropWhile p).reverse, by rw [List.reverse_append, List.reverse_reverse]⟩

end Trimming
