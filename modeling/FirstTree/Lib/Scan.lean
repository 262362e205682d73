import Mathlib.Data.List.Basic
import Mathlib.Data.List.Nodup
import Mathlib.Data.List.TakeWhile

/-!
# Scanning a text for matches

A matcher reads the head of a text and answers how long its match there is. Scanning takes the leftmost matches that do not overlap:
`matchAll` gives their ranges and `eraseAll` deletes them. The characters that `eraseAll` works on may carry more than the matcher
reads, such as the position they came from, which is how what is left of a text is traced back to it.
-/

namespace Scan

variable {α β γ : Type*}

/-- The ranges of the matches, from position `i` on, when `skip` more characters belong to the last match. -/
def matchAll (m : List β → Option Nat) : Nat → Nat → List β → List (Nat × Nat)
  | _, _, [] => []
  | i, skip + 1, _ :: l => matchAll m (i + 1) skip l
  | i, 0, b :: l =>
    match m (b :: l) with
    | some (n + 1) => (i, i + (n + 1)) :: matchAll m (i + 1) n l
    | _ => matchAll m (i + 1) 0 l

/-- What is left when the matches are deleted. -/
def eraseAll (m : List β → Option Nat) (f : α → β) : Nat → List α → List α
  | _, [] => []
  | skip + 1, _ :: l => eraseAll m f skip l
  | 0, a :: l =>
    match m ((a :: l).map f) with
    | some (n + 1) => eraseAll m f n l
    | _ => a :: eraseAll m f 0 l

/-- The scan of a matcher that reads its position too: what it finds at each place, and how much the place takes. -/
def collect (m : Nat → List β → Option γ × Nat) : Nat → Nat → List β → List γ
  | _, _, [] => []
  | i, skip + 1, _ :: l => collect m (i + 1) skip l
  | i, 0, b :: l => (m i (b :: l)).1.toList ++ collect m (i + 1) ((m i (b :: l)).2 - 1) l

/-- A range of a match starts where the matcher answers and is as long as the answer. -/
theorem range_of_mem {m : List β → Option Nat} {i skip : Nat} {l : List β} {r : Nat × Nat} (h : r ∈ matchAll m i skip l) :
    ∃ k n, k < l.length ∧ r = (i + k, i + k + (n + 1)) ∧ m (l.drop k) = some (n + 1) := by
  induction l generalizing i skip with
  | nil => cases skip <;> cases h
  | cons b l ih =>
    have hstep : ∀ skip', r ∈ matchAll m (i + 1) skip' l →
        ∃ k n, k < (b :: l).length ∧ r = (i + k, i + k + (n + 1)) ∧ m ((b :: l).drop k) = some (n + 1) := by
      intro skip' h'
      obtain ⟨k, n, hk, hr, hm⟩ := ih h'
      exact ⟨k + 1, n, Nat.succ_lt_succ hk, by rw [hr, Nat.add_right_comm, Nat.add_assoc i k 1], hm⟩
    cases skip with
    | succ skip => exact hstep skip h
    | zero =>
      unfold matchAll at h
      split at h
      · rename_i n hm
        rcases List.mem_cons.mp h with rfl | h
        · exact ⟨0, n, Nat.succ_pos _, rfl, hm⟩
        · exact hstep n h
      · exact hstep 0 h

/-- A place where the matcher answers is in a range: in that of its own match, or in one that starts before it. -/
theorem covered_of_match {m : List β → Option Nat} {i skip k n : Nat} {l : List β} (hk : k < l.length)
    (hm : m (l.drop k) = some (n + 1)) :
    k < skip ∨ ∃ r ∈ matchAll m i skip l, r.1 ≤ i + k ∧ i + k < r.2 ∧ (r.1 = i + k → r.2 = i + k + (n + 1)) := by
  induction l generalizing i skip k with
  | nil => cases hk
  | cons b l ih =>
    cases skip with
    | succ skip =>
      cases k with
      | zero => exact .inl (Nat.succ_pos skip)
      | succ k =>
        rcases @ih (i + 1) skip k (Nat.lt_of_succ_lt_succ hk) hm with hlt | ⟨r, hr, hrange⟩
        · exact .inl (Nat.succ_lt_succ hlt)
        · refine .inr ⟨r, hr, ?_⟩
          omega
    | zero =>
      refine .inr ?_
      unfold matchAll
      cases k with
      | zero =>
        rw [List.drop_zero] at hm
        rw [hm]
        exact ⟨(i, i + (n + 1)), List.mem_cons_self, by omega⟩
      | succ k =>
        have hlater : ∀ skip', k < skip' ∨ ∃ r ∈ matchAll m (i + 1) skip' l,
            r.1 ≤ i + (k + 1) ∧ i + (k + 1) < r.2 ∧ (r.1 = i + (k + 1) → r.2 = i + (k + 1) + (n + 1)) := by
          intro skip'
          rcases @ih (i + 1) skip' k (Nat.lt_of_succ_lt_succ hk) hm with hlt | ⟨r, hr, hrange⟩
          · exact .inl hlt
          · exact .inr ⟨r, hr, by omega⟩
        split
        · rename_i n' _
          rcases hlater n' with hlt | ⟨r, hr, hrange⟩
          · exact ⟨(i, i + (n' + 1)), List.mem_cons_self, by dsimp only; omega⟩
          · exact ⟨r, List.mem_cons_of_mem _ hr, hrange⟩
        · rcases hlater 0 with hlt | hfound
          · cases hlt
          · exact hfound

/-! ## Runs of one character -/

section

variable [DecidableEq β]

/-- A text is the run of a character it starts with, and the rest. -/
theorem run_split (c : β) (l : List β) : List.replicate (l.takeWhile (· = c)).length c ++ l.dropWhile (· = c) = l := by
  have hall : ∀ d ∈ l.takeWhile (· = c), d = c := by
    intro d hd
    have hkept := List.mem_takeWhile_imp hd
    exact of_decide_eq_true hkept
  have hrun : l.takeWhile (· = c) = List.replicate (l.takeWhile (· = c)).length c := List.eq_replicate_of_mem hall
  rw [← hrun, List.takeWhile_append_dropWhile]

/-- The run takes all of the character. -/
theorem head_dropWhile_run (c : β) (l : List β) : (l.dropWhile (· = c)).head? ≠ some c := by
  intro h
  have hnot := List.head?_dropWhile_not (· = c) l
  rw [h] at hnot
  simp at hnot

/-- A run of a character before another one is what a text starts with. -/
theorem takeWhile_run {c : β} {l : List β} (h : l.head? ≠ some c) (n : Nat) :
    (List.replicate n c ++ l).takeWhile (· = c) = List.replicate n c := by
  have hnil : l.takeWhile (· = c) = [] := by
    cases l with
    | nil => rfl
    | cons d l => exact List.takeWhile_cons_of_neg fun hd => h (congrArg some (of_decide_eq_true hd))
  rw [List.takeWhile_append_of_pos fun d hd => decide_eq_true (List.eq_of_mem_replicate hd), hnil, List.append_nil]

/-- What follows the run is left. -/
theorem dropWhile_run {c : β} {l : List β} (h : l.head? ≠ some c) (n : Nat) :
    (List.replicate n c ++ l).dropWhile (· = c) = l := by
  rw [List.dropWhile_append_of_pos fun d hd => decide_eq_true (List.eq_of_mem_replicate hd)]
  cases l with
  | nil => rfl
  | cons d l => exact List.dropWhile_cons_of_neg fun hd => h (congrArg some (of_decide_eq_true hd))

end

/-! ## What a scan finds -/

/-- What a scan finds, it finds at a place of the text. -/
theorem mem_collect {m : Nat → List β → Option γ × Nat} {i skip : Nat} {l : List β} {v : γ} (h : v ∈ collect m i skip l) :
    ∃ k < l.length, (m (i + k) (l.drop k)).1 = some v := by
  induction l generalizing i skip with
  | nil => cases skip <;> cases h
  | cons b l ih =>
    have hstep : ∀ skip', v ∈ collect m (i + 1) skip' l → ∃ k < (b :: l).length, (m (i + k) ((b :: l).drop k)).1 = some v := by
      intro skip' h'
      obtain ⟨k, hk, hm⟩ := ih h'
      refine ⟨k + 1, Nat.succ_lt_succ hk, ?_⟩
      rwa [Nat.add_assoc, Nat.add_comm 1 k] at hm
    cases skip with
    | succ skip => exact hstep skip h
    | zero =>
      unfold collect at h
      rcases List.mem_append.mp h with h | h
      · exact ⟨0, Nat.succ_pos _, Option.mem_toList.mp h⟩
      · exact hstep _ h

/-- What is to be skipped is skipped. -/
theorem collect_skip (m : Nat → List β → Option γ × Nat) (i skip : Nat) (l : List β) :
    collect m i skip l = collect m (i + skip) 0 (l.drop skip) := by
  induction skip generalizing i l with
  | zero => rfl
  | succ skip ih =>
    cases l with
    | nil => rfl
    | cons b l =>
      rw [collect, ih, List.drop_succ_cons, Nat.add_assoc, Nat.add_comm 1 skip]

/-- A scan goes on after what it found. -/
theorem collect_step {m : Nat → List β → Option γ × Nat} {i n : Nat} {b : β} {l : List β} {v : Option γ}
    (h : m i (b :: l) = (v, n + 1)) : collect m i 0 (b :: l) = v.toList ++ collect m (i + (n + 1)) 0 (l.drop n) := by
  rw [collect, h, collect_skip, Nat.add_sub_cancel, Nat.add_assoc i 1 n, Nat.add_comm 1 n]

/-- What a scan finds lies after where it starts, one after the other, when each thing it finds takes its own place. -/
theorem collect_ordered {m : Nat → List β → Option γ × Nat} {range : γ → Nat × Nat}
    (hm : ∀ i l v n, m i l = (some v, n) → i ≤ (range v).1 ∧ (range v).2 ≤ i + n) (i skip : Nat) (l : List β) :
    (∀ v ∈ collect m i skip l, i + skip ≤ (range v).1) ∧ (collect m i skip l).Pairwise fun v w => (range v).2 ≤ (range w).1 := by
  induction l generalizing i skip with
  | nil => cases skip <;> exact ⟨fun v hv => absurd hv List.not_mem_nil, .nil⟩
  | cons b l ih =>
    cases skip with
    | succ skip =>
      obtain ⟨hfrom, hpair⟩ := ih (i + 1) skip
      refine ⟨fun v hv => ?_, hpair⟩
      have := hfrom v hv
      omega
    | zero =>
      obtain ⟨hfrom, hpair⟩ := ih (i + 1) ((m i (b :: l)).2 - 1)
      unfold collect
      rcases hv : m i (b :: l) with ⟨_ | v, n⟩
      · rw [hv] at hfrom hpair
        refine ⟨fun w hw => ?_, hpair⟩
        have := hfrom w hw
        omega
      · obtain ⟨hstart, hstop⟩ := hm i (b :: l) v n hv
        rw [hv] at hfrom hpair
        refine ⟨fun w hw => ?_, List.pairwise_cons.mpr ⟨fun w hw => ?_, hpair⟩⟩
        · rcases List.mem_cons.mp hw with rfl | hw
          · exact hstart
          · have := hfrom w hw
            omega
        · have : i + 1 + (n - 1) ≤ (range w).1 := hfrom w hw
          omega

/-- Nothing is moved. -/
theorem eraseAll_sublist (m : List β → Option Nat) (f : α → β) (skip : Nat) (l : List α) :
    (eraseAll m f skip l).Sublist l := by
  induction l generalizing skip with
  | nil => cases skip <;> exact .refl _
  | cons a l ih =>
    cases skip with
    | succ skip => exact (ih skip).cons a
    | zero =>
      unfold eraseAll
      split
      · exact (ih _).cons a
      · exact (ih 0).cons_cons a

/-- What is left does not depend on what the characters carry. -/
theorem map_eraseAll (m : List β → Option Nat) (f : α → β) (g : γ → α) (skip : Nat) (l : List γ) :
    (eraseAll m (fun c => f (g c)) skip l).map g = eraseAll m f skip (l.map g) := by
  induction l generalizing skip with
  | nil => cases skip <;> rfl
  | cons a l ih =>
    cases skip with
    | succ skip => exact ih skip
    | zero =>
      have hmap : (a :: l).map (fun c => f (g c)) = (g a :: l.map g).map f := by
        rw [← List.map_cons, List.map_map]
        rfl
      rw [List.map_cons, eraseAll, eraseAll, hmap]
      split
      · exact ih _
      · rw [List.map_cons, ih 0]

end Scan
