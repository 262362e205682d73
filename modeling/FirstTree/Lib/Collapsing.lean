import Mathlib.Data.List.Basic

/-!
# Collapsing runs

Every run of elements of a kind, such as the white space of a text, becomes one separator. Reading a list in parts, the second part is
collapsed after a run when the first ends in one. After a run, a run in front leaves nothing, which is how a list is collapsed
without a separator in front.
-/

namespace Collapsing

variable {α : Type*} (p : α → Bool) (sep : α)

/-- Collapse the runs of a list, when it comes after a run or not. -/
def collapse (inRun : Bool) : List α → List α
  | [] => []
  | c :: l =>
    if p c then (if inRun then collapse true l else sep :: collapse true l)
    else c :: collapse false l

/-- Whether a run goes on after a list. -/
def endsInRun (inRun : Bool) : List α → Bool
  | [] => inRun
  | c :: l => endsInRun (p c) l

variable {p sep}

theorem collapse_cons_pos {c : α} (h : p c = true) (l : List α) :
    collapse p sep true (c :: l) = collapse p sep true l ∧ collapse p sep false (c :: l) = sep :: collapse p sep true l := by
  simp [collapse, h]

theorem collapse_cons_neg {c : α} (h : p c = false) (inRun : Bool) (l : List α) :
    collapse p sep inRun (c :: l) = c :: collapse p sep false l := by
  simp [collapse, h]

/-- A list is collapsed part by part. -/
theorem collapse_append (inRun : Bool) (l m : List α) :
    collapse p sep inRun (l ++ m) = collapse p sep inRun l ++ collapse p sep (endsInRun p inRun l) m := by
  induction l generalizing inRun with
  | nil => rfl
  | cons c l ih =>
    cases hc : p c with
    | true => cases inRun <;> simp [collapse, endsInRun, hc, ih]
    | false => simp [collapse, endsInRun, hc, ih]

/-- A list that starts outside a run is collapsed the same after a run. -/
theorem collapse_of_head {l : List α} (h : ∀ c ∈ l.head?, p c = false) (inRun : Bool) :
    collapse p sep inRun l = collapse p sep false l := by
  cases l with
  | nil => rfl
  | cons c l => rw [collapse_cons_neg (h c rfl), collapse_cons_neg (h c rfl)]

/-- Whether a run goes on is what the last element is. -/
theorem endsInRun_concat (inRun : Bool) (l : List α) (c : α) : endsInRun p inRun (l ++ [c]) = p c := by
  induction l generalizing inRun with
  | nil => rfl
  | cons d l ih => exact ih (p d)

/-- What is in no run is kept. -/
theorem mem_collapse {d : α} {l : List α} (hd : d ∈ l) (hpd : p d = false) (inRun : Bool) : d ∈ collapse p sep inRun l := by
  obtain ⟨before, after, rfl⟩ := List.append_of_mem hd
  rw [collapse_append, collapse_cons_neg hpd]
  exact List.mem_append_right _ List.mem_cons_self

/-- Collapsing makes a list no longer. -/
theorem length_collapse_le (inRun : Bool) (l : List α) : (collapse p sep inRun l).length ≤ l.length := by
  induction l generalizing inRun with
  | nil => exact Nat.le_refl _
  | cons c l ih =>
    have htrue := ih true
    have hfalse := ih false
    cases hc : p c with
    | true =>
      cases inRun <;> simp only [collapse, hc, if_true, Bool.false_eq_true, if_false, List.length_cons] <;> omega
    | false =>
      simp only [collapse, hc, Bool.false_eq_true, if_false, List.length_cons]
      omega

/-- All of a run that goes on leaves nothing. -/
theorem collapse_run {l : List α} (h : ∀ c ∈ l, p c = true) : collapse p sep true l = [] := by
  induction l with
  | nil => rfl
  | cons c l ih =>
    rw [(collapse_cons_pos (h c List.mem_cons_self) l).1]
    exact ih fun d hd => h d (List.mem_cons_of_mem _ hd)

/-- A run at the end leaves a separator, unless it is all of a list that comes after a run. -/
theorem getLast_collapse {inRun : Bool} {l : List α} (hne : l ≠ []) (hrun : inRun = false ∨ ∃ d ∈ l, p d = false)
    (hlast : endsInRun p inRun l = true) : (collapse p sep inRun l).getLast? = some sep := by
  induction l generalizing inRun with
  | nil => exact absurd rfl hne
  | cons c l ih =>
    have hlast' : endsInRun p (p c) l = true := hlast
    by_cases hin : ∃ d ∈ l, p d = false
    · -- the run at the end is one of the rest
      obtain ⟨d, hd, hpd⟩ := hin
      have hrest : ∀ b, endsInRun p b l = true → (collapse p sep b l).getLast? = some sep :=
        fun b hb => ih (List.ne_nil_of_mem hd) (.inr ⟨d, hd, hpd⟩) hb
      cases hc : p c with
      | true =>
        have hsep := hrest true (hc ▸ hlast')
        cases inRun with
        | true => rwa [(collapse_cons_pos hc l).1]
        | false => rw [(collapse_cons_pos hc l).2, List.getLast?_cons, hsep]; rfl
      | false => rw [collapse_cons_neg hc, List.getLast?_cons, hrest false (hc ▸ hlast')]; rfl
    · have hall : ∀ d ∈ l, p d = true := fun d hd => by simpa using fun hpd => hin ⟨d, hd, hpd⟩
      cases hc : p c with
      | true =>
        have hfalse : inRun = false := hrun.resolve_right fun ⟨d, hd, hpd⟩ => by
          rcases List.mem_cons.mp hd with rfl | hd
          · rw [hc] at hpd
            cases hpd
          · exact hin ⟨d, hd, hpd⟩
        rw [hfalse, (collapse_cons_pos hc l).2, collapse_run hall]
        rfl
      | false =>
        have hne' : l ≠ [] := by
          rintro rfl
          rw [hc] at hlast'
          cases hlast'
        rw [collapse_cons_neg hc, List.getLast?_cons, ih hne' (.inl rfl) (hc ▸ hlast')]
        rfl

/-- What a list is collapsed to on its own is at the end of what it is collapsed to after another part, unless it goes on with the run
that is all of that part. -/
theorem collapse_suffix {before l : List α} (h : (∀ c ∈ l.head?, p c = false) ∨ ∃ d ∈ before, p d = false) :
    collapse p sep false l <:+ collapse p sep true (before ++ l) := by
  rw [collapse_append]
  rcases h with hhead | ⟨d, hd, hpd⟩
  · rw [collapse_of_head hhead (endsInRun p true before)]
    exact List.suffix_append _ _
  · cases hend : endsInRun p true before with
    | false => exact List.suffix_append _ _
    | true =>
      have hlast : (collapse p sep true before).getLast? = some sep :=
        getLast_collapse (List.ne_nil_of_mem hd) (.inr ⟨d, hd, hpd⟩) hend
      cases l with
      | nil => exact List.nil_suffix
      | cons c l =>
        cases hc : p c with
        | false =>
          rw [collapse_cons_neg hc, collapse_cons_neg hc]
          exact List.suffix_append _ _
        | true =>
          obtain ⟨front, hfront⟩ := List.getLast?_eq_some_iff.mp hlast
          rw [(collapse_cons_pos hc l).1, (collapse_cons_pos hc l).2, hfront, List.append_assoc]
          exact List.suffix_append _ _

end Collapsing
