import Mathlib.Data.List.Sort

/-!
# Sorting by a comparator

The stable sort of a list by a three-way comparison, which need not tell different elements apart: the first element is a least
one, and two orders of one list sort to the same list when no two different elements of it tie.
-/

namespace ComparatorSort

variable {α β : Type*}

/-- A comparator compared through a function. -/
theorem transCmp_on {cmp : β → β → Ordering} (h : Std.TransCmp cmp) (f : α → β) : Std.TransCmp fun a b => cmp (f a) (f b) where
  eq_swap := h.eq_swap
  isLE_trans h₁ h₂ := h.isLE_trans h₁ h₂

/-- One comparator, and another where it ties. -/
theorem transCmp_then {cmp cmp' : α → α → Ordering} (h : Std.TransCmp cmp) (h' : Std.TransCmp cmp') :
    Std.TransCmp fun a b => (cmp a b).then (cmp' a b) :=
  inferInstanceAs (Std.TransCmp (compareLex cmp cmp'))

/-- The order of a comparator. -/
def le (cmp : α → α → Ordering) (a b : α) : Prop := (cmp a b).isLE = true

instance (cmp : α → α → Ordering) : DecidableRel (le cmp) := fun _ _ => inferInstanceAs (Decidable (_ = true))

/-- The stable sort by a comparator. -/
def sortBy (cmp : α → α → Ordering) (l : List α) : List α := l.insertionSort (le cmp)

/-- A sort permutes the list. -/
theorem perm_sortBy (cmp : α → α → Ordering) (l : List α) : (sortBy cmp l).Perm l := List.perm_insertionSort _ l

/-- A sort keeps the elements. -/
@[simp] theorem mem_sortBy {cmp : α → α → Ordering} {l : List α} {a : α} : a ∈ sortBy cmp l ↔ a ∈ l := (perm_sortBy cmp l).mem_iff

variable {cmp : α → α → Ordering}

/-- An element is at most itself. -/
theorem le_refl (h : Std.TransCmp cmp) (a : α) : le cmp a a := by
  have hself := h.eq_swap (a := a) (b := a)
  unfold le
  cases hc : cmp a a with
  | eq => rfl
  | lt =>
    rw [hc] at hself
    exact absurd hself (by decide)
  | gt =>
    rw [hc] at hself
    exact absurd hself (by decide)

/-- An element that is not before another is after it or ties with it. -/
theorem le_of_not_lt (h : Std.TransCmp cmp) {a b : α} (hab : cmp a b ≠ .lt) : le cmp b a := by
  have hswap := h.eq_swap (a := b) (b := a)
  unfold le
  rw [hswap]
  cases hc : cmp a b with
  | lt => exact absurd hc hab
  | eq => rfl
  | gt => rfl

/-- Two elements whose comparison is at most equal both ways tie. -/
theorem tie_of_le (h : Std.TransCmp cmp) {a b : α} (hab : le cmp a b) (hba : le cmp b a) : cmp a b = .eq := by
  have hswap := h.eq_swap (a := a) (b := b)
  unfold le at hab hba
  rw [hswap] at hab ⊢
  cases hc : cmp b a with
  | eq => rfl
  | lt =>
    rw [hc] at hab
    exact absurd hab (by decide)
  | gt =>
    rw [hc] at hba
    exact absurd hba (by decide)

/-- A sorted list is in the order of the comparator. -/
theorem pairwise_sortBy (h : Std.TransCmp cmp) (l : List α) : (sortBy cmp l).Pairwise (le cmp) := by
  have : Std.Total (le cmp) := ⟨fun a b => by
    have hswap := h.eq_swap (a := a) (b := b)
    unfold le
    rw [hswap]
    cases cmp b a <;> simp [Ordering.swap]⟩
  have : IsTrans α (le cmp) := ⟨fun _ _ _ h₁ h₂ => h.isLE_trans h₁ h₂⟩
  exact List.pairwise_insertionSort (le cmp) l

/-- The first element of a sorted list is an element of the list that is at most every other. -/
theorem head_sortBy (h : Std.TransCmp cmp) {l : List α} {a : α} (ha : (sortBy cmp l).head? = some a) :
    a ∈ l ∧ ∀ b ∈ l, le cmp a b := by
  obtain ⟨rest, hrest⟩ := List.head?_eq_some_iff.mp ha
  have hpair := pairwise_sortBy h l
  rw [hrest, List.pairwise_cons] at hpair
  refine ⟨mem_sortBy.mp (by rw [hrest]; exact List.mem_cons_self), fun b hb => ?_⟩
  rcases List.mem_cons.mp (hrest ▸ mem_sortBy.mpr hb : b ∈ a :: rest) with rfl | hb
  · exact le_refl h b
  · exact hpair.1 b hb

/-- Only the empty list sorts to a list without a first element. -/
theorem head_sortBy_none {l : List α} : (sortBy cmp l).head? = none ↔ l = [] := by
  rw [List.head?_eq_none_iff]
  constructor
  · intro h
    exact List.Perm.eq_nil (h ▸ (perm_sortBy cmp l).symm)
  · rintro rfl
    rfl

/-- When each of two lists shows all the other shows, and the comparator reads only what is shown, the first elements of their sorts
tie. -/
theorem head_tie (h : Std.TransCmp cmp) {f : α → β} (hf : ∀ a a' b, f a = f a' → cmp a b = cmp a' b) {l l' : List α}
    (hl : ∀ a ∈ l, ∃ a' ∈ l', f a' = f a) (hl' : ∀ a' ∈ l', ∃ a ∈ l, f a = f a') {a a' : α}
    (ha : (sortBy cmp l).head? = some a) (ha' : (sortBy cmp l').head? = some a') : cmp a a' = .eq := by
  obtain ⟨hmem, hleast⟩ := head_sortBy h ha
  obtain ⟨hmem', hleast'⟩ := head_sortBy h ha'
  obtain ⟨b', hb', hab⟩ := hl a hmem
  obtain ⟨b, hb, hba⟩ := hl' a' hmem'
  have hright : ∀ x y z : α, f x = f y → cmp z x = cmp z y := fun x y z hxy => by
    rw [h.eq_swap (a := z) (b := x), h.eq_swap (a := z) (b := y), hf x y z hxy]
  have hle : le cmp a a' := by
    have hle := hleast b hb
    unfold le at hle ⊢
    rwa [hright b a' a hba] at hle
  have hle' : le cmp a' a := by
    have hle := hleast' b' hb'
    unfold le at hle ⊢
    rwa [hright b' a a' hab] at hle
  exact tie_of_le h hle hle'

/-- The comparator tells the elements of a list apart. -/
def Separates (cmp : α → α → Ordering) (l : List α) : Prop := ∀ a ∈ l, ∀ b ∈ l, cmp a b = .eq → a = b

/-- Orders of a list whose elements the comparator tells apart sort to the same list. -/
theorem sortBy_eq_of_perm (h : Std.TransCmp cmp) {l l' : List α} (hsep : Separates cmp l) (hperm : l.Perm l') :
    sortBy cmp l = sortBy cmp l' := by
  have hsorts : (sortBy cmp l).Perm (sortBy cmp l') := ((perm_sortBy cmp l).trans hperm).trans (perm_sortBy cmp l').symm
  refine hsorts.eq_of_pairwise (fun a b ha hb hab hba => ?_) (pairwise_sortBy h l) (pairwise_sortBy h l')
  exact hsep a (mem_sortBy.mp ha) b (hperm.mem_iff.mpr (mem_sortBy.mp hb)) (tie_of_le h hab hba)

/-- Elements that tie stand in the order of the list: exchanging the first two changes the sorted list. -/
theorem sortBy_ne_of_tie (h : Std.TransCmp cmp) {a b : α} (hne : a ≠ b) (htie : cmp a b = .eq) (l : List α) :
    sortBy cmp (a :: b :: l) ≠ sortBy cmp (b :: a :: l) := by
  have htie' : cmp b a = .eq := by
    rw [h.eq_swap, htie]
    rfl
  have hab : le cmp a b := by
    unfold le
    rw [htie]
    rfl
  have hba : le cmp b a := by
    unfold le
    rw [htie']
    rfl
  -- the two insert at the same place, the later one in front
  have hsame : ∀ c, le cmp a c ↔ le cmp b c := fun c => ⟨h.isLE_trans hba, h.isLE_trans hab⟩
  have hinsert : ∀ {x y : α}, le cmp x y → (∀ c, le cmp x c ↔ le cmp y c) → ∀ s : List α,
      (s.orderedInsert (le cmp) y).orderedInsert (le cmp) x =
        (s.takeWhile fun c => ¬ le cmp x c) ++ x :: y :: s.dropWhile fun c => ¬ le cmp x c := by
    intro x y hxy hiff s
    induction s with
    | nil => simp [List.orderedInsert, hxy]
    | cons c s ih =>
      by_cases hc : le cmp y c
      · have hxc := (hiff c).mpr hc
        simp [List.orderedInsert, hc, hxc, hxy]
      · have hxc : ¬ le cmp x c := fun hx => hc ((hiff c).mp hx)
        rw [List.orderedInsert, if_neg hc, List.orderedInsert, if_neg hxc, ih]
        simp [hxc]
  intro heq
  have heq : ((sortBy cmp l).orderedInsert (le cmp) b).orderedInsert (le cmp) a =
      ((sortBy cmp l).orderedInsert (le cmp) a).orderedInsert (le cmp) b := heq
  rw [hinsert hab hsame, hinsert hba fun c => (hsame c).symm] at heq
  simp only [← hsame] at heq
  exact hne (List.cons.inj (List.append_cancel_left heq)).1

end ComparatorSort
