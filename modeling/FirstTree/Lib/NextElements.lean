import Mathlib.Order.Lattice
import Mathlib.Order.Defs.LinearOrder

/-!
# Next elements

The least element of a set beyond a bound, in any linear order; the search for the least one that is to be kept, by one step after
another that passes over none of these; and the enumeration of the elements beyond a bound, in order and with none left out.
-/

namespace NextElements

variable {α : Type*} [LinearOrder α] {p q : α → Prop} {next : α → Option α} {keep : α → Bool}

/-- The least element of a set beyond a bound, or none where there is none. -/
def IsNext (p : α → Prop) (a : α) : Option α → Prop
  | some b => p b ∧ a < b ∧ ∀ c, p c → a < c → b ≤ c
  | none => ∀ c, p c → c ≤ a

/-- What a step beyond a bound may answer when it passes over no element of a set: an element of another set that no element of
the first one comes before, or nothing where nothing is to come. -/
def PassesNone (q p : α → Prop) (a : α) : Option α → Prop
  | some b => q b ∧ a < b ∧ ∀ c, p c → a < c → b ≤ c
  | none => ∀ c, p c → c ≤ a

/-- The least element to keep beyond a bound, by so many steps to the next element. -/
def search (next : α → Option α) (keep : α → Bool) : Nat → α → Option α
  | 0, _ => none
  | fuel + 1, a =>
    match next a with
    | none => none
    | some b => if keep b then some b else search next keep fuel b

/-- An element the search finds lies beyond the bound, when each step goes on. -/
theorem lt_of_search (hnext : ∀ a b, next a = some b → a < b) {fuel : Nat} {a b : α} (h : search next keep fuel a = some b) :
    a < b := by
  induction fuel generalizing a with
  | zero => cases h
  | succ fuel ih =>
    rw [search] at h
    cases hb : next a with
    | none =>
      rw [hb] at h
      cases h
    | some c =>
      simp only [hb] at h
      split at h
      · exact Option.some.inj h ▸ hnext a c hb
      · exact (hnext a c hb).trans (ih h)

/-- An element the search finds is the least of those to keep. -/
theorem isNext_of_search (hnext : ∀ a, PassesNone q (fun c => q c ∧ keep c = true) a (next a)) {fuel : Nat} {a b : α}
    (h : search next keep fuel a = some b) : IsNext (fun c => q c ∧ keep c = true) a (some b) := by
  induction fuel generalizing a with
  | zero => cases h
  | succ fuel ih =>
    have ha := hnext a
    rw [search] at h
    cases hb : next a with
    | none =>
      rw [hb] at h
      cases h
    | some c =>
      rw [hb] at h ha
      obtain ⟨hqc, hac, hleast⟩ := ha
      dsimp only at h
      split at h
      · next hkeep =>
        obtain rfl := Option.some.inj h
        exact ⟨⟨hqc, hkeep⟩, hac, hleast⟩
      · next hskip =>
        obtain ⟨hb, hcb, hbleast⟩ := ih h
        refine ⟨hb, hac.trans hcb, fun d hd had => hbleast d hd ?_⟩
        rcases (hleast d hd had).lt_or_eq with hlt | rfl
        · exact hlt
        · exact absurd hd.2 hskip

/-- Where the search finds none, each element to keep lies beyond as many others as there were steps. -/
theorem skipped_of_search_eq_none (hnext : ∀ a, PassesNone q (fun c => q c ∧ keep c = true) a (next a)) {fuel : Nat} {a : α}
    (h : search next keep fuel a = none) {d : α} (hd : q d ∧ keep d = true) (had : a < d) :
    ∃ skipped : List α, skipped.length = fuel ∧ skipped.Pairwise (· < ·) ∧
      ∀ c ∈ skipped, q c ∧ keep c = false ∧ a < c ∧ c < d := by
  induction fuel generalizing a with
  | zero => exact ⟨[], rfl, List.Pairwise.nil, fun _ hc => absurd hc List.not_mem_nil⟩
  | succ fuel ih =>
    have ha := hnext a
    rw [search] at h
    cases hb : next a with
    | none =>
      rw [hb] at ha
      exact absurd had (not_lt.mpr (ha d hd))
    | some c =>
      rw [hb] at h ha
      obtain ⟨hqc, hac, hleast⟩ := ha
      dsimp only at h
      split at h
      · cases h
      · next hskip =>
        have hcd : c < d := by
          rcases (hleast d hd had).lt_or_eq with hlt | rfl
          · exact hlt
          · exact absurd hd.2 hskip
        obtain ⟨skipped, hlength, hsorted, hmem⟩ := ih h hcd
        refine ⟨c :: skipped, by simp [hlength], List.pairwise_cons.mpr ⟨fun e he => (hmem e he).2.2.1, hsorted⟩, ?_⟩
        intro e he
        rcases List.mem_cons.mp he with rfl | he
        · exact ⟨hqc, Bool.not_eq_true _ ▸ hskip, hac, hcd⟩
        · obtain ⟨hqe, hke, hce, hed⟩ := hmem e he
          exact ⟨hqe, hke, hac.trans hce, hed⟩

/-- The first elements of a set beyond a bound: in order, and none is left out up to the last. -/
structure Segment (p : α → Prop) (a : α) (l : List α) : Prop where
  mem : ∀ b ∈ l, p b
  ascending : (a :: l).Pairwise (· < ·)
  complete : ∀ b ∈ l, ∀ c, p c → a < c → c ≤ b → c ∈ l

theorem Segment.nil (p : α → Prop) (a : α) : Segment p a [] where
  mem _ h := absurd h List.not_mem_nil
  ascending := List.pairwise_singleton _ _
  complete _ h := absurd h List.not_mem_nil

/-- The next element, with the first ones beyond it. -/
theorem Segment.cons {a b : α} {l : List α} (hb : IsNext p a (some b)) (hl : Segment p b l) : Segment p a (b :: l) := by
  obtain ⟨hpb, hab, hleast⟩ := hb
  refine ⟨fun c hc => ?_, List.pairwise_cons.mpr ⟨fun c hc => ?_, hl.ascending⟩, fun c hc d hpd had hdc => ?_⟩
  · rcases List.mem_cons.mp hc with rfl | hc
    · exact hpb
    · exact hl.mem c hc
  · rcases List.mem_cons.mp hc with rfl | hc
    · exact hab
    · exact hab.trans ((List.pairwise_cons.mp hl.ascending).1 c hc)
  · rcases (hleast d hpd had).lt_or_eq with hlt | rfl
    · rcases List.mem_cons.mp hc with rfl | hc
      · exact absurd hdc (not_le.mpr hlt)
      · exact List.mem_cons_of_mem _ (hl.complete c hc d hpd hlt hdc)
    · exact List.mem_cons_self

end NextElements
