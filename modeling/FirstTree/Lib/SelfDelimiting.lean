import Mathlib.Algebra.GroupWithZero.Nat
import Mathlib.Data.List.Basic

/-!
# Encodings that end where they say

Words that can be written one after another and read back: a text up to a separator it does not have, a text of a known length,
and the sequence of such words. UTF-8 keeps texts apart, and writes the separator NUL for no other character.
-/

namespace SelfDelimiting

variable {α β : Type*}

/-- What stands before the first separator is determined, and so is what follows it. -/
theorem split_at {a a' b b' : List α} {c : α} (ha : c ∉ a) (ha' : c ∉ a') (h : a ++ c :: b = a' ++ c :: b') : a = a' ∧ b = b' := by
  induction a generalizing a' with
  | nil =>
    cases a' with
    | nil => exact ⟨rfl, (List.cons.inj h).2⟩
    | cons d a' => exact absurd (List.mem_cons.mpr (Or.inl (List.cons.inj h).1)) ha'
  | cons d a ih =>
    cases a' with
    | nil => exact absurd (List.mem_cons.mpr (Or.inl (List.cons.inj h).1.symm)) ha
    | cons d' a' =>
      obtain ⟨rfl, hrest⟩ := List.cons.inj h
      obtain ⟨rfl, hb⟩ := ih (fun hm => ha (List.mem_cons_of_mem _ hm)) (fun hm => ha' (List.mem_cons_of_mem _ hm)) hrest
      exact ⟨rfl, hb⟩

/-- An encoding whose words end where they say: a word is read back whatever follows it. -/
def Delimited (encode : α → List β) : Prop := ∀ a a' x x', encode a ++ x = encode a' ++ x' → a = a' ∧ x = x'

/-- A sequence of words, none of them empty, is read back. -/
theorem flatMap_injective {encode : α → List β} (h : Delimited encode) (hne : ∀ a, encode a ≠ []) {l l' : List α}
    (heq : l.flatMap encode = l'.flatMap encode) : l = l' := by
  induction l generalizing l' with
  | nil =>
    cases l' with
    | nil => rfl
    | cons a l' =>
      rw [List.flatMap_nil, List.flatMap_cons] at heq
      exact absurd (List.append_eq_nil_iff.mp heq.symm).1 (hne a)
  | cons a l ih =>
    cases l' with
    | nil =>
      rw [List.flatMap_nil, List.flatMap_cons] at heq
      exact absurd (List.append_eq_nil_iff.mp heq).1 (hne a)
    | cons a' l' =>
      rw [List.flatMap_cons, List.flatMap_cons] at heq
      obtain ⟨rfl, hrest⟩ := h a a' _ _ heq
      rw [ih hrest]

/-- Segments without the separator are read back from their joined text, when none is empty. -/
theorem intercalate_injective {c : α} {l l' : List (List α)} (hl : ∀ s ∈ l, s ≠ [] ∧ c ∉ s) (hl' : ∀ s ∈ l', s ≠ [] ∧ c ∉ s)
    (h : [c].intercalate l = [c].intercalate l') : l = l' := by
  have hempty : ∀ {s : List α} {m : List (List α)}, s ≠ [] → [c].intercalate (s :: m) ≠ [] := fun {s m} hs h => by
    cases m with
    | nil => exact hs (by simpa using h)
    | cons t m =>
      rw [List.intercalate_cons_cons] at h
      exact hs (List.append_eq_nil_iff.mp (List.append_eq_nil_iff.mp h).1).1
  induction l generalizing l' with
  | nil =>
    cases l' with
    | nil => rfl
    | cons s l' => exact absurd h.symm (hempty (hl' s List.mem_cons_self).1)
  | cons s l ih =>
    cases l' with
    | nil => exact absurd h (hempty (hl s List.mem_cons_self).1)
    | cons s' l' =>
      obtain ⟨_, hs⟩ := hl s List.mem_cons_self
      obtain ⟨_, hs'⟩ := hl' s' List.mem_cons_self
      cases l with
      | nil =>
        cases l' with
        | nil => simpa using h
        | cons t' l' =>
          rw [List.intercalate_singleton, List.intercalate_cons_cons, List.append_assoc] at h
          exact absurd (h ▸ List.mem_append_right _ (List.mem_append_left _ (List.mem_singleton.mpr rfl)) : c ∈ s) hs
      | cons t l =>
        cases l' with
        | nil =>
          rw [List.intercalate_singleton, List.intercalate_cons_cons, List.append_assoc] at h
          exact absurd (h ▸ List.mem_append_right _ (List.mem_append_left _ (List.mem_singleton.mpr rfl)) : c ∈ s') hs'
        | cons t' l' =>
          rw [List.intercalate_cons_cons, List.intercalate_cons_cons, List.append_assoc, List.append_assoc] at h
          obtain ⟨rfl, hrest⟩ := split_at hs hs' h
          rw [ih (fun x hx => hl x (List.mem_cons_of_mem _ hx)) (fun x hx => hl' x (List.mem_cons_of_mem _ hx)) hrest]

/-- A joined text starts with its first segment. -/
theorem intercalate_cons (c : α) (s : List α) (l : List (List α)) :
    [c].intercalate (s :: l) = s ++ if l = [] then [] else c :: [c].intercalate l := by
  cases l with
  | nil => simp
  | cons t l => simp [List.intercalate_cons_cons]

/-- A joined text ends with its last segment. -/
theorem intercalate_concat (c : α) (s : List α) (l : List (List α)) :
    [c].intercalate (l ++ [s]) = (if l = [] then [] else [c].intercalate l ++ [c]) ++ s := by
  induction l with
  | nil => simp
  | cons t l ih =>
    have hcons : l ++ [s] ≠ [] := List.append_ne_nil_of_right_ne_nil l (List.cons_ne_nil s [])
    rw [List.cons_append, intercalate_cons, ih, if_neg hcons, if_neg (List.cons_ne_nil t l), intercalate_cons]
    by_cases hl : l = []
    · simp [hl]
    · simp [hl]

/-- The length of a joined text: every segment counts with a separator, and one of these is missing. -/
theorem length_intercalate (c : α) {l : List (List α)} (hne : l ≠ []) :
    ([c].intercalate l).length + 1 = (l.map fun s => s.length + 1).sum := by
  induction l with
  | nil => exact absurd rfl hne
  | cons s l ih =>
    rw [intercalate_cons, List.length_append, List.map_cons, List.sum_cons]
    by_cases hl : l = []
    · simp [hl]
    · have := ih hl
      rw [if_neg hl, List.length_cons]
      omega

/-- With segments left out, a joined text is not longer. -/
theorem length_intercalate_le (c : α) {l l' : List (List α)} (hne : l ≠ []) (h : l.Sublist l') :
    ([c].intercalate l).length ≤ ([c].intercalate l').length := by
  have hsum : (l.map fun s => s.length + 1).sum ≤ (l'.map fun s => s.length + 1).sum := by
    clear hne
    induction h with
    | slnil => exact Nat.le_refl _
    | cons s _ ih =>
      rw [List.map_cons, List.sum_cons]
      omega
    | cons_cons s _ ih =>
      rw [List.map_cons, List.sum_cons, List.map_cons, List.sum_cons]
      omega
  have hl := length_intercalate c hne
  have hl' := length_intercalate c (fun h' : l' = [] => hne (List.sublist_nil.mp (h' ▸ h)))
  omega

/-- A joined text has the characters of its segments, and the separator. -/
theorem mem_intercalate {a c : α} {l : List (List α)} (h : a ∈ [c].intercalate l) : a = c ∨ ∃ s ∈ l, a ∈ s := by
  induction l with
  | nil => simp at h
  | cons s l ih =>
    rw [intercalate_cons, List.mem_append] at h
    rcases h with h | h
    · exact .inr ⟨s, List.mem_cons_self, h⟩
    · split at h
      · simp at h
      · rcases List.mem_cons.mp h with h | h
        · exact .inl h
        · rcases ih h with h | ⟨t, ht, h⟩
          · exact .inl h
          · exact .inr ⟨t, List.mem_cons_of_mem s ht, h⟩

/-- The characters of a segment are in the joined text. -/
theorem mem_intercalate_of_mem {a c : α} {s : List α} {l : List (List α)} (hs : s ∈ l) (h : a ∈ s) : a ∈ [c].intercalate l := by
  induction l with
  | nil => cases hs
  | cons t l ih =>
    rw [intercalate_cons, List.mem_append]
    rcases List.mem_cons.mp hs with rfl | hs
    · exact .inl h
    · rw [if_neg (List.ne_nil_of_mem hs)]
      exact .inr (List.mem_cons_of_mem c (ih hs))

/-! ## Texts in bytes -/

/-- The bytes of a text in UTF-8. -/
def utf8 (t : List Char) : List UInt8 := t.flatMap String.utf8EncodeChar

/-- The bytes of two texts one after the other. -/
theorem utf8_append (t u : List Char) : utf8 (t ++ u) = utf8 t ++ utf8 u := List.flatMap_append

/-- The bytes of a text determine it. -/
theorem utf8_injective {t u : List Char} (h : utf8 t = utf8 u) : t = u :=
  String.ofList_injective (String.toByteArray_inj.mp (congrArg List.toByteArray h))

/-- Only the character NUL is written with a zero byte. -/
theorem zero_notMem_utf8EncodeChar {c : Char} (hc : c ≠ '\x00') : (0 : UInt8) ∉ String.utf8EncodeChar c := by
  have hpos : c.val.toNat ≠ 0 := fun h => hc (Char.ext (UInt32.toNat_inj.mp h))
  have hbyte : ∀ n, 0 < n → n < 256 → (0 : UInt8) ≠ UInt8.ofNat n := fun n hn hlt h => by
    have h := congrArg UInt8.toNat h
    rw [UInt8.toNat_ofNat_of_lt' hlt] at h
    exact absurd h.symm (Nat.pos_iff_ne_zero.mp hn)
  unfold String.utf8EncodeChar
  dsimp only
  split
  · rw [List.mem_singleton]
    exact hbyte _ (by omega) (by omega)
  · split
    · simp only [List.mem_cons, List.not_mem_nil, or_false, not_or]
      exact ⟨hbyte _ (by omega) (by omega), hbyte _ (by omega) (by omega)⟩
    · split
      · simp only [List.mem_cons, List.not_mem_nil, or_false, not_or]
        exact ⟨hbyte _ (by omega) (by omega), hbyte _ (by omega) (by omega), hbyte _ (by omega) (by omega)⟩
      · simp only [List.mem_cons, List.not_mem_nil, or_false, not_or]
        exact ⟨hbyte _ (by omega) (by omega), hbyte _ (by omega) (by omega), hbyte _ (by omega) (by omega),
          hbyte _ (by omega) (by omega)⟩

/-- A text without NUL has no zero byte. -/
theorem zero_notMem_utf8 {t : List Char} (h : '\x00' ∉ t) : (0 : UInt8) ∉ utf8 t := by
  rw [utf8, List.mem_flatMap]
  rintro ⟨c, hc, hmem⟩
  exact zero_notMem_utf8EncodeChar (fun hnul => h (hnul ▸ hc)) hmem

/-- A text without NUL, followed by NUL, is read back from its bytes. -/
theorem utf8_terminated {t u : List Char} (ht : '\x00' ∉ t) (hu : '\x00' ∉ u) {x y : List UInt8}
    (h : utf8 t ++ 0 :: x = utf8 u ++ 0 :: y) : t = u ∧ x = y := by
  obtain ⟨htu, hxy⟩ := split_at (zero_notMem_utf8 ht) (zero_notMem_utf8 hu) h
  exact ⟨utf8_injective htu, hxy⟩

/-- The decimal text of a number. -/
def decimal (n : Nat) : List Char := Nat.toDigits 10 n

/-- The decimal text of a number determines it. -/
theorem decimal_injective {m n : Nat} (h : decimal m = decimal n) : m = n := by
  have h := congrArg (fun t => Nat.ofDigitChars 10 t 0) h
  simpa only [decimal, Nat.ofDigitChars_ten_toDigits] using h

/-- No decimal text has a NUL. -/
theorem nul_notMem_decimal (n : Nat) : '\x00' ∉ decimal n := fun h =>
  absurd (Nat.isDigit_of_mem_toDigits (by decide) (by decide) h) (by decide)

end SelfDelimiting
