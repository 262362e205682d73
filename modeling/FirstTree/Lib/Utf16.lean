import FirstTree.Lib.SelfDelimiting

/-!
# Texts in UTF-16

Texts as the code units a JavaScript string holds, with the units of ASCII texts and of decimal numbers.
-/

namespace Utf16

/-- The code unit of an ASCII character. -/
def unit (c : Char) : UInt16 := UInt16.ofNat c.toNat

/-- The code units of an ASCII text. -/
def units (s : String) : List UInt16 := s.toList.map unit

/-- What `\s` matches in a regular expression and `trim` drops. -/
def isSpace (c : UInt16) : Bool :=
  c = 0x20 || (0x09 ≤ c && c ≤ 0x0d) || c = 0xa0 || c = 0x1680 || (0x2000 ≤ c && c ≤ 0x200a) || c = 0x2028 || c = 0x2029 ||
    c = 0x202f || c = 0x205f || c = 0x3000 || c = 0xfeff

/-- The decimal text of a number. -/
def decimal (n : Nat) : List UInt16 := (SelfDelimiting.decimal n).map unit

/-- The code unit of a digit is its number. -/
theorem toNat_unit_digit {c : Char} (hc : c.isDigit = true) : (unit c).toNat = c.toNat := by
  have hle : c.toNat ≤ 57 := (Char.isDigit_iff_toNat.mp hc).2
  exact UInt16.toNat_ofNat_of_lt' (Nat.lt_of_le_of_lt hle (by decide))

/-- A character of a decimal text is a digit. -/
theorem isDigit_of_mem_decimal {n : Nat} {c : Char} (h : c ∈ SelfDelimiting.decimal n) : c.isDigit = true :=
  Nat.isDigit_of_mem_toDigits (by decide) (by decide) h

/-- Texts of digits with the same code units are the same. -/
theorem map_unit_injective {t u : List Char} (ht : ∀ c ∈ t, c.isDigit = true) (hu : ∀ c ∈ u, c.isDigit = true)
    (h : t.map unit = u.map unit) : t = u := by
  induction t generalizing u with
  | nil => exact (List.map_eq_nil_iff.mp h.symm).symm
  | cons c t ih =>
    cases u with
    | nil => cases h
    | cons d u =>
      obtain ⟨hcd, hrest⟩ := List.cons.inj h
      have hc := toNat_unit_digit (ht c List.mem_cons_self)
      have hd := toNat_unit_digit (hu d List.mem_cons_self)
      have heq : c = d := Char.toNat_inj.mp (by rw [← hc, ← hd, hcd])
      rw [heq, ih (fun c hc => ht c (List.mem_cons_of_mem _ hc)) (fun d hd => hu d (List.mem_cons_of_mem _ hd)) hrest]

/-- The decimal text of a number determines it. -/
theorem decimal_injective {m n : Nat} (h : decimal m = decimal n) : m = n :=
  SelfDelimiting.decimal_injective
    (map_unit_injective (fun _ hc => isDigit_of_mem_decimal hc) (fun _ hc => isDigit_of_mem_decimal hc) h)

/-- No decimal text has a colon. -/
theorem colon_notMem_decimal (n : Nat) : unit ':' ∉ decimal n := by
  intro h
  obtain ⟨c, hc, heq⟩ := List.mem_map.mp h
  have hdigit := isDigit_of_mem_decimal hc
  have hle : c.toNat ≤ 57 := (Char.isDigit_iff_toNat.mp hdigit).2
  have hcolon : (unit c).toNat = 58 := by rw [heq]; rfl
  rw [toNat_unit_digit hdigit] at hcolon
  omega

/-- A text behind its length and a colon is read back, and so is what follows it. -/
theorem lengthPrefixed_injective {t t' x x' : List UInt16}
    (h : decimal t.length ++ unit ':' :: (t ++ x) = decimal t'.length ++ unit ':' :: (t' ++ x')) : t = t' ∧ x = x' := by
  obtain ⟨hlen, hrest⟩ := SelfDelimiting.split_at (colon_notMem_decimal _) (colon_notMem_decimal _) h
  exact List.append_inj hrest (decimal_injective hlen)

end Utf16
