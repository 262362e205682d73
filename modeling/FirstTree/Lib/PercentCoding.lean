import Mathlib.Data.List.Basic

/-!
# Percent coding

Percent-encoding of texts by the bytes of their characters, and the strict decoder that refuses a malformed escape and bytes that are
no character. Encoding with any set of kept characters that leaves out the percent sign is undone by decoding.
-/

namespace PercentCoding

/-! ## Digits -/

/-- The digits of an escape as they are written. -/
def hexDigits : List Char := "0123456789ABCDEF".toList

/-- The digit of a number below sixteen. -/
def hexDigit (n : Nat) : Char := hexDigits.getD n '0'

/-- The number a hexadecimal digit denotes, in either case. -/
def hexValue (c : Char) : Option Nat := hexDigits.findIdx? (· = c.toUpper)

/-- The byte two digits denote. -/
def hexByte (a b : Char) : Option UInt8 := do
  let high ← hexValue a
  let low ← hexValue b
  pure (UInt8.ofNat (16 * high + low))

/-- A written digit reads back. -/
theorem hexValue_hexDigit {n : Nat} (h : n < 16) : hexValue (hexDigit n) = some n := by
  have key : ∀ m : Fin 16, hexValue (hexDigit m) = some m.val := by decide
  exact key ⟨n, h⟩

/-- The digits of a byte read back as the byte. -/
theorem hexByte_digits (b : UInt8) : hexByte (hexDigit (b.toNat / 16)) (hexDigit (b.toNat % 16)) = some b := by
  have hb : b.toNat < 256 := UInt8.toNat_lt b
  have hsum : 16 * (b.toNat / 16) + b.toNat % 16 = b.toNat := Nat.div_add_mod b.toNat 16
  simp only [hexByte, hexValue_hexDigit (show b.toNat / 16 < 16 by omega), hexValue_hexDigit (Nat.mod_lt _ (by decide)),
    Option.bind_eq_bind, Option.bind_some, hsum, Option.pure_def, UInt8.ofNat_toNat]

/-! ## Encoding -/

/-- The escape of a byte. -/
def escapeByte (b : UInt8) : List Char := ['%', hexDigit (b.toNat / 16), hexDigit (b.toNat % 16)]

/-- The escapes of a character: those of its bytes. -/
def escapeChar (c : Char) : List Char := (String.utf8EncodeChar c).flatMap escapeByte

/-- Escape every character that is not kept. -/
def encode (keep : Char → Bool) (t : List Char) : List Char :=
  t.flatMap fun c => if keep c then [c] else escapeChar c

/-- A text of kept characters is left as it is. -/
theorem encode_eq_self {keep : Char → Bool} {t : List Char} (h : ∀ c ∈ t, keep c = true) : encode keep t = t := by
  induction t with
  | nil => rfl
  | cons c t ih =>
    have ht := ih fun x hx => h x (List.mem_cons_of_mem _ hx)
    simp only [encode, List.flatMap_cons, h c List.mem_cons_self, if_true] at ht ⊢
    rw [ht]
    rfl

/-- A character an escape is made of. -/
def IsEscapeChar (c : Char) : Prop := c = '%' ∨ c ∈ hexDigits

/-- A digit is a character of an escape. -/
theorem hexDigit_mem {n : Nat} (h : n < 16) : hexDigit n ∈ hexDigits := by
  have key : ∀ m : Fin 16, hexDigit m ∈ hexDigits := by decide
  exact key ⟨n, h⟩

/-- The characters of an encoded text are kept ones and those of escapes. -/
theorem mem_encode {keep : Char → Bool} {t : List Char} {c : Char} (h : c ∈ encode keep t) :
    (keep c = true ∧ c ∈ t) ∨ IsEscapeChar c := by
  simp only [encode, List.mem_flatMap] at h
  obtain ⟨d, hd, hc⟩ := h
  by_cases hk : keep d = true
  · rw [if_pos hk, List.mem_singleton] at hc
    subst hc
    exact Or.inl ⟨hk, hd⟩
  · rw [if_neg hk] at hc
    simp only [escapeChar, List.mem_flatMap, escapeByte, List.mem_cons, List.not_mem_nil, or_false] at hc
    obtain ⟨b, -, hc⟩ := hc
    have hb : b.toNat < 256 := UInt8.toNat_lt b
    rcases hc with rfl | rfl | rfl
    · exact Or.inr (Or.inl rfl)
    · exact Or.inr (Or.inr (hexDigit_mem (by omega)))
    · exact Or.inr (Or.inr (hexDigit_mem (Nat.mod_lt _ (by decide))))

/-- Encoding twice is encoding once what either pass escapes, when the second pass keeps the escapes of the first. -/
theorem encode_encode {p q : Char → Bool} (hq : ∀ c, IsEscapeChar c → q c = true) (t : List Char) :
    encode q (encode p t) = encode (fun c => p c && q c) t := by
  have happend : ∀ a b, encode q (a ++ b) = encode q a ++ encode q b := fun a b => List.flatMap_append
  induction t with
  | nil => rfl
  | cons c t ih =>
    have hcons : ∀ r : Char → Bool, encode r (c :: t) = (if r c then [c] else escapeChar c) ++ encode r t := fun r =>
        List.flatMap_cons
    rw [hcons, hcons, happend, ih]
    cases hp : p c
    · have hkeep : encode q (escapeChar c) = escapeChar c := by
        refine encode_eq_self fun d hd => hq d ?_
        have hmem : d ∈ encode p [c] := by simpa [encode, hp] using hd
        rcases mem_encode hmem with ⟨hk, hd⟩ | he
        · rw [List.mem_singleton] at hd
          subst hd
          exact absurd hk (by simp [hp])
        · exact he
      simp [hkeep]
    · cases hqc : q c <;> simp [encode, hqc]

/-! ## Decoding -/

/-- The character whose encoding is exactly a list of bytes. -/
def completeChar (bytes : List UInt8) : Option Char :=
  (bytes.toByteArray.utf8DecodeChar? 0).filter fun c => String.utf8EncodeChar c = bytes

/-- Decode a text: an escape adds its byte to the character being read, which ends where the bytes are complete. -/
def decodeFrom (pending : List UInt8) : List Char → Option (List Char)
  | [] => if pending = [] then some [] else none
  | '%' :: a :: b :: rest =>
    match hexByte a b with
    | none => none
    | some byte =>
      match completeChar (pending ++ [byte]) with
      | some c => (c :: ·) <$> decodeFrom [] rest
      | none => if pending.length < 3 then decodeFrom (pending ++ [byte]) rest else none
  | '%' :: _ => none
  | c :: rest => if pending = [] then (c :: ·) <$> decodeFrom [] rest else none

/-- Decode a text, refusing a malformed escape and bytes that are no character. -/
def decode (t : List Char) : Option (List Char) := decodeFrom [] t

/-- The bytes of a character are complete. -/
theorem completeChar_encode (c : Char) : completeChar (String.utf8EncodeChar c) = some c := by
  have h := ByteArray.utf8DecodeChar?_utf8EncodeChar_append (b := ByteArray.empty) (c := c)
  rw [ByteArray.append_empty] at h
  simp [completeChar, h]

/-- Complete bytes are those of the character. -/
theorem encode_of_completeChar {bytes : List UInt8} {c : Char} (h : completeChar bytes = some c) :
    String.utf8EncodeChar c = bytes := by
  simp only [completeChar, Option.filter_eq_some_iff, decide_eq_true_eq] at h
  exact h.2

/-- Bytes that more bytes of a character follow are not complete. -/
theorem completeChar_split {c : Char} {p q : List UInt8} (h : String.utf8EncodeChar c = p ++ q) (hq : q ≠ []) :
    completeChar p = none := by
  cases hc : completeChar p with
  | none => rfl
  | some d =>
    have hd := encode_of_completeChar hc
    have h₁ := ByteArray.utf8DecodeChar?_utf8EncodeChar_append (b := ByteArray.empty) (c := c)
    have h₂ := ByteArray.utf8DecodeChar?_utf8EncodeChar_append (b := q.toByteArray) (c := d)
    rw [ByteArray.append_empty, h, List.toByteArray_append] at h₁
    rw [hd] at h₂
    obtain rfl : d = c := Option.some.inj (h₂.symm.trans h₁)
    rw [hd] at h
    exact absurd (List.self_eq_append_right.mp h) hq

/-- The escapes of the bytes still missing complete the character. -/
theorem decodeFrom_escapes (c : Char) (rest : List Char) (q p : List UInt8) (h : String.utf8EncodeChar c = p ++ q) (hq : q ≠ []) :
    decodeFrom p (q.flatMap escapeByte ++ rest) = (c :: ·) <$> decodeFrom [] rest := by
  induction q generalizing p with
  | nil => exact absurd rfl hq
  | cons b q ih =>
    simp only [List.flatMap_cons, escapeByte, List.cons_append, List.nil_append, decodeFrom, hexByte_digits]
    by_cases hn : q = []
    · subst hn
      rw [← h, completeChar_encode]
      rfl
    · have hlen : (String.utf8EncodeChar c).length ≤ 4 := by
        rw [String.length_utf8EncodeChar]
        exact Char.utf8Size_le_four c
      have hp : p.length < 3 := by
        rw [h] at hlen
        have := List.length_pos_iff.mpr hn
        simp only [List.length_append, List.length_cons] at hlen
        omega
      have h' : String.utf8EncodeChar c = (p ++ [b]) ++ q := by rw [h]; simp
      rw [completeChar_split h' hn, if_pos hp]
      exact ih (p ++ [b]) h' hn

/-- Decoding undoes an encoding that escapes the percent sign. -/
theorem decode_encode {keep : Char → Bool} (hk : keep '%' = false) (t : List Char) : decode (encode keep t) = some t := by
  induction t with
  | nil => rfl
  | cons c t ih =>
    simp only [decode, encode, List.flatMap_cons] at ih ⊢
    by_cases hc : keep c = true
    · have hne : c ≠ '%' := by
        rintro rfl
        exact absurd hc (by simp [hk])
      simp only [hc, if_true, List.cons_append, List.nil_append]
      rw [decodeFrom, if_pos rfl, ih]
      · rfl
      all_goals
        intros
        simp_all
    · rw [if_neg hc, escapeChar,
        decodeFrom_escapes c _ (String.utf8EncodeChar c) [] (List.nil_append _).symm String.utf8EncodeChar_ne_nil, ih]
      rfl

end PercentCoding
