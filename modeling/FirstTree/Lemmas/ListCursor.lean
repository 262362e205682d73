import FirstTree.Lib.SelfDelimiting
import FirstTree.Server.ListCursor

/-!
# Lemmas about cursors of lists

A list ordered by a timestamp answers with the rows before the date of its cursor, and a text of dates for runs on given inputs.
-/

namespace FirstTree

open ListCursor

namespace ListCursorAux

/-- The rows that a cursor leaves. -/
def admits {α : Type} (D : DateText) (column : α → Timestamp) (cursor : Option (List Char)) : α → Bool :=
  match cursorDate D (fun _ => .unexpected "") cursor with
  | .error _ => fun _ => false
  | .ok date => isBefore column date

/-- The cursor of a row is read as its date. -/
theorem cursorDate_toISOString (D : DateText) (invalid : List Char → ServiceError) (d : Date) :
    cursorDate D invalid (some (D.toISOString d)) = .ok (some d) := by
  cases hd : D.toISOString d with
  | nil => exact absurd hd (D.toISOString_ne_nil d)
  | cons c rest =>
    have hread := D.read_toISOString d
    rw [hd] at hread
    simp only [cursorDate, hread]

/-- The cursor of a row of a list ordered by a timestamp. -/
def cursorOf {α : Type} (D : DateText) (column : α → Timestamp) (last : α) : List Char := D.toISOString (column last).toDate

/-- A list ordered by a timestamp answers with pages cut off at the date of their last row. -/
theorem answers_timestampPage {α β : Type} {D : DateText} {invalid : List Char → ServiceError} {column : α → Timestamp} {limit : Nat}
    {order : Keyset.OrderBy column} {seen : α → β} {rows : List α}
    {request : Nat → Option (List Char) → Except ServiceError (Keyset.Page β (List Char))}
    (h : ∀ i cursor, Keyset.IsCursor (cursorOf D column) rows cursor →
      request i cursor = (timestampPage D invalid column (order.sort i) rows limit cursor).map (·.map seen)) :
    Keyset.Answers dateCut limit order (cursorOf D column) (admits D column) seen rows request where
  first _ _ := rfl
  next b _ x _ := by
    rw [admits, cursorOf, cursorDate_toISOString]
    rfl
  ok i cursor hcursor := by
    rw [h i cursor hcursor]
    rcases hcursor with rfl | ⟨b, _, rfl⟩
    · rfl
    · unfold timestampPage admits cursorOf
      rw [cursorDate_toISOString, cursorDate_toISOString]
      rfl

/-! ## A text of dates -/

/-- The epoch. -/
def epoch : Timestamp := ⟨0, by decide⟩

/-- The text of the epoch. -/
def epochText : List Char := "1970-01-01T00:00:00.000Z".toList

/-- The text of the epoch, and for the other dates a number. -/
def dateText (millis : Int) : List Char :=
  if millis = 0 then epochText
  else if millis < 0 then '-' :: SelfDelimiting.decimal millis.natAbs
  else SelfDelimiting.decimal millis.natAbs

/-- The date of a number of milliseconds. -/
def dateOf (millis : Int) : Option Date :=
  if h : -maxDateMillis ≤ millis ∧ millis ≤ maxDateMillis then some ⟨millis, h⟩ else none

/-- The date of a text. -/
def readDate (t : List Char) : Option Date :=
  if t = epochText then dateOf 0
  else
    match t with
    | '-' :: digits => dateOf (-(Nat.ofDigitChars 10 digits 0 : Nat))
    | digits => dateOf (Nat.ofDigitChars 10 digits 0 : Nat)

/-- A decimal text has digits only. -/
theorem isDigit_of_mem_decimal {n : Nat} {c : Char} (h : c ∈ SelfDelimiting.decimal n) : c.isDigit = true :=
  Nat.isDigit_of_mem_toDigits (by decide) (by decide) h

/-- A decimal text is read back. -/
theorem ofDigitChars_decimal (n : Nat) : Nat.ofDigitChars 10 (SelfDelimiting.decimal n) 0 = n := Nat.ofDigitChars_ten_toDigits

/-- A decimal text starts with no sign. -/
theorem decimal_ne_sign {n : Nat} {digits : List Char} : SelfDelimiting.decimal n ≠ '-' :: digits := by
  intro h
  have := isDigit_of_mem_decimal (h ▸ List.mem_cons_self : '-' ∈ SelfDelimiting.decimal n)
  exact absurd this (by decide)

/-- A decimal text is not that of the epoch, signed or not. -/
theorem decimal_ne_epoch (n : Nat) : SelfDelimiting.decimal n ≠ epochText ∧ '-' :: SelfDelimiting.decimal n ≠ epochText := by
  constructor
  · intro h
    exact absurd (isDigit_of_mem_decimal (h ▸ (by decide : 'T' ∈ epochText))) (by decide)
  · intro h
    have hhead : some '-' = epochText.head? := congrArg List.head? h
    exact absurd hhead (by decide)

/-- The text of a date is read back. -/
theorem readDate_dateText (d : Date) : readDate (dateText d.millis) = some d := by
  have hdate : dateOf d.millis = some d := dif_pos d.valid
  obtain ⟨hpos, hneg⟩ := decimal_ne_epoch d.millis.natAbs
  unfold dateText
  split
  · rename_i hzero
    simp only [readDate, if_true]
    rw [← hzero, hdate]
  · split
    · rename_i hlt
      simp only [readDate, if_neg hneg]
      rw [ofDigitChars_decimal, Int.ofNat_natAbs_of_nonpos hlt.le, Int.neg_neg, hdate]
    · rename_i hle
      simp only [readDate, if_neg hpos]
      split
      · rename_i hsign
        exact absurd hsign decimal_ne_sign
      · rw [ofDigitChars_decimal, Int.natAbs_of_nonneg (not_lt.mp hle), hdate]

/-- A text of dates with the text of the epoch. -/
def epochDates : DateText where
  toISOString d := dateText d.millis
  read := readDate
  read_toISOString := readDate_dateText
  toISOString_ne_nil d h := by
    unfold dateText at h
    split at h
    · exact absurd h (by decide)
    · split at h
      · cases h
      · exact Nat.toDigits_ne_nil h
  no_bar d h := by
    unfold dateText at h
    split at h
    · exact absurd h (by decide)
    · split at h
      · rcases List.mem_cons.mp h with h | h
        · exact absurd h (by decide)
        · exact absurd (isDigit_of_mem_decimal h) (by decide)
      · exact absurd (isDigit_of_mem_decimal h) (by decide)

end ListCursorAux

end FirstTree
