import Mathlib.Order.Basic
import FirstTree.Lib.Keyset
import FirstTree.Server.AgentRuntime

/-!
# Cursors of lists

The timestamps of the database, which keep microseconds, the dates of the runtime, which keep milliseconds, the text of a date in a
cursor, and the page of a list ordered by a timestamp only.
-/

namespace FirstTree

/-- The last millisecond a `Date` can hold, and minus the first. -/
def maxDateMillis : Int := 8640000000000000

/-- A `Date`. -/
structure Date where
  millis : Int
  valid : -maxDateMillis ≤ millis ∧ millis ≤ maxDateMillis
  deriving DecidableEq

/-- A `timestamptz`, of a moment that a `Date` can hold. -/
structure Timestamp where
  micros : Int
  valid : -maxDateMillis ≤ micros / 1000 ∧ micros / 1000 ≤ maxDateMillis
  deriving DecidableEq

/-- The `Date` the driver reads: its microseconds are cut to milliseconds. -/
def Timestamp.toDate (t : Timestamp) : Date := ⟨t.micros / 1000, t.valid⟩

/-- The microseconds of the timestamp that a date is sent as. -/
def Date.micros (d : Date) : Int := d.millis * 1000

/-- A page limit, as the schemas accept it. -/
structure PageLimit where
  value : Nat
  positive : 1 ≤ value

/-- The text of dates: `toISOString`, and the constructor that reads a text, without a result for `Invalid Date`. -/
structure DateText where
  toISOString : Date → List Char
  read : List Char → Option Date
  read_toISOString : ∀ d, read (toISOString d) = some d
  toISOString_ne_nil : ∀ d, toISOString d ≠ []
  no_bar : ∀ d, '|' ∉ toISOString d

namespace ListCursor

theorem micros_injective : Function.Injective Timestamp.micros := by
  rintro ⟨a, _⟩ ⟨b, _⟩ h
  cases h
  rfl

/-- The order of timestamps. -/
instance : LinearOrder Timestamp := LinearOrder.lift' Timestamp.micros micros_injective

theorem lt_iff {a b : Timestamp} : a < b ↔ a.micros < b.micros := Iff.rfl

theorem le_iff {a b : Timestamp} : a ≤ b ↔ a.micros ≤ b.micros := Iff.rfl

/-- A date is never after the timestamp it was read from. -/
theorem toDate_le (t : Timestamp) : t.toDate.micros ≤ t.micros := Int.ediv_mul_le t.micros (by decide)

/-- What is strictly before a timestamp cut to milliseconds. -/
def dateCut : Keyset.Cut Timestamp where
  cut t t' := decide (t'.micros < t.toDate.micros)
  below t _ h := lt_iff.mpr ((of_decide_eq_true h).trans_le (toDate_le t))
  down _ _ _ h hle := decide_eq_true ((le_iff.mp hle).trans_lt (of_decide_eq_true h))

/-- The date of a cursor. An empty cursor counts as none. -/
def cursorDate (D : DateText) (invalid : List Char → ServiceError) : Option (List Char) → Except ServiceError (Option Date)
  | none => .ok none
  | some [] => .ok none
  | some cursor =>
    match D.read cursor with
    | none => .error (invalid cursor)
    | some date => .ok (some date)

/-- `lt(column, new Date(cursor))`, when there is a cursor. -/
def isBefore {α : Type} (column : α → Timestamp) (date : Option Date) (x : α) : Bool :=
  date.all fun d => decide ((column x).micros < d.micros)

/-- The page of a list ordered by a timestamp: one row more than the limit is read, and the cursor is the date of the last row. -/
def timestampPage {α : Type} (D : DateText) (invalid : List Char → ServiceError) (column : α → Timestamp) (orderBy : List α → List α)
    (matching : List α) (limit : Nat) (cursor : Option (List Char)) : Except ServiceError (Keyset.Page α (List Char)) := do
  let date ← cursorDate D invalid cursor
  let rows := (orderBy (matching.filter (isBefore column date))).take (limit + 1)
  pure (Keyset.page limit (fun last => D.toISOString (column last).toDate) rows)

end ListCursor

end FirstTree
