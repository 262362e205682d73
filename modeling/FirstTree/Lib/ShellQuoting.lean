import Mathlib.Data.List.Basic

/-!
# Shell quoting

How a POSIX shell reads the quotes and the backslashes of a command, character by character. Each character is marked by what it is:
plain, inside one of the two quotations, escaped, or part of the quoting itself. Substitutions are not parsed: their characters are
marked as any others. Words are what plain blanks separate.
-/

namespace ShellQuoting

/-- How a character is read: outside quotes, in one of the two quotations, or after a backslash. -/
inductive QuoteState where
  | plain
  | single
  | double
  | plainEscape
  | doubleEscape
  deriving DecidableEq, Repr

/-- What a character of a command is. -/
inductive Mark where
  | plain
  | single
  | double
  | escaped
  | quoting
  deriving DecidableEq, Repr

/-- The characters that a backslash escapes inside double quotes. -/
def escapable (c : Char) : Bool :=
  c = '$' || c = '\x60' || c = '\x22' || c = '\x5c' || c = '\n'

/-- The mark of a character and how the next one is read; `next` is that character. -/
def markChar (state : QuoteState) (c : Char) (next : Option Char) : Mark × QuoteState :=
  match state with
  | .plain =>
    if c = '\x27' then (.quoting, .single)
    else if c = '\x22' then (.quoting, .double)
    else if c = '\x5c' then (.quoting, .plainEscape)
    else (.plain, .plain)
  | .single => if c = '\x27' then (.quoting, .plain) else (.single, .single)
  | .double =>
    if c = '\x22' then (.quoting, .plain)
    else if c = '\x5c' ∧ next.any escapable then (.quoting, .doubleEscape)
    else (.double, .double)
  | .plainEscape => (.escaped, .plain)
  | .doubleEscape => (.escaped, .double)

/-- The marks of a command; none when a quotation is not closed or a backslash has no character to escape. -/
def marks (state : QuoteState) : List Char → Option (List (Char × Mark))
  | [] => if state = .plain then some [] else none
  | c :: rest => (marks (markChar state c rest.head?).2 rest).map ((c, (markChar state c rest.head?).1) :: ·)

/-- No plain character is of a kind. -/
def PlainFree (kind : Char → Bool) (ms : List (Char × Mark)) : Prop :=
  ∀ x ∈ ms, x.2 = .plain → kind x.1 = false

/-- No comment starts: no plain `#` is the first character or follows a plain blank. -/
def CommentFree (blank : Char → Bool) : (atStart : Bool) → List (Char × Mark) → Prop
  | _, [] => True
  | atStart, (c, m) :: rest =>
    ¬ (atStart = true ∧ m = .plain ∧ c = '#') ∧ CommentFree blank (decide (m = .plain) && blank c) rest

/-- The words of marked characters, after the characters `word` of the first; a word may be empty. -/
def splitWords (blank : Char → Bool) (word : List (Char × Mark)) : List (Char × Mark) → List (List (Char × Mark))
  | [] => [word]
  | (c, m) :: rest =>
    if m = .plain ∧ blank c then word :: splitWords blank [] rest else splitWords blank (word ++ [(c, m)]) rest

/-- A word holds a character that starts a substitution, neither escaped nor in single quotes. -/
def Expands (word : List (Char × Mark)) : Bool :=
  word.any fun x => (x.1 = '$' || x.1 = '\x60') && (x.2 = .plain || x.2 = .double)

/-- A word holds a command substitution, neither escaped nor in single quotes. -/
def Substitutes (word : List (Char × Mark)) : Prop :=
  ∃ m, (m = .plain ∨ m = .double) ∧ (('\x60', m) ∈ word ∨ [('$', m), ('(', m)].IsInfix word)

/-! ## Words without their quoting -/

/-- A backslash that escapes, or the line break that one takes out of the command. -/
def isEscape (x : Char × Mark) : Bool := (x.1 = '\x5c' && x.2 = .quoting) || (x.1 = '\n' && x.2 = .escaped)

/-- What a word holds beside escapes: characters and quotations. -/
def held (word : List (Char × Mark)) : List (Char × Mark) := word.filter fun x => ! isEscape x

/-- Remove the quoting of a word. -/
def removeQuotes (word : List (Char × Mark)) : List Char := ((held word).filter fun x => x.2 ≠ .quoting).map Prod.fst

/-- The words of a command after quote removal. Between two blanks there is a word when there is a character or a quotation. -/
def wordsOf (blank : Char → Bool) (ms : List (Char × Mark)) : List (List Char) :=
  ((splitWords blank [] ms).filter fun word => held word ≠ []).map removeQuotes

variable {blank blank' : Char → Bool}

/-- The words together are the marked characters without the blanks between them. -/
theorem flatten_splitWords (blank : Char → Bool) (word ms : List (Char × Mark)) :
    (splitWords blank word ms).flatten = word ++ ms.filter fun x => ! (decide (x.2 = .plain) && blank x.1) := by
  induction ms generalizing word with
  | nil => simp [splitWords]
  | cons x ms ih =>
    obtain ⟨c, m⟩ := x
    by_cases hblank : m = .plain ∧ blank c = true
    · rw [splitWords, if_pos hblank, List.flatten_cons, ih, List.filter_cons_of_neg (by simp [hblank]), List.nil_append]
    · have hkeep : (! (decide (m = .plain) && blank c)) = true := by
        cases hb : blank c with
        | false => simp
        | true => simpa using fun hm : m = .plain => hblank ⟨hm, hb⟩
      rw [splitWords, if_neg hblank, ih, List.append_assoc, List.filter_cons, if_pos hkeep]
      rfl

/-- Blanks that agree on the plain characters separate the same words. -/
theorem splitWords_congr {ms : List (Char × Mark)} (h : ∀ x ∈ ms, x.2 = .plain → blank x.1 = blank' x.1) (word : List (Char × Mark)) :
    splitWords blank word ms = splitWords blank' word ms := by
  induction ms generalizing word with
  | nil => rfl
  | cons x ms ih =>
    obtain ⟨c, m⟩ := x
    have ih' := ih fun y hy => h y (List.mem_cons_of_mem _ hy)
    have hsame : (m = .plain ∧ blank c = true) ↔ (m = .plain ∧ blank' c = true) := by
      constructor
      · rintro ⟨hm, hb⟩
        exact ⟨hm, (h (c, m) List.mem_cons_self hm) ▸ hb⟩
      · rintro ⟨hm, hb⟩
        exact ⟨hm, (h (c, m) List.mem_cons_self hm).symm ▸ hb⟩
    by_cases hb : m = .plain ∧ blank c = true
    · rw [splitWords, if_pos hb, splitWords, if_pos (hsame.mp hb), ih']
    · rw [splitWords, if_neg hb, splitWords, if_neg fun hb' => hb (hsame.mpr hb'), ih']

/-- A character of a word is one of the command. -/
theorem mem_of_mem_splitWords {ms word : List (Char × Mark)} {x : Char × Mark} (hword : word ∈ splitWords blank [] ms)
    (hx : x ∈ word) : x ∈ ms := by
  have hflat : x ∈ (splitWords blank [] ms).flatten := List.mem_flatten.mpr ⟨word, hword, hx⟩
  rw [flatten_splitWords, List.nil_append] at hflat
  exact (List.mem_filter.mp hflat).1

/-- The text of the words of a command. -/
theorem flatten_wordsOf (ms : List (Char × Mark)) : (wordsOf blank ms).flatten =
    (ms.filter fun x => ! (decide (x.2 = .plain) && blank x.1) && (! isEscape x && decide (x.2 ≠ .quoting))).map Prod.fst := by
  have hempty : ∀ l : List (List (Char × Mark)), ((l.filter fun word => held word ≠ []).map removeQuotes).flatten =
      (l.flatten.filter fun x => ! isEscape x && decide (x.2 ≠ .quoting)).map Prod.fst := by
    intro l
    induction l with
    | nil => rfl
    | cons word l ih =>
      have hword : removeQuotes word = (word.filter fun x => ! isEscape x && decide (x.2 ≠ .quoting)).map Prod.fst := by
        rw [removeQuotes, held, List.filter_filter]
        simp only [Bool.and_comm]
      rw [List.flatten_cons, List.filter_append, List.map_append, ← ih, ← hword]
      by_cases hheld : held word = []
      · rw [List.filter_cons_of_neg (by simp [hheld]), removeQuotes, hheld]
        rfl
      · rw [List.filter_cons_of_pos (by simp [hheld]), List.map_cons, List.flatten_cons]
  rw [wordsOf, hempty, flatten_splitWords, List.nil_append, List.filter_filter]
  simp only [Bool.and_comm]

end ShellQuoting
