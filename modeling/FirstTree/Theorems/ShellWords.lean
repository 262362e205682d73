import FirstTree.Theorems.ShellCommand

/-!
# The tokens of a command and its POSIX words

Both the tokenizer and a POSIX shell read the quoting of a command as `marks` does. They differ where the tokenizer drops a word
that is only quotations, a backslash that double quotes keep, takes a continued line for a line break, and separates words at
white space that is no blank.
-/

namespace FirstTree

open ShellQuoting ShellCommandIo

namespace ShellWords

/-- A blank of the POSIX locale. -/
def isBlank (c : Char) : Bool := c = ' ' || c = '\t'

/-- A character that starts an operator, or ends a line. -/
def isControl (c : Char) : Bool := isOperator c || c = '(' || c = ')' || c = '\n'

/-- A command is words and nothing else: it has no operator, no line break, no comment and no expansion outside quotations. -/
structure OnlyWords (ms : List (Char × Mark)) : Prop where
  control : PlainFree isControl ms
  comments : CommentFree isBlank true (held ms)
  expansions : Expands ms = false

/-- The words of a POSIX shell. -/
def posixWords (ms : List (Char × Mark)) : List (List Char) := wordsOf isBlank ms

/-- No word is empty, double quotes keep no backslash, no line is continued, and the white space between words is blank. -/
structure ReadAlike (ms : List (Char × Mark)) : Prop where
  words : [] ∉ posixWords ms
  backslashes : ('\x5c', .double) ∉ ms
  lines : ('\n', .escaped) ∉ ms
  blanks : ∀ c, (c, .plain) ∈ ms → isSpace c = true → isBlank c = true

end ShellWords

namespace ShellWordsAux

open ShellWords ShellAux

/-- A character that is in a token. -/
def inToken (x : Char × Mark) : Bool := ! (decide (x.2 = .plain) && isSpace x.1) && keepsChar x

/-- A character that is in a word. -/
def inWord (x : Char × Mark) : Bool := ! (decide (x.2 = .plain) && isBlank x.1) && (! isEscape x && decide (x.2 ≠ .quoting))

/-- A blank is white space. -/
theorem isSpace_of_isBlank {c : Char} (h : isBlank c = true) : isSpace c = true := by
  simp only [isBlank, Bool.or_eq_true, decide_eq_true_eq] at h
  rcases h with rfl | rfl <;> decide

/-- The values of the tokens that have one. -/
def tokenValues (ms : List (Char × Mark)) : List (List Char) := (valuedWords ms).map wordValue

/-- The text of the tokens. -/
theorem flatten_tokenValues (ms : List (Char × Mark)) : (tokenValues ms).flatten = (ms.filter inToken).map Prod.fst := by
  have hempty : ∀ l : List (List (Char × Mark)), ((l.filter fun word => wordValue word ≠ []).map wordValue).flatten =
      (l.flatten.filter keepsChar).map Prod.fst := by
    intro l
    induction l with
    | nil => rfl
    | cons word l ih =>
      rw [List.flatten_cons, List.filter_append, List.map_append, ← ih]
      by_cases hvalue : wordValue word = []
      · rw [List.filter_cons_of_neg (by simp [hvalue])]
        unfold wordValue at hvalue
        rw [hvalue, List.nil_append]
      · rw [List.filter_cons_of_pos (by simp [hvalue]), List.map_cons, List.flatten_cons]
        rfl
  unfold tokenValues valuedWords
  rw [hempty, flatten_splitWords, List.nil_append, List.filter_filter]
  unfold inToken
  simp only [Bool.and_comm]

/-- The text of the words. -/
theorem flatten_posixWords (ms : List (Char × Mark)) : (posixWords ms).flatten = (ms.filter inWord).map Prod.fst :=
  flatten_wordsOf ms

/-! ## What differs -/

/-- Apart from line breaks, what is in a token is in a word. -/
theorem inWord_of_inToken {x : Char × Mark} (hline : x.1 ≠ '\n') (h : inToken x = true) : inWord x = true := by
  obtain ⟨c, m⟩ := x
  cases hblank : isBlank c <;> cases hspace : isSpace c <;> cases m <;>
    simp_all [inToken, inWord, keepsChar, isEscape, isSpace_of_isBlank]

/-- A line break that is in a word is in a token. -/
theorem inToken_of_inWord {m : Mark} (hplain : m ≠ .plain) (h : inWord ('\n', m) = true) : inToken ('\n', m) = true := by
  cases m <;> simp_all [inToken, inWord, keepsChar, isEscape]

/-- Two filters of one list with as many elements are the same, when one implies the other. -/
theorem forall_of_countP_eq {α : Type} {p q : α → Bool} {l : List α} (himp : ∀ x ∈ l, p x = true → q x = true)
    (h : l.countP p = l.countP q) : ∀ x ∈ l, q x = true → p x = true := by
  induction l with
  | nil => exact fun x hx => absurd hx List.not_mem_nil
  | cons y l ih =>
    have himp' : ∀ x ∈ l, p x = true → q x = true := fun x hx => himp x (List.mem_cons_of_mem _ hx)
    have hle : l.countP p ≤ l.countP q := List.countP_mono_left himp'
    have hy := himp y List.mem_cons_self
    rw [List.countP_cons, List.countP_cons] at h
    intro x hx hqx
    cases hpy : p y with
    | true =>
      rw [hpy, hy hpy, if_pos rfl] at h
      rcases List.mem_cons.mp hx with rfl | hx
      · exact hpy
      · exact ih himp' (by omega) x hx hqx
    | false =>
      cases hqy : q y with
      | true =>
        rw [hpy, hqy, if_pos rfl, if_neg Bool.false_ne_true] at h
        omega
      | false =>
        rw [hpy, hqy] at h
        rcases List.mem_cons.mp hx with rfl | hx
        · rw [hqy] at hqx
          cases hqx
        · exact ih himp' (by omega) x hx hqx

/-- When tokens and words have the same text, the same characters of the command are in them. -/
theorem inToken_iff_inWord {ms : List (Char × Mark)} (hcontrol : PlainFree isControl ms)
    (h : (tokenValues ms).flatten = (posixWords ms).flatten) : ∀ x ∈ ms, inToken x = true ↔ inWord x = true := by
  rw [flatten_tokenValues, flatten_posixWords] at h
  have hcount : ∀ c, ms.countP (fun x => decide (x.1 = c) && inToken x) = ms.countP fun x => decide (x.1 = c) && inWord x := by
    intro c
    have hfilter : ∀ p : Char × Mark → Bool, ((ms.filter p).map Prod.fst).count c = ms.countP fun x => decide (x.1 = c) && p x := by
      intro p
      rw [List.count, List.countP_map, List.countP_filter]
      rfl
    rw [← hfilter, ← hfilter, h]
  rintro ⟨c, m⟩ hx
  by_cases hc : c = '\n'
  · have hplain : ∀ y ∈ ms, y.1 = '\n' → y.2 ≠ .plain := fun y hy hy1 hy2 => absurd (hcontrol y hy hy2) (by rw [hy1]; decide)
    have himp : ∀ y ∈ ms, (decide (y.1 = '\n') && inWord y) = true → (decide (y.1 = '\n') && inToken y) = true := by
      rintro ⟨d, m'⟩ hy hboth
      obtain ⟨hd, hword⟩ := Bool.and_eq_true_iff.mp hboth
      obtain rfl : d = '\n' := of_decide_eq_true hd
      exact Bool.and_eq_true_iff.mpr ⟨hd, inToken_of_inWord (hplain _ hy rfl) hword⟩
    have hback := forall_of_countP_eq himp (hcount '\n').symm (c, m) hx
    subst hc
    exact ⟨fun ht => by simpa [ht] using hback, inToken_of_inWord (hplain _ hx rfl)⟩
  · have himp : ∀ y ∈ ms, (decide (y.1 = c) && inToken y) = true → (decide (y.1 = c) && inWord y) = true := by
      rintro ⟨d, m'⟩ _ hboth
      obtain ⟨hd, htoken⟩ := Bool.and_eq_true_iff.mp hboth
      obtain rfl : d = c := of_decide_eq_true hd
      exact Bool.and_eq_true_iff.mpr ⟨hd, inWord_of_inToken hc htoken⟩
    have hback := forall_of_countP_eq himp (hcount c) (c, m) hx
    exact ⟨inWord_of_inToken hc, fun hw => by simpa [hw] using hback⟩

/-- No token is empty. -/
theorem nil_not_mem_tokenValues (ms : List (Char × Mark)) : [] ∉ tokenValues ms := by
  intro hmem
  obtain ⟨word, hword, hnil⟩ := List.mem_map.mp hmem
  exact absurd hnil (by simpa using (List.mem_filter.mp hword).2)

/-- When tokens and words are the same, the command is read alike. -/
theorem readAlike_of_eq {ms : List (Char × Mark)} (hcontrol : PlainFree isControl ms) (h : tokenValues ms = posixWords ms) :
    ReadAlike ms := by
  have hsame := inToken_iff_inWord hcontrol (congrArg List.flatten h)
  refine ⟨h ▸ nil_not_mem_tokenValues ms, fun hmem => ?_, fun hmem => ?_, fun c hmem hspace => ?_⟩
  · exact absurd ((hsame _ hmem).mpr (by decide)) (by decide)
  · exact absurd ((hsame _ hmem).mp (by decide)) (by decide)
  · by_contra hblank
    have hword : inWord (c, .plain) = true := by simpa [inWord, isEscape] using hblank
    have htoken := (hsame _ hmem).mpr hword
    simp [inToken, hspace] at htoken

/-- When a command is read alike, a word has its value without its quoting. -/
theorem wordValue_eq {ms word : List (Char × Mark)} (h : ReadAlike ms) (hword : ∀ x ∈ word, x ∈ ms) :
    wordValue word = removeQuotes word := by
  rw [wordValue, removeQuotes, held, List.filter_filter]
  refine congrArg _ (List.filter_congr fun x hx => ?_)
  obtain ⟨c, m⟩ := x
  have hbackslash : ¬ (c = '\x5c' ∧ m = .double) := by
    rintro ⟨rfl, rfl⟩
    exact h.backslashes (hword _ hx)
  have hline : ¬ (c = '\n' ∧ m = .escaped) := by
    rintro ⟨rfl, rfl⟩
    exact h.lines (hword _ hx)
  cases m <;> simp_all [keepsChar, isEscape]

/-- When a command is read alike, tokens and words are the same. -/
theorem eq_of_readAlike {ms : List (Char × Mark)} (h : ReadAlike ms) : tokenValues ms = posixWords ms := by
  have hblanks : ∀ x ∈ ms, x.2 = .plain → isSpace x.1 = isBlank x.1 := by
    rintro ⟨c, m⟩ hx rfl
    exact Bool.eq_iff_iff.mpr ⟨h.blanks c hx, isSpace_of_isBlank⟩
  have hvalue : ∀ word ∈ splitWords isBlank [] ms, wordValue word = removeQuotes word :=
    fun word hword => wordValue_eq h fun x hx => mem_of_mem_splitWords hword hx
  have hfilter : (splitWords isBlank [] ms).filter (wordValue · ≠ []) = (splitWords isBlank [] ms).filter (held · ≠ []) := by
    refine List.filter_congr fun word hword => decide_eq_decide.mpr ?_
    rw [hvalue word hword]
    constructor
    · intro hne hheld
      exact hne (by rw [removeQuotes, hheld]; rfl)
    · intro hheld hnil
      exact h.words (List.mem_map.mpr ⟨word, List.mem_filter.mpr ⟨hword, by simpa using hheld⟩, hnil⟩)
  unfold tokenValues valuedWords posixWords wordsOf
  rw [splitWords_congr hblanks, hfilter]
  exact List.map_congr_left fun word hword => hvalue word (List.mem_filter.mp hword).1

end ShellWordsAux

open ShellWords ShellWordsAux

/-- The tokens of a command of words are its POSIX words if and only if no word is empty, double quotes keep no backslash, no line is
continued, and the white space between words is blank. -/
theorem shell_words_agree_iff {command : List Char} {tokens : List ShellToken} {ms : List (Char × Mark)}
    (htokens : tokenizeSimpleShell command = .ok tokens) (hmarks : marks .plain command = some ms) (honly : OnlyWords ms) :
    tokens.map (·.value) = posixWords ms ↔ ReadAlike ms := by
  obtain ⟨ms', hms', _, _, rfl⟩ := ShellAux.tokenize_reads htokens
  obtain rfl : ms = ms' := Option.some.inj (hmarks.symm.trans hms')
  rw [List.map_map]
  exact ⟨readAlike_of_eq honly.control, eq_of_readAlike⟩

namespace ShellWordsAux

/-- `cat 'a b.md'`, marked. -/
def quotedPath : List (Char × Mark) :=
  "cat ".toList.map (·, Mark.plain) ++ ('\x27', Mark.quoting) :: ("a b.md".toList.map (·, Mark.single) ++ [('\x27', Mark.quoting)])

/-- It is words only. -/
theorem quotedPath_onlyWords : OnlyWords quotedPath := by
  refine ⟨by unfold PlainFree; decide, ?_, by decide⟩
  delta quotedPath
  simp [held, isEscape, CommentFree]

/-- `grep '' a.md`, marked. -/
def emptyPattern : List (Char × Mark) :=
  "grep ".toList.map (·, Mark.plain) ++ [('\x27', Mark.quoting), ('\x27', Mark.quoting)] ++ " a.md".toList.map (·, Mark.plain)

/-- It is words only. -/
theorem emptyPattern_onlyWords : OnlyWords emptyPattern := by
  refine ⟨by unfold PlainFree; decide, ?_, by decide⟩
  delta emptyPattern
  simp [held, isEscape, CommentFree]

end ShellWordsAux

/-- A quoted path is read alike. -/
theorem shell_words_agree_iff_quoted : ["cat".toList, "a b.md".toList] = posixWords quotedPath ↔ ReadAlike quotedPath :=
  @shell_words_agree_iff "cat 'a b.md'".toList [⟨"cat".toList, false⟩, ⟨"a b.md".toList, false⟩] quotedPath (by decide) (by decide)
    quotedPath_onlyWords

/-- An empty pattern is a word, and no token. -/
theorem empty_word_dropped :
    ¬ ∀ command tokens ms, tokenizeSimpleShell command = .ok tokens → marks .plain command = some ms → OnlyWords ms →
      tokens.map (·.value) = posixWords ms := by
  intro h
  have heq := h "grep '' a.md".toList [⟨"grep".toList, false⟩, ⟨"a.md".toList, false⟩] emptyPattern (by decide) (by decide)
    emptyPattern_onlyWords
  exact absurd heq (by decide)

end FirstTree
