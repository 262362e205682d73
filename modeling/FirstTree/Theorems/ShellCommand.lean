import FirstTree.Lib.ShellQuoting
import FirstTree.Shared.ShellCommandIo

/-!
# What a supported shell command is

The tokenizer against the quoting of a POSIX shell: what it accepts has no plain operator and no comment, and its tokens are the words
of the command. A command that is classified as a read is one such command after at most two wrappers, and its paths are words of it.
-/

namespace FirstTree

open ShellQuoting ShellCommandIo

/-! ## Tokens and words -/

/-- A plain character that ends a simple command or redirects it. -/
def isOperator (c : Char) : Bool := c = '|' || c = ';' || c = '&' || c = '>' || c = '<'

/-- A character that the tokenizer keeps: none of the quoting, and no backslash in double quotes. -/
def keepsChar (x : Char × Mark) : Bool := x.2 ≠ .quoting && ! (x.1 = '\x5c' && x.2 = .double)

/-- The value of a word. -/
def wordValue (word : List (Char × Mark)) : List Char := (word.filter keepsChar).map (·.1)

/-- The words with a value. -/
def valuedWords (ms : List (Char × Mark)) : List (List (Char × Mark)) :=
  (splitWords isSpace [] ms).filter (wordValue · ≠ [])

/-- The tokens of words. -/
def tokensOf (words : List (List (Char × Mark))) : List ShellToken :=
  (words.filter (wordValue · ≠ [])).map fun w => { value := wordValue w, dynamic := Expands w }

namespace ShellAux

/-- How the shell reads the next character where the tokenizer is. A backslash in double quotes is a character of its own before one
that it does not escape. -/
def stateOf (quote : Option ShellQuote) (escaped : Bool) (next : Option Char) : QuoteState :=
  match quote, escaped with
  | none, false => .plain
  | none, true => .plainEscape
  | some .single, _ => .single
  | some .double, false => .double
  | some .double, true => if next.any escapable then .doubleEscape else .double

/-- What the tokenizer guarantees of the characters to come, when `word` is what it has read of a word. -/
structure Reads (tokens : List ShellToken) (word : List (Char × Mark)) (atStart : Bool) (ms : List (Char × Mark)) : Prop where
  operators : PlainFree isOperator ms
  comments : CommentFree isSpace atStart ms
  tokens : tokens = tokensOf (splitWords isSpace word ms)

theorem wordValue_append (word : List (Char × Mark)) (x : Char × Mark) :
    wordValue (word ++ [x]) = wordValue word ++ if keepsChar x then [x.1] else [] := by
  unfold wordValue
  rw [List.filter_append, List.map_append]
  by_cases h : keepsChar x = true
  · rw [List.filter_cons_of_pos h, if_pos h]
    rfl
  · rw [List.filter_cons_of_neg h, if_neg h]
    rfl

theorem expands_append (word : List (Char × Mark)) (x : Char × Mark) :
    Expands (word ++ [x]) = (Expands word || isDynamicChar x.1 && (x.2 = .plain || x.2 = .double)) := by
  simp [Expands, isDynamicChar]

/-- A word that expands has a value. -/
theorem expands_of_wordValue_nil {word : List (Char × Mark)} (h : wordValue word = []) : Expands word = false := by
  unfold wordValue at h
  rw [List.map_eq_nil_iff, List.filter_eq_nil_iff] at h
  refine List.any_eq_false.mpr fun x hx hexpands => h x hx ?_
  rw [Bool.and_eq_true, Bool.or_eq_true, Bool.or_eq_true] at hexpands
  obtain ⟨hchar, hmark⟩ := hexpands
  have hnotBackslash : x.1 ≠ '\x5c' := by
    rcases hchar with hchar | hchar <;> rw [of_decide_eq_true hchar] <;> decide
  rcases hmark with hmark | hmark <;> simp [keepsChar, of_decide_eq_true hmark, hnotBackslash]

/-- The tokenizer reads one more character of a word. -/
theorem Reads.cons {tokens : List ShellToken} {word ms : List (Char × Mark)} {atStart : Bool} {c : Char} {m : Mark}
    (h : Reads tokens (word ++ [(c, m)]) false ms)
    (hplain : m = .plain → isOperator c = false ∧ isSpace c = false ∧ ¬ (atStart = true ∧ c = '#')) :
    Reads tokens word atStart ((c, m) :: ms) := by
  refine ⟨?_, ?_, ?_⟩
  · intro x hx hmark
    rcases List.mem_cons.mp hx with rfl | hx
    · exact (hplain hmark).1
    · exact h.operators x hx hmark
  · refine ⟨fun hbad => (hplain hbad.2.1).2.2 ⟨hbad.1, hbad.2.2⟩, ?_⟩
    have hstart : (decide (m = .plain) && isSpace c) = false := by
      by_cases hm : m = .plain
      · simp [(hplain hm).2.1]
      · simp [hm]
    rw [hstart]
    exact h.comments
  · have hsame : ¬ (m = .plain ∧ isSpace c = true) := by
      rintro ⟨hm, hs⟩
      rw [(hplain hm).2.1] at hs
      exact absurd hs (by simp)
    rw [splitWords, if_neg hsame]
    exact h.tokens

/-- The tokenizer comes to a blank. -/
theorem Reads.blank {tokens : List ShellToken} {word ms : List (Char × Mark)} {c : Char} (atStart : Bool)
    (h : Reads tokens [] true ms) (hc : isSpace c = true) :
    Reads (flushed (wordValue word) (Expands word) ++ tokens) word atStart ((c, .plain) :: ms) := by
  refine ⟨?_, ?_, ?_⟩
  · intro x hx hmark
    rcases List.mem_cons.mp hx with rfl | hx
    · by_contra hop
      simp only [isOperator, Bool.or_eq_true, decide_eq_true_eq, Bool.not_eq_false] at hop
      rcases hop with (((hop | hop) | hop) | hop) | hop <;> (rw [show c = _ from hop] at hc; exact absurd hc (by decide))
    · exact h.operators x hx hmark
  · refine ⟨?_, ?_⟩
    · rintro ⟨_, _, rfl⟩
      exact absurd hc (by decide)
    · rw [hc]
      exact h.comments
  · rw [splitWords, if_pos ⟨rfl, hc⟩, h.tokens]
    unfold tokensOf flushed
    by_cases hv : wordValue word = []
    · rw [if_pos hv, List.filter_cons_of_neg (by simp [hv])]
      rfl
    · rw [if_neg hv, List.filter_cons_of_pos (by simp [hv])]
      rfl

/-- A character that the word keeps. -/
theorem wordValue_keep (word : List (Char × Mark)) {c : Char} {m : Mark}
    (hm : m = .plain ∨ m = .single ∨ m = .escaped ∨ m = .double ∧ c ≠ '\x5c') :
    wordValue (word ++ [(c, m)]) = wordValue word ++ [c] := by
  have hkeep : keepsChar (c, m) = true := by
    rcases hm with rfl | rfl | rfl | ⟨rfl, hc⟩ <;> simp [keepsChar, *]
  rw [wordValue_append, if_pos hkeep]

/-- A character that the word does not keep. -/
theorem wordValue_drop (word : List (Char × Mark)) {c : Char} {m : Mark} (hm : m = .quoting ∨ m = .double ∧ c = '\x5c') :
    wordValue (word ++ [(c, m)]) = wordValue word := by
  have hdrop : keepsChar (c, m) = false := by
    rcases hm with rfl | ⟨rfl, hc⟩ <;> simp [keepsChar, *]
  rw [wordValue_append, hdrop]
  exact List.append_nil _

/-- A character that the shell does not expand. -/
theorem expands_hidden (word : List (Char × Mark)) {c : Char} {m : Mark}
    (hm : m = .quoting ∨ m = .single ∨ m = .escaped ∨ isDynamicChar c = false) :
    Expands (word ++ [(c, m)]) = Expands word := by
  rw [expands_append]
  rcases hm with rfl | rfl | rfl | hc <;> simp [*]

/-- A character that the shell expands if it starts a substitution. -/
theorem expands_shown (word : List (Char × Mark)) {c : Char} {m : Mark} (hm : m = .plain ∨ m = .double) :
    Expands (word ++ [(c, m)]) = (Expands word || isDynamicChar c) := by
  rw [expands_append]
  rcases hm with rfl | rfl <;> simp

theorem not_operator {c : Char} (h : ¬ isComplexChar c = true) : isOperator c = false := by
  simp only [isComplexChar, isOperator, Bool.or_eq_true, decide_eq_true_eq, not_or] at h ⊢
  simp [h]

/-- Outside quotes a blank is a plain character. -/
theorem markChar_space {c : Char} {next : Option Char} (h : isSpace c = true) : markChar .plain c next = (.plain, .plain) := by
  have hne : ∀ d, isSpace d = false → c ≠ d := by
    rintro d hd rfl
    rw [h] at hd
    cases hd
  simp [markChar, hne '\x27' (by decide), hne '\x22' (by decide), hne '\x5c' (by decide)]

theorem except_map_ok {α β ε : Type} {x : Except ε α} {f : α → β} {y : β} (h : x.map f = .ok y) : ∃ a, x = .ok a ∧ f a = y := by
  cases x with
  | error e => cases h
  | ok a => exact ⟨a, rfl, Except.ok.inj h⟩

/-- The characters to come, read by the shell from a state, are what the tokenizer takes them for. -/
def ReadFrom (state : QuoteState) (l : List Char) (tokens : List ShellToken) (word : List (Char × Mark)) (atStart : Bool) : Prop :=
  ∃ ms, marks state l = some ms ∧ Reads tokens word atStart ms

/-- One character of a word. -/
theorem ReadFrom.cons {state state' : QuoteState} {c : Char} {m : Mark} {rest : List Char} {tokens : List ShellToken}
    {word : List (Char × Mark)} {atStart : Bool} (hmark : markChar state c rest.head? = (m, state'))
    (h : ReadFrom state' rest tokens (word ++ [(c, m)]) false)
    (hplain : m = .plain → isOperator c = false ∧ isSpace c = false ∧ ¬ (atStart = true ∧ c = '#')) :
    ReadFrom state (c :: rest) tokens word atStart := by
  obtain ⟨ms, hms, hreads⟩ := h
  refine ⟨(c, m) :: ms, ?_, hreads.cons hplain⟩
  rw [marks, hmark, hms]
  rfl

/-- What the tokenizer accepts is read by the shell as it reads it. -/
theorem tokenizeFrom_reads (l : List Char) : ∀ (quote : Option ShellQuote) (escaped : Bool) (word : List (Char × Mark))
    (atStart : Bool) (tokens : List ShellToken),
    tokenizeFrom quote escaped (wordValue word) (Expands word) l = .ok tokens → (escaped = true → quote ≠ some .single) →
      (atStart = true → wordValue word = []) →
      ReadFrom (stateOf quote escaped l.head?) l tokens word atStart := by
  induction l with
  | nil =>
    intro quote escaped word atStart tokens h _ _
    unfold tokenizeFrom at h
    split at h
    · rename_i hend
      obtain ⟨rfl, rfl⟩ := hend
      obtain rfl := Except.ok.inj h
      refine ⟨[], rfl, fun x hx => absurd hx (by simp), trivial, ?_⟩
      unfold flushed tokensOf
      by_cases hnil : wordValue word = [] <;> simp [splitWords, hnil]
    · cases h
  | cons c rest ih =>
    intro quote escaped word atStart tokens h hsingle hstart
    -- one more character of the word, after which the tokenizer is in `quote'`
    have step : ∀ (m : Mark) (quote' : Option ShellQuote) (escaped' : Bool) (value : List Char) (dynamic : Bool),
        tokenizeFrom quote' escaped' value dynamic rest = .ok tokens → value = wordValue (word ++ [(c, m)]) →
        dynamic = Expands (word ++ [(c, m)]) → (escaped' = true → quote' ≠ some .single) →
        markChar (stateOf quote escaped (some c)) c rest.head? = (m, stateOf quote' escaped' rest.head?) →
        (m = .plain → isOperator c = false ∧ isSpace c = false ∧ ¬ (atStart = true ∧ c = '#')) →
        ReadFrom (stateOf quote escaped (some c)) (c :: rest) tokens word atStart := by
      rintro m quote' escaped' _ _ h' rfl rfl hsingle' hmark hplain
      exact ReadFrom.cons hmark (ih quote' escaped' _ false tokens h' hsingle' (by simp)) hplain
    unfold tokenizeFrom at h
    split at h
    · rename_i hescaped
      subst hescaped
      cases quote with
      | none =>
        exact step .escaped none false _ _ h (wordValue_keep word (by simp)).symm (expands_hidden word (by simp)).symm (by simp) rfl
          (by simp)
      | some q =>
        cases q with
        | single => exact absurd rfl (hsingle rfl)
        | double =>
          by_cases he : escapable c = true
          · refine step .escaped (some .double) false _ _ h (wordValue_keep word (by simp)).symm (expands_hidden word (by simp)).symm
              (by simp) ?_ (by simp)
            simp [stateOf, he, markChar]
          · have hplainChar : c ≠ '\x22' ∧ c ≠ '\x5c' ∧ isDynamicChar c = false := by
              simp only [escapable, Bool.or_eq_true, decide_eq_true_eq, not_or] at he
              simp [he, isDynamicChar]
            refine step .double (some .double) false _ _ h (wordValue_keep word (by simp [hplainChar])).symm
              (expands_hidden word (by simp [hplainChar])).symm (by simp) ?_ (by simp)
            simp [stateOf, he, markChar, hplainChar]
    · rename_i hescaped
      obtain rfl : escaped = false := by simpa using hescaped
      cases quote with
      | none =>
        dsimp only at h
        split at h
        · rename_i hspace
          obtain ⟨tokens', htokens, rfl⟩ := except_map_ok h
          have hnone : (Expands word && decide (wordValue word = [])) = Expands [] := by
            by_cases hv : wordValue word = []
            · rw [expands_of_wordValue_nil hv]
              rfl
            · simp [hv, Expands]
          rw [hnone] at htokens
          obtain ⟨ms, hms, hreads⟩ := ih none false [] true tokens' htokens (by simp) fun _ => rfl
          refine ⟨(c, .plain) :: ms, ?_, hreads.blank atStart hspace⟩
          have hrest : marks .plain rest = some ms := hms
          have hmarks : marks .plain (c :: rest) = some ((c, .plain) :: ms) := by
            rw [marks, markChar_space hspace, hrest]
            rfl
          exact hmarks
        · rename_i hspace
          split at h
          · rename_i hc
            subst hc
            exact step .quoting (some .single) false _ _ h (wordValue_drop word (by simp)).symm (expands_hidden word (by simp)).symm
              (by simp) rfl (by simp)
          · rename_i hsingleQuote
            split at h
            · rename_i hc
              subst hc
              exact step .quoting (some .double) false _ _ h (wordValue_drop word (by simp)).symm (expands_hidden word (by simp)).symm
                (by simp) rfl (by simp)
            · rename_i hdoubleQuote
              split at h
              · cases h
              · rename_i hcomment
                split at h
                · rename_i hc
                  subst hc
                  exact step .quoting none true _ _ h (wordValue_drop word (by simp)).symm (expands_hidden word (by simp)).symm
                    (by simp) rfl (by simp)
                · rename_i hbackslash
                  split at h
                  · cases h
                  · rename_i hcomplex
                    refine step .plain none false _ _ h (wordValue_keep word (by simp)).symm (expands_shown word (by simp)).symm
                      (by simp) ?_ fun _ => ⟨not_operator hcomplex, by simpa using hspace, ?_⟩
                    · simp [stateOf, markChar, hsingleQuote, hdoubleQuote, hbackslash]
                    · rintro ⟨hat, hc⟩
                      exact hcomment ⟨hc, hstart hat⟩
      | some q =>
        cases q with
        | single =>
          dsimp only at h
          split at h
          · rename_i hc
            subst hc
            exact step .quoting none false _ _ h (wordValue_drop word (by simp)).symm
              (expands_hidden word (by simp)).symm (by simp) rfl (by simp)
          · rename_i hc
            refine step .single (some .single) false _ _ h (wordValue_keep word (by simp)).symm (expands_hidden word (by simp)).symm
              (by simp) ?_ (by simp)
            simp [stateOf, markChar, hc]
        | double =>
          dsimp only at h
          split at h
          · rename_i hc
            subst hc
            exact step .quoting none false _ _ h (wordValue_drop word (by simp)).symm
              (expands_hidden word (by simp)).symm (by simp) rfl (by simp)
          · rename_i hquote
            split at h
            · rename_i hc
              subst hc
              by_cases he : rest.head?.any escapable = true
              · refine step .quoting (some .double) true _ _ h (wordValue_drop word (by simp)).symm
                  (expands_hidden word (by simp)).symm (by simp) ?_ (by simp)
                simp [stateOf, markChar, he]
              · refine step .double (some .double) true _ _ h (wordValue_drop word (by simp)).symm
                  (expands_hidden word (Or.inr (Or.inr (Or.inr (by decide))))).symm (by simp) ?_ (by simp)
                simp [stateOf, markChar, he]
            · rename_i hc
              refine step .double (some .double) false _ _ h (wordValue_keep word (by simp [hc])).symm
                (expands_shown word (by simp)).symm (by simp) ?_ (by simp)
              simp [stateOf, markChar, hquote, hc]

/-- The tokens of a command are its words, and the command has no plain operator and no comment. -/
theorem tokenize_reads {command : List Char} {tokens : List ShellToken} (h : tokenizeSimpleShell command = .ok tokens) :
    ∃ ms, marks .plain command = some ms ∧ PlainFree isOperator ms ∧ CommentFree isSpace true ms ∧
      tokens = (valuedWords ms).map fun w => { value := wordValue w, dynamic := Expands w } := by
  unfold tokenizeSimpleShell at h
  split at h
  · cases h
  · split at h
    · cases h
    · rename_i tokens' htokens
      split at h
      · cases h
      · obtain rfl := Except.ok.inj h
        obtain ⟨ms, hms, hreads⟩ := tokenizeFrom_reads command none false [] true _ htokens (by simp) fun _ => rfl
        exact ⟨ms, hms, hreads.operators, hreads.comments, hreads.tokens⟩

/-! ## Paths -/

theorem mem_mapM_ok {α β ε : Type} {f : α → Except ε β} {l : List α} {ys : List β} (h : l.mapM f = .ok ys) :
    ∀ y ∈ ys, ∃ x ∈ l, f x = .ok y := by
  induction l generalizing ys with
  | nil =>
    obtain rfl := Except.ok.inj h
    exact fun y hy => absurd hy (by simp)
  | cons x l ih =>
    rw [List.mapM_cons] at h
    cases hx : f x with
    | error e => rw [hx] at h; cases h
    | ok a =>
      cases hl : l.mapM f with
      | error e => rw [hx, hl] at h; cases h
      | ok as =>
        rw [hx, hl] at h
        obtain rfl := Except.ok.inj h
        intro y hy
        rcases List.mem_cons.mp hy with rfl | hy
        · exact ⟨x, List.mem_cons_self, hx⟩
        · obtain ⟨z, hz, hzy⟩ := ih hl y hy
          exact ⟨z, List.mem_cons_of_mem _ hz, hzy⟩

/-- The paths of a read are static words among those that the tool takes for paths. -/
structure PathsFrom (tokens : List ShellToken) (pathArgs : List ShellIoPathArg) : Prop where
  mem : ∀ arg ∈ pathArgs, ∃ token ∈ tokens, token.value = arg.raw ∧ token.dynamic = false

theorem finishPathArgs_read {commandName name : List Char} {tokens : List ShellToken} {hint : ShellIoPathKindHint}
    {pathArgs : List ShellIoPathArg} (h : finishPathArgs commandName tokens hint = .read name pathArgs) :
    name = commandName ∧ PathsFrom tokens pathArgs := by
  unfold finishPathArgs at h
  split at h
  · cases h
  · split at h
    · cases h
    · rename_i args hargs
      split at h
      · cases h
      · cases h
        refine ⟨rfl, ⟨fun arg harg => ?_⟩⟩
        obtain ⟨token, htoken, hpath⟩ := mem_mapM_ok hargs arg harg
        unfold pathArg at hpath
        split at hpath
        · cases hpath
        · rename_i hstatic
          obtain rfl := Except.ok.inj hpath
          refine ⟨token, (List.mem_filter.mp htoken).1, rfl, ?_⟩
          by_contra hdynamic
          exact hstatic (Or.inr (by simp [hasDynamicPathSyntax, hdynamic]))

theorem PathsFrom.mono {tokens tokens' : List ShellToken} {pathArgs : List ShellIoPathArg} (h : PathsFrom tokens pathArgs)
    (hsub : tokens ⊆ tokens') : PathsFrom tokens' pathArgs := by
  refine ⟨fun arg harg => ?_⟩
  obtain ⟨token, htoken, hvalue, hdynamic⟩ := h.mem arg harg
  exact ⟨token, hsub htoken, hvalue, hdynamic⟩

/-! ## The loops pick words -/

theorem simpleFileReadPaths_subset (commandName : List Char) (tokens : List ShellToken) (afterDoubleDash skip : Bool) :
    simpleFileReadPaths commandName afterDoubleDash skip tokens ⊆ tokens := by
  induction tokens generalizing afterDoubleDash skip with
  | nil => cases skip <;> exact List.Subset.refl _
  | cons token rest ih =>
    cases skip with
    | true => exact List.subset_cons_of_subset _ (ih afterDoubleDash false)
    | false =>
      unfold simpleFileReadPaths
      split
      · exact List.subset_cons_of_subset _ (ih _ _)
      · split
        · exact List.subset_cons_of_subset _ (ih _ _)
        · split
          · exact List.subset_cons_of_subset _ (ih _ _)
          · exact List.cons_subset_cons _ (ih _ _)

theorem sedPaths_subset {tokens paths : List ShellToken} {scriptProvided afterDoubleDash skip : Bool}
    (h : sedPaths scriptProvided afterDoubleDash skip tokens = some paths) : paths ⊆ tokens := by
  induction tokens generalizing scriptProvided afterDoubleDash skip paths with
  | nil =>
    cases skip <;> (obtain rfl := Option.some.inj h; exact List.Subset.refl _)
  | cons token rest ih =>
    cases skip with
    | true => exact List.subset_cons_of_subset _ (ih h)
    | false =>
      unfold sedPaths at h
      split at h
      · exact List.subset_cons_of_subset _ (ih h)
      · split at h
        · cases h
        · split at h
          · split at h <;> exact List.subset_cons_of_subset _ (ih h)
          · split at h
            · exact List.subset_cons_of_subset _ (ih h)
            · obtain ⟨paths', hpaths, rfl⟩ := Option.map_eq_some_iff.mp h
              exact List.cons_subset_cons _ (ih hpaths)

theorem grepPaths_subset {tokens paths : List ShellToken} {patternProvided afterDoubleDash skip : Bool}
    (h : grepPaths patternProvided afterDoubleDash skip tokens = some paths) : paths ⊆ tokens := by
  induction tokens generalizing patternProvided afterDoubleDash skip paths with
  | nil =>
    cases skip <;> (obtain rfl := Option.some.inj h; exact List.Subset.refl _)
  | cons token rest ih =>
    cases skip with
    | true => exact List.subset_cons_of_subset _ (ih h)
    | false =>
      unfold grepPaths at h
      split at h
      · exact List.subset_cons_of_subset _ (ih h)
      · split at h
        · split at h
          · cases h
          · exact List.subset_cons_of_subset _ (ih h)
        · split at h
          · exact List.subset_cons_of_subset _ (ih h)
          · obtain ⟨paths', hpaths, rfl⟩ := Option.map_eq_some_iff.mp h
            exact List.cons_subset_cons _ (ih hpaths)

theorem ripgrepPaths_subset (tokens : List ShellToken) (filesMode patternProvided afterDoubleDash skip : Bool) :
    (ripgrepPaths filesMode patternProvided afterDoubleDash skip tokens).2 ⊆ tokens := by
  induction tokens generalizing filesMode patternProvided afterDoubleDash skip with
  | nil => cases skip <;> exact List.Subset.refl _
  | cons token rest ih =>
    cases skip with
    | true => exact List.subset_cons_of_subset _ (ih _ _ _ _)
    | false =>
      unfold ripgrepPaths
      split
      · exact List.subset_cons_of_subset _ (ih _ _ _ _)
      · split
        · exact List.subset_cons_of_subset _ (ih _ _ _ _)
        · split
          · split <;> exact List.subset_cons_of_subset _ (ih _ _ _ _)
          · split
            · exact List.subset_cons_of_subset _ (ih _ _ _ _)
            · exact List.cons_subset_cons _ (ih _ _ _ _)

theorem findPaths_subset (tokens : List ShellToken) (afterDoubleDash : Bool) : (findPaths afterDoubleDash tokens).1 ⊆ tokens := by
  induction tokens generalizing afterDoubleDash with
  | nil => exact List.Subset.refl _
  | cons token rest ih =>
    unfold findPaths
    split
    · exact List.subset_cons_of_subset _ (ih _)
    · split
      · exact List.nil_subset _
      · exact List.cons_subset_cons _ (ih _)

theorem lsPaths_subset (tokens : List ShellToken) (afterDoubleDash : Bool) : lsPaths afterDoubleDash tokens ⊆ tokens := by
  induction tokens generalizing afterDoubleDash with
  | nil => exact List.Subset.refl _
  | cons token rest ih =>
    unfold lsPaths
    split
    · exact List.subset_cons_of_subset _ (ih _)
    · split
      · exact List.subset_cons_of_subset _ (ih _)
      · exact List.cons_subset_cons _ (ih _)

/-- Whatever the tool, the paths of a read are words after the command word. -/
theorem classifyTool_read {commandName name : List Char} {tokens : List ShellToken} {pathArgs : List ShellIoPathArg}
    (h : classifyTool commandName tokens = .read name pathArgs) : name = commandName ∧ PathsFrom tokens.tail pathArgs := by
  have finish : ∀ {tool paths hint}, finishPathArgs tool paths hint = .read name pathArgs → paths ⊆ tokens.tail →
      name = tool ∧ PathsFrom tokens.tail pathArgs := by
    intro tool paths hint hread hsub
    obtain ⟨hname, hpaths⟩ := finishPathArgs_read hread
    exact ⟨hname, hpaths.mono hsub⟩
  unfold classifyTool at h
  split at h
  · cases h
  · split at h
    · exact finish h (simpleFileReadPaths_subset commandName tokens.tail false false)
    · split at h
      · rename_i htool
        unfold classifySed at h
        split at h
        · cases h
        · rename_i paths hpaths
          rw [htool]
          exact finish h (sedPaths_subset hpaths)
      · split at h
        · rename_i htool
          unfold classifyGrep at h
          split at h
          · cases h
          · rename_i paths hpaths
            rw [htool]
            exact finish h (grepPaths_subset hpaths)
        · split at h
          · rename_i htool
            rw [htool]
            exact finish h (ripgrepPaths_subset tokens.tail false false false false)
          · split at h
            · rename_i htool
              unfold classifyFind at h
              dsimp only at h
              split at h
              · cases h
              · rw [htool]
                exact finish h (findPaths_subset tokens.tail false)
            · split at h
              · rename_i htool
                rw [htool]
                exact finish h (lsPaths_subset tokens.tail false)
              · cases h

end ShellAux

/-! ## Supported commands -/

/-- A command runs another through a shell: its words are a static shell, a command flag and the static other command. -/
def RunsInShell (toLowerCase : List Char → List Char) (command inner : List Char) : Prop :=
  ∃ ms shell flag word rest, marks .plain command = some ms ∧ valuedWords ms = shell :: flag :: word :: rest ∧
    commandBasename toLowerCase (wordValue shell) ∈ shellWrapperBasenames ∧ Expands shell = false ∧
    wordValue flag ∈ shellWrapperFlags ∧ Expands word = false ∧ wordValue word = inner

/-- A command runs another through a number of shells. -/
inductive Unwraps (toLowerCase : List Char → List Char) : Nat → List Char → List Char → Prop where
  | done (command : List Char) : Unwraps toLowerCase 0 command command
  | shell {n : Nat} {command inner last : List Char} : RunsInShell toLowerCase command inner →
      Unwraps toLowerCase n inner last → Unwraps toLowerCase (n + 1) command last

/-- One simple command that reads the paths: its quotes are closed, it has no plain operator and no comment, its first word is static
and names the tool, and each path is the value of a later word that is static. -/
def SimpleRead (toLowerCase : List Char → List Char) (command commandName : List Char) (pathArgs : List ShellIoPathArg) : Prop :=
  ∃ ms first rest, marks .plain command = some ms ∧ PlainFree isOperator ms ∧ CommentFree isSpace true ms ∧
    valuedWords ms = first :: rest ∧ Expands first = false ∧ commandBasename toLowerCase (wordValue first) = commandName ∧
    ∀ arg ∈ pathArgs, ∃ word ∈ rest, wordValue word = arg.raw ∧ Expands word = false

namespace ShellAux

variable {toLowerCase : List Char → List Char}

theorem simpleRead_of_tool {command commandName name : List Char} {commandToken : ShellToken} {tokens : List ShellToken}
    {pathArgs : List ShellIoPathArg} (htokens : tokenizeSimpleShell command = .ok tokens) (hhead : tokens.head? = some commandToken)
    (hstatic : ¬ commandToken.dynamic = true) (hname : commandBasename toLowerCase commandToken.value = commandName)
    (h : classifyTool commandName tokens = .read name pathArgs) : SimpleRead toLowerCase command name pathArgs := by
  obtain ⟨ms, hms, hoperators, hcomments, rfl⟩ := tokenize_reads htokens
  obtain ⟨hsame, hpaths⟩ := classifyTool_read h
  rw [List.head?_map] at hhead
  obtain ⟨first, hfirst, rfl⟩ := Option.map_eq_some_iff.mp hhead
  obtain ⟨rest, hwords⟩ := List.head?_eq_some_iff.mp hfirst
  refine ⟨ms, first, rest, hms, hoperators, hcomments, hwords, by simpa using hstatic, hname.trans hsame.symm, ?_⟩
  intro arg harg
  obtain ⟨token, htoken, hvalue, hdynamic⟩ := hpaths.mem arg harg
  rw [hwords, List.map_cons, List.tail_cons] at htoken
  obtain ⟨word, hword, rfl⟩ := List.mem_map.mp htoken
  exact ⟨word, hword, hvalue, hdynamic⟩

theorem runsInShell_of_wrapped {command inner : List Char} {commandToken : ShellToken} {tokens : List ShellToken}
    (htokens : tokenizeSimpleShell command = .ok tokens) (hhead : tokens.head? = some commandToken)
    (hstatic : ¬ commandToken.dynamic = true)
    (hshell : shellWrapperBasenames.contains (commandBasename toLowerCase commandToken.value) = true)
    (hinner : wrappedCommand tokens = some inner) : RunsInShell toLowerCase command inner := by
  obtain ⟨ms, hms, _, _, rfl⟩ := tokenize_reads htokens
  match hwords : valuedWords ms with
  | [] => rw [hwords] at hhead; cases hhead
  | [_] => rw [hwords] at hinner; cases hinner
  | [_, _] => rw [hwords] at hinner; cases hinner
  | shell :: flag :: word :: rest =>
    rw [hwords] at hhead hinner
    obtain rfl := Option.some.inj hhead
    simp only [List.map_cons, wrappedCommand] at hinner
    split at hinner
    · rename_i hflag
      obtain ⟨hflag, _, hword⟩ := hflag
      exact ⟨ms, shell, flag, word, rest, hms, hwords, by simpa using hshell, by simpa using hstatic, by simpa using hflag, hword,
        Option.some.inj hinner⟩
    · cases hinner

theorem classifyInternal_read {unwraps : Nat} {command name : List Char} {pathArgs : List ShellIoPathArg}
    (h : classifyInternal toLowerCase unwraps command = .read name pathArgs) :
    ∃ n ≤ unwraps, ∃ last, Unwraps toLowerCase n command last ∧ SimpleRead toLowerCase last name pathArgs := by
  induction unwraps generalizing command with
  | zero =>
    unfold classifyInternal at h
    split at h
    · cases h
    · rename_i tokens htokens
      split at h
      · cases h
      · rename_i commandToken hhead
        split at h
        · cases h
        · rename_i hstatic
          exact ⟨0, Nat.le_refl 0, command, .done command, simpleRead_of_tool htokens hhead hstatic rfl h⟩
  | succ unwraps ih =>
    unfold classifyInternal at h
    split at h
    · cases h
    · rename_i tokens htokens
      split at h
      · cases h
      · rename_i commandToken hhead
        split at h
        · cases h
        · rename_i hstatic
          dsimp only at h
          have htool : ∀ {name'}, classifyTool (commandBasename toLowerCase commandToken.value) tokens = .read name' pathArgs →
              SimpleRead toLowerCase command name' pathArgs := simpleRead_of_tool htokens hhead hstatic rfl
          split at h
          · rename_i hshell
            split at h
            · rename_i inner hinner
              obtain ⟨n, hn, last, hunwraps, hread⟩ := ih h
              exact ⟨n + 1, Nat.succ_le_succ hn, last,
                .shell (runsInShell_of_wrapped htokens hhead hstatic hshell hinner) hunwraps, hread⟩
            · exact ⟨0, Nat.zero_le _, command, .done command, htool h⟩
          · exact ⟨0, Nat.zero_le _, command, .done command, htool h⟩

end ShellAux

open ShellAux

/-- A command classified as a read is, after at most two wrappers, one simple command that reads the reported paths. -/
theorem classified_read_is_simple (toLowerCase : List Char → List Char) {command name : List Char} {pathArgs : List ShellIoPathArg}
    (h : classifyShellCommandIo toLowerCase command = .read name pathArgs) :
    ∃ n ≤ 2, ∃ last, Unwraps toLowerCase n command last ∧ SimpleRead toLowerCase last name pathArgs :=
  classifyInternal_read h

namespace ShellCommandExample

/-- Lower case of the ASCII letters. -/
def lower (l : List Char) : List Char := l.map Char.toLower

/-- A wrapped read whose quoted path holds an operator. -/
def wrappedRead : List Char := "bash -lc \x22cat 'a;b' c\x22".toList

theorem classified_read_is_simple_wrapped :
    classifyShellCommandIo lower wrappedRead = .read "cat".toList [⟨"a;b".toList, .file⟩, ⟨"c".toList, .file⟩] ∧
      ∃ n ≤ 2, ∃ last, Unwraps lower n wrappedRead last ∧
        SimpleRead lower last "cat".toList [⟨"a;b".toList, .file⟩, ⟨"c".toList, .file⟩] := by
  have h : classifyShellCommandIo lower wrappedRead = .read "cat".toList [⟨"a;b".toList, .file⟩, ⟨"c".toList, .file⟩] := by
    decide +kernel
  exact ⟨h, classified_read_is_simple lower h⟩

/-- What was to hold of every read: no word of the command substitutes a command. -/
def ReadsSubstituteNothing : Prop :=
  ∀ command name pathArgs, classifyShellCommandIo lower command = .read name pathArgs →
    ∀ n last ms, n ≤ 2 → Unwraps lower n command last → marks .plain last = some ms → ∀ word ∈ valuedWords ms, ¬ Substitutes word

/-- The pattern of a search is not a path, and may substitute a command. -/
def searchWithSubstitution : List Char := "grep \x22$(id)\x22 f".toList

/-- The pattern, marked. -/
def pattern : List (Char × Mark) :=
  [('\x22', .quoting), ('$', .double), ('(', .double), ('i', .double), ('d', .double), (')', .double), ('\x22', .quoting)]

theorem reads_substitute_nothing_false : ¬ ReadsSubstituteNothing := by
  intro hall
  have hread : classifyShellCommandIo lower searchWithSubstitution = .read "grep".toList [⟨"f".toList, .unknown⟩] := by
    decide +kernel
  have hwords : (marks .plain searchWithSubstitution).map (fun ms => decide (pattern ∈ valuedWords ms)) = some true := by
    decide +kernel
  obtain ⟨ms, hms, hpattern⟩ := Option.map_eq_some_iff.mp hwords
  refine hall _ _ _ hread 0 _ ms (Nat.zero_le 2) (.done _) hms pattern (of_decide_eq_true hpattern) ?_
  exact ⟨.double, Or.inr rfl, Or.inr ⟨[('\x22', .quoting)], pattern.drop 3, rfl⟩⟩

end ShellCommandExample

end FirstTree
